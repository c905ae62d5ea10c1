import RootedHeap.Allocator.Strategy
import RootedHeap.Machine.Basic
import RootedHeap.Workload.Size

/-!
The configuration of the whole program: the heap and its collector, the machine, the workload and
the log. Everything in it has a standard value, so a configuration says only what differs.
-/

namespace RootedHeap

/-- The heap and the collector, as a configuration states them. -/
structure CollectorSection where
  heapSize : Nat
  cellSize : Nat
  strategy : Strategy
  maxPauseMillis : Nat
  deriving DecidableEq

/-- A configuration. -/
structure Config where
  collector : CollectorSection
  machine : MachineConfig
  workload : Workload.Size
  level : Level
  deriving DecidableEq

/-- Why there is no configuration, or no text of it. -/
inductive ConfigError where
  | inaccessible
  | malformed
  | unwritable
  deriving DecidableEq

namespace ConfigError

/-- What a message about the error starts with. -/
def heading : ConfigError → String
  | .inaccessible => "IO error"
  | .malformed => "Config parse error"
  | .unwritable => "Config serialize error"

end ConfigError

namespace Config

/-- The configuration in which everything is standard. -/
def standard : Config where
  collector := ⟨CollectorConfig.standard.heapSize, CollectorConfig.standard.cellSize, .standard, 10⟩
  machine := .standard
  workload := .standard
  level := .standard

/-- What a machine's heap and collector are built from. -/
def collectorConfig (c : Config) : CollectorConfig where
  heapSize := c.collector.heapSize
  cellSize := c.collector.cellSize
  strategy := c.collector.strategy
  maxPause := .ofMillis c.collector.maxPauseMillis

end Config

end RootedHeap
