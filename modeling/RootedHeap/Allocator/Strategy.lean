import RootedHeap.Allocator.Bump
import RootedHeap.Allocator.MarkSweep

/-!
The two strategies that a configuration can choose, their names, and the heap and allocator that a
configuration describes. A user may write a name in any case of letters and use the short names too.
-/

namespace RootedHeap

inductive Strategy where
  | bump | markSweep
  deriving DecidableEq

namespace Strategy

/-- The strategy where none is chosen. -/
def standard : Strategy := .markSweep

def name : Strategy → String
  | .bump => "bump"
  | .markSweep => "mark-sweep"

def layout : Strategy → String
  | .bump => "Bump"
  | .markSweep => "MarkSweep"

/-- The strategy of exactly that name. -/
def ofName? : String → Option Strategy
  | "bump" => some .bump
  | "mark-sweep" => some .markSweep
  | _ => none

/-- The strategy that a user names, or the reason why there is none. -/
def parse (text : String) : Except String Strategy :=
  match text.map Char.toLower with
  | "bump" | "none" => .ok .bump
  | "mark-sweep" | "marksweep" | "ms" => .ok .markSweep
  | other => .error ("unknown allocator strategy: " ++ other)

end Strategy

/-- The heap and the collector that a machine is built from. -/
structure CollectorConfig where
  heapSize : Nat
  cellSize : Nat
  strategy : Strategy
  maxPause : Duration
  deriving DecidableEq

namespace CollectorConfig

/-- A heap of 1024 handles with four slots each, under mark and sweep, and pauses up to 10 ms. -/
def standard : CollectorConfig := ⟨1024, 4, .standard, .ofMillis 10⟩

def heap (c : CollectorConfig) : Heap := Heap.ofSize c.heapSize c.cellSize

def layout (c : CollectorConfig) : String :=
  Text.record "GCConfig"
    [("heap_size", toString c.heapSize), ("cell_size", toString c.cellSize),
      ("strategy", c.strategy.layout), ("max_pause", c.maxPause.text)]

end CollectorConfig

end RootedHeap
