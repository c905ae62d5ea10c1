import RootedHeap.Config.Basic
import RootedHeap.Text.Quoted

/-!
Configurations as text in TOML: every section under its header with every field in a fixed order,
one blank line between sections. The format's numbers have 64 bits with a sign, so a greater number
has no text.
-/

namespace RootedHeap

/-- The value of a field in a configuration's text. -/
inductive Setting where
  | number (n : Nat)
  | flag (b : Bool)
  | name (s : String)
  deriving DecidableEq

namespace Setting

/-- The greatest number of the format. -/
def greatest : Nat := 0x7FFFFFFFFFFFFFFF

/-- Whether the format has the value. -/
def isWritable : Setting → Bool
  | .number n => n ≤ greatest
  | .flag _ | .name _ => true

def text : Setting → String
  | .number n => toString n
  | .flag b => if b then "true" else "false"
  | .name s => Text.quoted s

/-- The line of a field. -/
def line (key : String) (setting : Setting) : String := key ++ " = " ++ setting.text

end Setting

namespace Config

/-- Every section with every field. -/
def settings (c : Config) : List (String × List (String × Setting)) :=
  [("gc",
      [("heap_size", .number c.collector.heapSize), ("cell_size", .number c.collector.cellSize),
        ("strategy", .name c.collector.strategy.name),
        ("max_pause_ms", .number c.collector.maxPauseMillis)]),
    ("vm",
      [("max_call_depth", .number c.machine.maxCallDepth),
        ("trace_execution", .flag c.machine.trace)]),
    ("workload",
      [("threads", .number c.workload.threads), ("iterations", .number c.workload.iterations),
        ("list_length", .number c.workload.listLength), ("seed", .number c.workload.seed)]),
    ("log", [("level", .name c.level.name)])]

/-- Whether the format has every value of a configuration. -/
def isWritable (c : Config) : Bool :=
  c.settings.all fun part => part.2.all fun field => field.2.isWritable

/-- The lines of a section. -/
def sectionLines (part : String × List (String × Setting)) : List String :=
  ("[" ++ part.1 ++ "]") :: part.2.map fun field => field.2.line field.1

/-- All lines, with an empty one between sections. -/
def lines (c : Config) : List String := [""].intercalate (c.settings.map sectionLines)

def text (c : Config) : Except ConfigError String :=
  if c.isWritable then .ok (String.join (c.lines.map (· ++ "\n"))) else .error .unwritable

end Config

end RootedHeap
