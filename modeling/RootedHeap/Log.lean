import RootedHeap.Text.Layout

/-!
The log: entries of five levels, each written by one thread. A reader chooses a level and sees the
entries of that level and the more severe ones.
-/

namespace RootedHeap

/-- The number of a thread. -/
abbrev Thread := Nat

/-- The thread that builds the machine. -/
def Thread.first : Thread := 0

/-- How much an entry matters, the least severe first. -/
inductive Level where
  | trace | debug | info | warn | error
  deriving DecidableEq

namespace Level

/-- The level that is shown where none is chosen. -/
def standard : Level := .info

/-- The position of a level, from the least severe up. -/
def severity : Level → Nat
  | .trace => 0
  | .debug => 1
  | .info => 2
  | .warn => 3
  | .error => 4

/-- Whether a reader who chose `level` sees an entry of the level `entry`. -/
def shows (level entry : Level) : Bool := level.severity ≤ entry.severity

def name : Level → String
  | .trace => "trace"
  | .debug => "debug"
  | .info => "info"
  | .warn => "warn"
  | .error => "error"

def label (level : Level) : String := level.name.map Char.toUpper

def layout (level : Level) : String := level.name.capitalize

def all : List Level := [.trace, .debug, .info, .warn, .error]

/-- The level of exactly that name. -/
def ofName? (name : String) : Option Level := all.find? (·.name == name)

/-- The level that a user names, in any case of letters, or the reason why there is none. -/
def parse (text : String) : Except String Level :=
  let lower := text.map Char.toLower
  match ofName? (if lower == "warning" then "warn" else lower) with
  | some level => .ok level
  | none => .error ("unknown log level: " ++ lower)

end Level

structure Entry where
  thread : Thread
  level : Level
  text : String

namespace Entry

/-- An entry as a line, its level flush right in five columns. -/
def line (entry : Entry) : String :=
  let label := entry.level.label
  "".pushn ' ' (5 - label.length) ++ label ++ " " ++ entry.text

end Entry

/-- The entries that a reader of a level sees. -/
def visible (level : Level) (log : Array Entry) : List Entry :=
  log.toList.filter fun entry => level.shows entry.level

end RootedHeap
