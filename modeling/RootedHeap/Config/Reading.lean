import RootedHeap.Config.Basic
import RootedHeap.Toml.Document

/-!
Configurations from TOML. Each section of a configuration is a list of fields in a fixed order. A
document gives a section as a table, of which unknown keys do not matter, or as an array with the
fields in order; what it leaves out stays as it was. Numbers are not negative, and a name may stand
as a text or as the only key of a table, above nothing.
-/

namespace RootedHeap

open Toml (Value Entries)

/-! ### Values -/

/-- A number that is not negative. -/
def Toml.Value.natural? : Value → Option Nat
  | .integer n => if 0 ≤ n then some n.toNat else none
  | _ => none

/-- A truth value. -/
def Toml.Value.boolean? : Value → Option Bool
  | .boolean b => some b
  | _ => none

/-- Whether a value is a table or an array with nothing in it. -/
def Toml.Value.isNothing : Value → Bool
  | .table _ entries => entries.isEmpty
  | .array items => items.isEmpty
  | .tables elements => elements.isEmpty
  | _ => false

/-- A name, as a text or as the only key of a table. -/
def Toml.Value.name? : Value → Option String
  | .text s => some s
  | .table _ [(key, value)] => if value.isNothing then some key else none
  | _ => none

/-! ### Sections -/

/-- A field of a section: its key, and how its value is taken over. -/
structure Field (σ : Type) where
  key : String
  take : Value → σ → Option σ

namespace Field

variable {σ : Type}

/-- Takes a field over from a table, if it is there. -/
def takeFrom (entries : Entries) (s : σ) (field : Field σ) : Option σ :=
  match entries.get? field.key with
  | none => some s
  | some value => field.take value s

/-- Takes fields over from a table. -/
def takeAll (fields : List (Field σ)) (entries : Entries) (s : σ) : Option σ :=
  fields.foldlM (takeFrom entries) s

/-- Takes fields over from values in the same order. Where one list is longer its end does not
matter. -/
def takeInOrder : List (Field σ) → List Value → σ → Option σ
  | field :: fields, value :: values, s => do takeInOrder fields values (← field.take value s)
  | _, _, s => some s

/-- Takes a section over from a value. A day or a time counts as a table without known keys. -/
def takeSection (fields : List (Field σ)) : Value → σ → Option σ
  | .table _ entries, s => takeAll fields entries s
  | .array items, s => takeInOrder fields items s
  | .tables elements, s => takeInOrder fields (elements.map (Value.table .header)) s
  | .dateTime _, s => some s
  | _, _ => none

/-- A field that holds what `read` finds. -/
def of {α : Type} (key : String) (read : Value → Option α) (set : α → σ → σ) : Field σ :=
  ⟨key, fun value s => (read value).map fun a => set a s⟩

end Field

/-- The fields of the heap and the collector. -/
def CollectorSection.fields : List (Field CollectorSection) :=
  [.of "heap_size" Value.natural? fun n s => { s with heapSize := n },
    .of "cell_size" Value.natural? fun n s => { s with cellSize := n },
    .of "strategy" (fun v => v.name? >>= Strategy.ofName?) fun x s => { s with strategy := x },
    .of "max_pause_ms" Value.natural? fun n s => { s with maxPauseMillis := n }]

/-- The fields of the machine. -/
def MachineConfig.fields : List (Field MachineConfig) :=
  [.of "max_call_depth" Value.natural? fun n s => { s with maxCallDepth := n },
    .of "trace_execution" Value.boolean? fun b s => { s with trace := b }]

/-- The fields of the workload. -/
def Workload.Size.fields : List (Field Workload.Size) :=
  [.of "threads" Value.natural? fun n s => { s with threads := n },
    .of "iterations" Value.natural? fun n s => { s with iterations := n },
    .of "list_length" Value.natural? fun n s => { s with listLength := n },
    .of "seed" Value.natural? fun n s => { s with seed := n }]

/-- The field of the log. -/
def Level.fields : List (Field Level) :=
  [.of "level" (fun v => v.name? >>= Level.ofName?) fun x _ => x]

namespace Config

/-- The sections of a configuration, as fields of it. -/
def fields : List (Field Config) :=
  [⟨"gc", fun v c => do
      return { c with collector := ← Field.takeSection CollectorSection.fields v c.collector }⟩,
    ⟨"vm", fun v c => do
      return { c with machine := ← Field.takeSection MachineConfig.fields v c.machine }⟩,
    ⟨"workload", fun v c => do
      return { c with workload := ← Field.takeSection Workload.Size.fields v c.workload }⟩,
    ⟨"log", fun v c => do
      return { c with level := ← Field.takeSection Level.fields v c.level }⟩]

/-- The configuration of a document: the standard one with what the document says. -/
def ofEntries? (entries : Entries) : Option Config := Field.takeAll fields entries standard

/-- The configuration of a text in TOML. -/
def parse (text : String) : Except ConfigError Config :=
  match Toml.parse text >>= ofEntries? with
  | some c => .ok c
  | none => .error .malformed

/-- The configuration in a file, of which the content must be there and be UTF-8. -/
def ofFile (content : Option ByteArray) : Except ConfigError Config :=
  match content >>= String.fromUTF8? with
  | some text => parse text
  | none => .error .inaccessible

end Config

end RootedHeap
