import RootedHeap.Toml.Scalar
import RootedHeap.Toml.Table

/-!
TOML documents. A document is a list of lines that matter: entries and headers. Each header opens a
section, which goes on to the next header; the entries before the first header belong to the
document itself. `Toml.parse` reads a text into the entries of the whole document, or refuses it.
-/

namespace RootedHeap.Toml

open Text Reader

/-! ### Keys -/

def isKeyChar (c : Char) : Bool := c.isAlphanum || c == '_' || c == '-'

/-- One part of a key. -/
def simpleKey : Reader String :=
  lineText '"' true <|> lineText '\'' false
  <|> (do return String.ofList (← takeSome isKeyChar))

/-- One part of a key between blanks. -/
def keyPart : Reader String := do
  blanks
  let part ← simpleKey
  blanks
  return part

/-- Parts of keys and values within values are refused from this number on. -/
def nestingLimit : Nat := 80

def key : Reader Key := do
  let parts ← separated (char '.') keyPart
  if nestingLimit ≤ parts.length then failure
  match parts.getLast? with
  | some last => return ⟨parts.dropLast, last⟩
  | none => failure

/-! ### Values -/

/-- An array, over any number of lines. A comma may stand after the last item. -/
def array (item : Reader Value) : Reader Value := do
  char '['
  let items ← separated (char ',') (do
    blankLines
    let value ← item
    blankLines
    return value)
  if !items.isEmpty then
    let _ ← maybe (char ',')
  blankLines
  char ']'
  return .array items

/-- A table between braces, on one line. -/
def inlineTable (item : Reader Value) : Reader Value := do
  char '\x7b'
  let entries ← separated (char ',') (do
    let k ← key
    char '='
    blanks
    let value ← item
    blanks
    return (k, value))
  blanks
  char '\x7d'
  match Entries.assignAll [] entries with
  | some entries => return .table .inline entries
  | none => failure

/-- A value with less than `n` values around each other in it. -/
def valueWithin : (n : Nat) → Reader Value
  | 0 => scalar
  | n + 1 => array (valueWithin n) <|> inlineTable (valueWithin n) <|> scalar

def value : Reader Value := valueWithin (nestingLimit - 1)

/-! ### Lines -/

/-- A line of a document. -/
inductive Line where
  | empty
  | entry (key : Key) (value : Value)
  | header (key : Key)
  | repeatedHeader (key : Key)

def line : Reader Line := do
  let found ←
    (do
      comment
      lineEnd
      return .empty) <|>
    (do
      newline
      return .empty) <|>
    (do
      literal ['[', '[']
      let header ← key
      literal [']', ']']
      lineRest
      return .repeatedHeader header) <|>
    (do
      char '['
      let header ← key
      char ']'
      lineRest
      return .header header) <|>
    (do
      let k ← key
      char '='
      blanks
      let v ← value
      lineRest
      return .entry k v)
  blanks
  return found

/-- All lines of a document, which may start with a byte order mark. -/
def lines : Reader (List Line) := do
  let _ ← maybe (char '\uFEFF')
  blanks
  many line

/-! ### Documents -/

/-- A header with the entries up to the next one. -/
structure Section where
  header : Key
  repeats : Bool
  body : List (Key × Value)

/-- The entries before the first header, and the sections. -/
def sections : List Line → List (Key × Value) × List Section
  | [] => ([], [])
  | .empty :: rest => sections rest
  | .entry key value :: rest =>
    let (body, later) := sections rest
    ((key, value) :: body, later)
  | .header key :: rest =>
    let (body, later) := sections rest
    ([], ⟨key, false, body⟩ :: later)
  | .repeatedHeader key :: rest =>
    let (body, later) := sections rest
    ([], ⟨key, true, body⟩ :: later)

/-- The document with one more section. -/
def Entries.addSection (entries : Entries) (s : Section) : Option Entries :=
  if s.repeats then entries.addElement s.header s.body else entries.addTable s.header s.body

/-- The entries of a document of lines. -/
def assemble (ls : List Line) : Option Entries := do
  let (body, later) := sections ls
  later.foldlM Entries.addSection (← Entries.assignAll [] body)

/-- The entries of a document, if the text is one. -/
def parse (text : String) : Option Entries := do
  let ls ← whole lines text.toList
  assemble ls

end RootedHeap.Toml
