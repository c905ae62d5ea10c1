import RootedHeap.Toml.Value

/-!
Tables under construction. A dotted key and the path of a header lead from table to table and make
the tables that are missing; a table that has its own header, or stands between braces, is not
extended by dotted keys, and no key is given twice.
-/

namespace RootedHeap.Toml

/-- A dotted key: the tables on the way and the key in the last of them. -/
structure Key where
  path : List String
  last : String
  deriving DecidableEq

namespace Entries

def get? (entries : Entries) (key : String) : Option Value := entries.lookup key

/-- The entries with the value of a key changed, in its place, or added at the end. -/
def put (entries : Entries) (key : String) (value : Value) : Entries :=
  match entries with
  | [] => [(key, value)]
  | entry :: rest =>
    if entry.1 = key then (key, value) :: rest else entry :: put rest key value

/-- The entries with one more key, which must be new. -/
def add (entries : Entries) (key : String) (value : Value) : Option Entries :=
  match entries.get? key with
  | none => some (entries ++ [(key, value)])
  | some _ => none

/-- Changes the table at the end of a path. A table that is missing is made, as `made`; one that is
there is passed if `passes` says so; of several tables under one name the last is meant. The change
is told how its table came to be. -/
def within (made : Origin) (passes : Origin → Bool) (change : Origin → Entries → Option Entries)
    (origin : Origin) (entries : Entries) : (path : List String) → Option Entries
  | [] => change origin entries
  | key :: path =>
    match entries.get? key with
    | none => do
      let inner ← within made passes change made [] path
      return entries.put key (.table made inner)
    | some (.table origin inner) =>
      if passes origin then do
        let inner ← within made passes change origin inner path
        return entries.put key (.table origin inner)
      else none
    | some (.tables elements) => do
      let last ← elements.getLast?
      let inner ← within made passes change .header last path
      return entries.put key (.tables (elements.dropLast ++ [inner]))
    | some _ => none

/-- Whether a dotted key may pass a table. -/
def opensToKeys : Origin → Bool
  | .implied | .dotted => true
  | .header | .inline => false

/-- The entries with the value of a dotted key. The table that takes the value is the one whose
entries these are, or one that dotted keys made. -/
def assign (entries : Entries) (key : Key) (value : Value) : Option Entries :=
  within .dotted opensToKeys
    (fun origin inner =>
      if key.path.isEmpty || origin = .dotted then inner.add key.last value else none)
    .header entries key.path

def assignAll (entries : Entries) : List (Key × Value) → Option Entries
  | [] => some entries
  | (key, value) :: rest => do
    let entries ← entries.assign key value
    entries.assignAll rest

/-- The entries with a table under a header of its own, filled with dotted keys. What headers of
inner tables have implied before is kept. -/
def addTable (entries : Entries) (header : Key) (body : List (Key × Value)) : Option Entries :=
  within .implied (· ≠ .inline)
    (fun _ parent =>
      match parent.get? header.last with
      | none => do return parent.put header.last (.table .header (← assignAll [] body))
      | some (.table .implied inner) => do
        return parent.put header.last (.table .header (← assignAll inner body))
      | some _ => none)
    .header entries header.path

/-- The entries with one more table under a repeated header, filled with dotted keys. -/
def addElement (entries : Entries) (header : Key) (body : List (Key × Value)) : Option Entries :=
  within .implied (· ≠ .inline)
    (fun _ parent =>
      match parent.get? header.last with
      | none => do return parent.put header.last (.tables [← assignAll [] body])
      | some (.tables elements) => do
        return parent.put header.last (.tables (elements ++ [← assignAll [] body]))
      | some _ => none)
    .header entries header.path

end Entries

end RootedHeap.Toml
