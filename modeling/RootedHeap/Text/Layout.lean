/-!
The structural layout of a value, as logs and debug views show it: `Name { a: 1, b: 2 }` for a
record, `Name(1)` for a value in a wrapper, `[1, 2]` for a list.
-/

namespace RootedHeap.Text

def list (items : List String) : String := "[" ++ ", ".intercalate items ++ "]"

def wrapped (name item : String) : String := name ++ "(" ++ item ++ ")"

def option : Option String → String
  | none => "None"
  | some item => wrapped "Some" item

/-- The fields of a record, each after its name. -/
def fieldList (fields : List (String × String)) : List String :=
  fields.map fun field => field.1 ++ ": " ++ field.2

def record (name : String) (fields : List (String × String)) : String :=
  name ++ " \x7b " ++ ", ".intercalate (fieldList fields) ++ " \x7d"

/-- A record that shows only some of its fields. -/
def partOfRecord (name : String) (fields : List (String × String)) : String :=
  name ++ " \x7b " ++ ", ".intercalate (fieldList fields ++ [".."]) ++ " \x7d"

end RootedHeap.Text
