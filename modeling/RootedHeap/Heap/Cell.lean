import RootedHeap.Fault

/-!
One cell of the heap: a fixed number of slots, each holding a word, and the handle under which the
heap keeps the cell. Reads and writes are raw: they check the slot's number and nothing else. What a
word means is up to whoever wrote it.
-/

namespace RootedHeap

structure Cell where
  position : Handle
  slots : Array Word
  deriving DecidableEq

namespace Cell

/-- A cell whose slots are all null. -/
def fresh (width : Nat) (position : Handle) : Cell := ⟨position, Array.replicate width 0⟩

def width (c : Cell) : Nat := c.slots.size

def read (c : Cell) (slot : Nat) : Answer Word :=
  match c.slots[slot]? with
  | some word => .ok word
  | none => .error (.indexOutOfRange slot 0 c.width)

/-- Refuses a slot that the cell does not have. -/
def checkSlot (c : Cell) (slot : Nat) : Answer Unit :=
  if slot < c.width then .ok () else .error (.indexOutOfRange slot 0 c.width)

def put (c : Cell) (slot : Nat) (word : Word) : Cell :=
  { c with slots := c.slots.setIfInBounds slot word }

/-- The cell with a word written to a slot. -/
def write (c : Cell) (slot : Nat) (word : Word) : Answer Cell := do
  c.checkSlot slot
  return c.put slot word

/-- The word to write for a handle; a handle that fits in no slot is refused before the slot is
looked at. -/
def referenceWord (c : Cell) (slot : Nat) (handle : Handle) : Answer Word :=
  match handle.store? with
  | some word => do
    c.checkSlot slot
    return word
  | none => .error (.indexOutOfRange handle 0 Handle.greatest)

/-- The cell with a handle written to a slot. -/
def writeReference (c : Cell) (slot : Nat) (handle : Handle) : Answer Cell := do
  return c.put slot (← c.referenceWord slot handle)

/-- Whether a slot holds a reference, null included. -/
def isReference (c : Cell) (slot : Nat) : Answer Bool := (c.read slot).map Word.isReference

def clear (c : Cell) : Cell := { c with slots := Array.replicate c.width 0 }

def snapshot (c : Cell) : List Word := c.slots.toList

/-- The handles stored in the cell, in slot order. -/
def references (c : Cell) : List Handle := c.snapshot.filterMap Word.target?

/-- The cell with the words of `source`, which must have as many slots. -/
def copyFrom (c source : Cell) : Answer Cell :=
  if c.width = source.width then .ok { c with slots := source.slots }
  else .error (.sizeMismatch source.width c.width)

def layout (c : Cell) : String :=
  Text.record "MemoryCell"
    [("position", toString c.position), ("slots", Text.list (c.snapshot.map Word.text))]

end Cell

end RootedHeap
