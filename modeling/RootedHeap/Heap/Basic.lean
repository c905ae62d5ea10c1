import RootedHeap.Heap.Cell

/-!
The heap: cells of one width, numbered from 1. Number 0 is kept for the null reference and counts in
the heap's size, so the handles of a heap are 1 up to its size, the size left out. Cells are never
made or destroyed after the heap is built, only written and cleared.
-/

namespace RootedHeap

/-- All cells of the machine; the cell of handle `h` stands at place `h - 1`. -/
structure Heap where
  cells : Array Cell
  width : Nat
  deriving DecidableEq

namespace Heap

/-- A heap of `size` handles, null included, whose cells have `width` slots. Size 0 is size 1. -/
def ofSize (size width : Nat) : Heap :=
  ⟨((List.range' 1 (size - 1)).map (Cell.fresh width)).toArray, width⟩

/-- The number of handles, null included. -/
def size (heap : Heap) : Nat := heap.cells.size + 1

def contains (heap : Heap) (h : Handle) : Bool := 1 ≤ h && h < heap.size

def outOfRange (heap : Heap) (h : Handle) : Fault := .indexOutOfRange h 1 heap.size

/-- The cell of a handle, if it names one. -/
def cell? (heap : Heap) (h : Handle) : Option Cell := if h = 0 then none else heap.cells[h - 1]?

def cell (heap : Heap) (h : Handle) : Answer Cell :=
  match heap.cell? h with
  | some cell => .ok cell
  | none => .error (heap.outOfRange h)

/-- All handles that name a cell, in ascending order. -/
def handles (heap : Heap) : List Handle := List.range' 1 heap.cells.size

def read (heap : Heap) (h : Handle) (slot : Nat) : Answer Word := do
  let cell ← heap.cell h
  cell.read slot

/-- The heap with the cell of a handle changed; a handle that names no cell changes nothing. -/
def modify (heap : Heap) (h : Handle) (change : Cell → Cell) : Heap :=
  if h = 0 then heap else { heap with cells := heap.cells.modify (h - 1) change }

def put (heap : Heap) (h : Handle) (cell : Cell) : Heap := heap.modify h fun _ => cell

/-- The heap with a word in a slot of a cell. -/
def putWord (heap : Heap) (h : Handle) (slot : Nat) (word : Word) : Heap :=
  heap.modify h (·.put slot word)

/-- Refuses a handle that names no cell, and a slot that its cell does not have. -/
def checkSlot (heap : Heap) (h : Handle) (slot : Nat) : Answer Unit := do
  let cell ← heap.cell h
  cell.checkSlot slot

/-- The heap with a word written to a slot of a cell. -/
def write (heap : Heap) (h : Handle) (slot : Nat) (word : Word) : Answer Heap := do
  heap.checkSlot h slot
  return heap.putWord h slot word

/-- The word to write for a handle to a slot of a cell. -/
def referenceWord (heap : Heap) (h : Handle) (slot : Nat) (target : Handle) : Answer Word := do
  let cell ← heap.cell h
  cell.referenceWord slot target

def clear (heap : Heap) (h : Handle) : Heap := heap.modify h Cell.clear

/-- The heap with a cell overwritten by the words of `source`. -/
def copyInto (heap : Heap) (h : Handle) (source : Cell) : Answer Heap := do
  let cell ← heap.cell h
  let copy ← cell.copyFrom source
  return heap.put h copy

/-- The handles stored in a cell; a handle that names no cell has none. -/
def references (heap : Heap) (h : Handle) : List Handle :=
  match heap.cell? h with
  | some cell => cell.references
  | none => []

/-- The words of every cell, in handle order. -/
def snapshots (heap : Heap) : List (List Word) := heap.cells.toList.map Cell.snapshot

def layout (heap : Heap) : String :=
  Text.record "Heap"
    [("cells", Text.list (heap.cells.toList.map Cell.layout)), ("cell_size", toString heap.width)]

end Heap

end RootedHeap
