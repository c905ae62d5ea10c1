import RootedHeap.Heap.Basic

/-!
Requests to a single cell as data, for programs that reach past the frame operations, and what each
of them answers.
-/

namespace RootedHeap

/-- A request to one cell. -/
inductive CellCommand where
  | position
  | width
  | getReference (slot : Nat)
  | getData (slot : Nat)
  | isReference (slot : Nat)
  | setReference (slot : Nat) (handle : Handle)
  | setData (slot : Nat) (word : Word)
  | clear
  | snapshot
  | references
  | layout

inductive CellReply where
  | done
  | number (n : Nat)
  | word (w : Word)
  | flag (b : Bool)
  | words (ws : List Word)
  | handles (hs : List Handle)
  | text (s : String)

namespace Cell

/-- The answer of a cell to a request, and the cell after it. -/
def perform (c : Cell) : CellCommand → Answer (CellReply × Cell)
  | .position => .ok (.number c.position, c)
  | .width => .ok (.number c.width, c)
  | .getReference slot => (c.read slot).map fun word => (.word word, c)
  | .getData slot => (c.read slot).map fun word => (.word word, c)
  | .isReference slot => (c.isReference slot).map fun flag => (.flag flag, c)
  | .setReference slot handle => (c.writeReference slot handle).map fun after => (.done, after)
  | .setData slot word => (c.write slot word).map fun after => (.done, after)
  | .clear => .ok (.done, c.clear)
  | .snapshot => .ok (.words c.snapshot, c)
  | .references => .ok (.handles c.references, c)
  | .layout => .ok (.text c.layout, c)

end Cell

namespace Heap

/-- The answer of the cell of `h` to a request, and the heap after it. A refusal changes nothing. -/
def perform (heap : Heap) (h : Handle) (command : CellCommand) : Answer (CellReply × Heap) := do
  let cell ← heap.cell h
  let (reply, after) ← cell.perform command
  return (reply, heap.put h after)

end Heap

end RootedHeap
