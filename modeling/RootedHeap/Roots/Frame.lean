import RootedHeap.Word

/-!
The record of one call: its depth on the call stack, its state, and its active list, the objects it
holds directly, in the order in which it came to hold them. An object stands in the list once.
-/

namespace RootedHeap

/-- The stages in the life of a call. -/
inductive FrameState where
  | created
  | active
  | returning
  | popped
  deriving DecidableEq

namespace FrameState

def name : FrameState → String
  | .created => "Created"
  | .active => "Active"
  | .returning => "Returning"
  | .popped => "Popped"

def all : List FrameState := [.created, .active, .returning, .popped]

def ofName? (name : String) : Option FrameState := all.find? (·.name == name)

end FrameState

structure Frame where
  depth : Nat
  state : FrameState
  active : Array Handle
  deriving DecidableEq

namespace Frame

/-- The record of a call that is about to start. -/
def fresh (depth : Nat) : Frame := ⟨depth, .created, #[]⟩

def handles (f : Frame) : List Handle := f.active.toList

def holds (f : Frame) (h : Handle) : Bool := f.active.contains h

/-- The record with one more object held, at the end of the list unless it is held already. -/
def insert (f : Frame) (h : Handle) : Frame :=
  if f.holds h then f else { f with active := f.active.push h }

/-- The record with an object no longer held. -/
def remove (f : Frame) (h : Handle) : Frame := { f with active := f.active.erase h }

def clear (f : Frame) : Frame := { f with active := #[] }

def enter (f : Frame) (state : FrameState) : Frame := { f with state }

/-- The record of a call that has left the stack. -/
def retire (f : Frame) : Frame := f.clear.enter .popped

end Frame

end RootedHeap
