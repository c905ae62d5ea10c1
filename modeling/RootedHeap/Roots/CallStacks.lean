import RootedHeap.Roots.Frame

/-!
The call stacks of all threads. Frames and stacks are kept in tables, so a program may go on naming
a frame after it has left its stack. The roots of the machine are the active lists of all frames on
all registered stacks. Popping a frame takes every frame above it off too; each of them is retired.
-/

namespace RootedHeap

/-- The place of a frame in the table of frames. -/
abbrev FrameRef := Nat

/-- The place of a stack in the table of stacks. -/
abbrev StackRef := Nat

/-- A call stack: its number and its frames, the entry frame first. -/
structure Stack where
  id : Nat
  frames : List FrameRef
  deriving DecidableEq

/-- Every frame and stack ever made, and the stacks that are registered. -/
structure CallStacks where
  frames : Array Frame
  known : Array Stack
  registered : List StackRef
  nextId : Nat
  deriving DecidableEq

namespace CallStacks

def empty : CallStacks := ⟨#[], #[], [], 0⟩

/-- The record of a frame; a place where none was ever made reads as a retired one. -/
def frame (t : CallStacks) (f : FrameRef) : Frame := t.frames[f]?.getD (Frame.fresh 0).retire

/-- A stack; a place where none was ever made reads as an empty one. -/
def stack (t : CallStacks) (s : StackRef) : Stack := t.known[s]?.getD ⟨0, []⟩

def depth (t : CallStacks) (s : StackRef) : Nat := (t.stack s).frames.length

def change (t : CallStacks) (f : FrameRef) (edit : Frame → Frame) : CallStacks :=
  { t with frames := t.frames.modify f edit }

/-- The tables with one more frame, which is on no stack. -/
def addFrame (t : CallStacks) (frame : Frame) : FrameRef × CallStacks :=
  (t.frames.size, { t with frames := t.frames.push frame })

/-- The tables with one more empty stack, which is not registered. -/
def addStack (t : CallStacks) (id : Nat) : StackRef × CallStacks :=
  (t.known.size, { t with known := t.known.push ⟨id, []⟩ })

/-- A fresh registered stack, under a number that none had before. -/
def register (t : CallStacks) : StackRef × CallStacks :=
  let (s, t') := t.addStack t.nextId
  (s, { t' with registered := t'.registered ++ [s], nextId := t.nextId + 1 })

/-- The tables without the registered stack of that number. -/
def unregister (t : CallStacks) (id : Nat) : CallStacks :=
  { t with registered := t.registered.filter fun s => (t.stack s).id ≠ id }

/-- A fresh frame on top of a stack. -/
def push (t : CallStacks) (s : StackRef) : FrameRef × CallStacks :=
  let (f, t') := t.addFrame (Frame.fresh (t.depth s))
  (f, { t' with known := t'.known.modify s fun k => { k with frames := k.frames ++ [f] } })

/-- The tables with every frame of a list retired. -/
def retireAll (t : CallStacks) : List FrameRef → CallStacks
  | [] => t
  | f :: fs => (t.change f Frame.retire).retireAll fs

/-- The tables after a frame, and all above it, have left a stack. A frame that is not on the stack
changes nothing. -/
def pop (t : CallStacks) (s : StackRef) (f : FrameRef) : CallStacks :=
  let frames := (t.stack s).frames
  let below := frames.takeWhile (· ≠ f)
  { t with known := t.known.modify s fun k => { k with frames := below } }.retireAll
    (frames.dropWhile (· ≠ f))

def threadCount (t : CallStacks) : Nat := t.registered.length

/-- The objects that the frames of a stack hold. -/
def stackRoots (t : CallStacks) (s : StackRef) : List Handle :=
  (t.stack s).frames.flatMap fun f => (t.frame f).handles

/-- The objects that the frames of all registered stacks hold, one entry each time one is held. -/
def roots (t : CallStacks) : List Handle := t.registered.flatMap t.stackRoots

end CallStacks

end RootedHeap
