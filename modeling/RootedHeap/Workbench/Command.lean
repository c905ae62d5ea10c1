import RootedHeap.Allocator.Choice
import RootedHeap.Heap.Command

/-!
Requests to the parts of a machine one at a time, as data, and what each of them answers.
Allocators, stacks, frames, scopes and guards are made by requests and named by the order in which
they were made.
-/

namespace RootedHeap

/-- A request to the gate, from any thread. -/
inductive GateCommand where
  | stop
  | resume
  | touch
  | isStopped
  | enumerate
  | threadCount
  | observe

inductive GateReply where
  | done
  | flag (b : Bool)
  | number (n : Nat)
  | roots (hs : List Handle)
  | observed (gate : Gate) (mine : Bool)

/-- A request to a workbench. -/
inductive BenchCommand where
  | cell (h : Handle) (command : CellCommand)
  | gate (command : GateCommand)
  | newAllocator (strategy : Strategy)
  | bind (allocator : Nat)
  | allocate (allocator : Nat)
  | collect (allocator : Nat)
  | stats (allocator : Nat)
  | name (allocator : Nat)
  | free (allocator : Nat)
  | phase (allocator : Nat)
  | layout (allocator : Nat)
  | register
  | unregister (id : Nat)
  | newStack (id : Nat)
  | push (stack : StackRef)
  | pop (stack : StackRef) (frame : FrameRef)
  | observeStack (stack : StackRef)
  | newFrame (depth : Nat)
  | insert (frame : FrameRef) (h : Handle)
  | remove (frame : FrameRef) (h : Handle)
  | contains (frame : FrameRef) (h : Handle)
  | observeFrame (frame : FrameRef)
  | clearFrame (frame : FrameRef)
  | setState (frame : FrameRef) (state : FrameState)
  | enter
  | leave (scope : Nat)
  | pause
  | guardRoots (guard : Nat)
  | guardLayout (guard : Nat)
  | guardDrop (guard : Nat)
  | elsewhere (commands : List GateCommand)
  /-- A new thread passes the gate, or stops and resumes, while this thread holds the stop; then
  this thread resumes. -/
  | elsewhereWaits (stops : Bool)
  /-- This thread stops while a new thread has a scope open, which it leaves soon. -/
  | stopWaits

inductive BenchReply where
  | done
  | cell (reply : CellReply)
  | gate (reply : GateReply)
  | number (n : Nat)
  | flag (b : Bool)
  | text (s : String)
  | stats (s : Stats)
  | stack (id depth : Nat) (roots : List Handle)
  | frame (f : Frame)
  | elsewhere (replies : List (Answer GateReply))
  /-- Whether the new thread had got through before this thread resumed, and after. -/
  | waited (before after : Bool)

end RootedHeap
