import RootedHeap.Allocator.Basic

/-!
The machine: a heap under an allocator, the gate, the log, and the call stacks of all threads. An
environment names one frame on one stack; whoever has it acts for that call as long as the frame is
active.
-/

namespace RootedHeap

structure MachineConfig where
  /-- The greatest number of frames on one stack, beyond the entry frame. -/
  maxCallDepth : Nat
  trace : Bool
  deriving DecidableEq

namespace MachineConfig

def standard : MachineConfig := ⟨1024, false⟩

def layout (c : MachineConfig) : String :=
  Text.record "VMConfig"
    [("max_call_depth", toString c.maxCallDepth), ("trace_execution", toString c.trace)]

end MachineConfig

/-- A frame on a stack, as a program names it. -/
structure Env where
  stack : StackRef
  frame : FrameRef
  deriving DecidableEq

/-- The whole state. -/
structure Machine (A : Type) extends Arena A where
  calls : CallStacks
  config : MachineConfig

namespace Machine

variable {A : Type} {α : Type}

/-- A machine over a heap, whose allocator is bound to it here. -/
def build [Allocator A] (t : Thread) (heap : Heap) (allocator : A) (config : MachineConfig) :
    Answer (Machine A) :=
  match Allocator.bind t ⟨allocator, heap, .fresh, #[]⟩ with
  | (.error fault, _) => .error fault
  | (.ok _, arena) =>
    let ready := s!"vm ready: {heap.size - 1} cells x {heap.width} slots, allocator "
      ++ Allocator.name arena.allocator
    .ok { arena.note t .info ready with calls := .empty, config }

def frame (m : Machine A) (env : Env) : Frame := m.calls.frame env.frame

def changeFrame (m : Machine A) (env : Env) (change : Frame → Frame) : Machine A :=
  { m with calls := m.calls.change env.frame change }

/-- The machine after a frame came to hold an object. -/
def hold (m : Machine A) (env : Env) (h : Handle) : Machine A := m.changeFrame env (·.insert h)

def putWord (m : Machine A) (object : Handle) (slot : Nat) (word : Word) : Machine A :=
  { m with heap := m.heap.putWord object slot word }

def note (m : Machine A) (t : Thread) (level : Level) (text : String) : Machine A :=
  { m with toArena := m.toArena.note t level text }

/-- The machine with one more line in the log, if calls are traced. -/
def traced (m : Machine A) (t : Thread) (text : String) : Machine A :=
  if m.config.trace then m.note t .debug text else m

/-- An operation inside a scope of thread `t`. -/
def inScope (m : Machine A) (t : Thread) (operation : Machine A → α × Machine A) :
    α × Machine A :=
  let (answer, after) := operation { m with gate := m.gate.enter t }
  (answer, { after with gate := after.gate.leave t })

/-- Refuses a frame that is not active. -/
def checkActive (m : Machine A) (env : Env) : Answer Unit :=
  let frame := m.frame env
  if frame.state = .active then .ok () else .error (.inactiveFrame frame.depth)

/-- Refuses an object that a frame does not hold. -/
def checkHeld (m : Machine A) (env : Env) (h : Handle) : Answer Unit :=
  if (m.frame env).holds h then .ok () else .error (.notHeld h)

/-- An operation of an active frame, inside a scope of thread `t`. The plan looks at the machine and
gives the operation to carry out on it; one that is refused changes nothing. -/
def act (m : Machine A) (t : Thread) (env : Env)
    (plan : Machine A → Answer (Machine A → α × Machine A)) : Answer α × Machine A :=
  m.inScope t fun inside =>
    let planned := do
      inside.checkActive env
      plan inside
    match planned with
    | .error fault => (.error fault, inside)
    | .ok operation =>
      let (answer, after) := operation inside
      (.ok answer, after)

def roots (m : Machine A) (t : Thread) : Answer (List Handle) := m.toArena.enumerate t m.calls

def threadCount (m : Machine A) : Nat := m.calls.threadCount

/-- The structural view of an environment. -/
def envLayout (m : Machine A) (env : Env) : String :=
  let frame := m.frame env
  Text.record "FrameEnvironment"
    [("stack", toString (m.calls.stack env.stack).id), ("depth", toString frame.depth),
      ("state", frame.state.name), ("active", Text.list (frame.handles.map toString))]

def layout (m : Machine A) : String :=
  Text.partOfRecord "VM"
    [("heap_size", toString m.heap.size), ("cell_size", toString m.heap.width),
      ("threads", toString m.threadCount), ("config", m.config.layout)]

end Machine

end RootedHeap
