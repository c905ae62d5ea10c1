import RootedHeap.Workbench.Command

/-!
A workbench: one heap, one gate and the call stacks, with any number of allocators, on which each
part is used by itself. All requests come from the first thread; some make a new thread for a
moment. A request to a part that was never made answers nothing and changes nothing.
-/

namespace RootedHeap

/-- The parts of a machine, side by side. -/
structure Workbench where
  heap : Heap
  gate : Gate
  log : Array Entry
  calls : CallStacks
  allocators : Array Choice
  scopes : Array (Option Thread)
  guards : Array Bool
  nextThread : Thread

namespace Workbench

def withHeap (heap : Heap) : Workbench :=
  ⟨heap, .fresh, #[], .empty, #[], #[], #[], Thread.first + 1⟩

def arena {A : Type} (w : Workbench) (allocator : A) : Arena A :=
  ⟨allocator, w.heap, w.gate, w.log⟩

/-- The workbench with the heap, gate and log of an arena. -/
def withArena {A : Type} (w : Workbench) (arena : Arena A) : Workbench :=
  { w with heap := arena.heap, gate := arena.gate, log := arena.log }

/-- The answer of the gate to a request of thread `t`. -/
def askGate (w : Workbench) (t : Thread) : GateCommand → Answer GateReply × Workbench
  | .stop => (.ok .done, w.withArena ((w.arena ()).stop t))
  | .resume => (.ok .done, w.withArena ((w.arena ()).resume t))
  | .touch => (.ok .done, { w with gate := (w.gate.enter t).leave t })
  | .isStopped => (.ok (.flag (w.gate.heldBy t)), w)
  | .enumerate =>
    let roots := (w.arena ()).enumerate t w.calls
    (roots.map fun roots => .roots (roots.mergeSort (· ≤ ·)), w)
  | .threadCount => (.ok (.number w.calls.threadCount), w)
  | .observe => (.ok (.observed w.gate (w.gate.heldBy t)), w)

/-- The answers of the gate to several requests of thread `t`. -/
def askGateAll (w : Workbench) (t : Thread) : List GateCommand → List (Answer GateReply) × Workbench
  | [] => ([], w)
  | command :: rest =>
    let (answer, w) := w.askGate t command
    let (answers, w) := w.askGateAll t rest
    (answer :: answers, w)

/-- The answer to a question about an allocator. -/
def about (w : Workbench) (i : Nat) (reply : Choice → BenchReply) : Answer BenchReply × Workbench :=
  match w.allocators[i]? with
  | some allocator => (.ok (reply allocator), w)
  | none => (.ok .done, w)

/-- Runs an operation of an allocator. -/
def onAllocator {α : Type} (w : Workbench) (i : Nat) (reply : α → BenchReply)
    (operation : Arena Choice → Answer α × Arena Choice) : Answer BenchReply × Workbench :=
  match w.allocators[i]? with
  | some allocator =>
    let (answer, arena) := operation (w.arena allocator)
    (answer.map reply,
      { w.withArena arena with allocators := w.allocators.setIfInBounds i arena.allocator })
  | none => (.ok .done, w)

def changeFrame (w : Workbench) (f : FrameRef) (change : Frame → Frame) : Workbench :=
  { w with calls := w.calls.change f change }

def spawn (w : Workbench) : Thread × Workbench :=
  (w.nextThread, { w with nextThread := w.nextThread + 1 })

/-- Whether thread `t` gets through the gate without waiting, with a scope or with a stop. -/
def passes (w : Workbench) (t : Thread) (stops : Bool) : Bool :=
  w.gate.lets t && (!stops || w.gate.quiet t)

/-- The workbench after thread `t` went through the gate, with a scope or with a stop. -/
def through (w : Workbench) (t : Thread) (stops : Bool) : Workbench :=
  let commands := if stops then [.stop, .resume] else [GateCommand.touch]
  (w.askGateAll t commands).2

/-- The workbench after thread `t` went through the gate, if it gets through. -/
def tryThrough (w : Workbench) (t : Thread) (stops : Bool) : Bool × Workbench :=
  if w.passes t stops then (true, w.through t stops) else (false, w)

/-- A new thread goes through the gate, now or after this thread has resumed. -/
def elsewhereWaits (w : Workbench) (stops : Bool) : Answer BenchReply × Workbench :=
  let (other, w) := w.spawn
  let (before, w) := w.tryThrough other stops
  let (_, w) := w.askGate Thread.first .resume
  let (after, w) := if before then (true, w) else w.tryThrough other stops
  (.ok (.waited before after), w)

/-- This thread stops while a new thread is in a scope; its stop returns once the scope is left. -/
def stopWaits (w : Workbench) : Answer BenchReply × Workbench :=
  let (other, w) := w.spawn
  let inside := { w with gate := w.gate.enter other }
  let (_, closed) := inside.askGate Thread.first .stop
  let waited := !closed.gate.quiet Thread.first
  (.ok (.flag waited), { closed with gate := closed.gate.leave other })

/-- The answer of a workbench to a request, and the workbench after it. -/
def perform (w : Workbench) : BenchCommand → Answer BenchReply × Workbench
  | .cell h command =>
    match w.heap.perform h command with
    | .error fault => (.error fault, w)
    | .ok (reply, heap) => (.ok (.cell reply), { w with heap })
  | .gate command =>
    let (answer, w) := w.askGate Thread.first command
    (answer.map .gate, w)
  | .newAllocator strategy =>
    let allocator := Choice.ofConfig { CollectorConfig.standard with strategy }
    (.ok (.number w.allocators.size), { w with allocators := w.allocators.push allocator })
  | .bind i => w.onAllocator i (fun _ => .done) (Allocator.bind Thread.first)
  | .allocate i => w.onAllocator i .number (Allocator.allocate Thread.first w.calls)
  | .collect i => w.onAllocator i .number (Allocator.collect Thread.first w.calls)
  | .stats i => w.about i fun allocator => .stats allocator.stats
  | .name i => w.about i fun allocator => .text allocator.name
  | .free i => w.about i fun allocator => .number allocator.free
  | .phase i => w.about i fun allocator =>
    match allocator.phase? with
    | some phase => .text phase.name
    | none => .done
  | .layout i => w.about i fun allocator => .text allocator.layout
  | .register =>
    let (s, calls) := w.calls.register
    (.ok (.number (calls.stack s).id), { w with calls })
  | .unregister id =>
    let calls := w.calls.unregister id
    (.ok (.number calls.threadCount), { w with calls })
  | .newStack id => (.ok (.number id), { w with calls := (w.calls.addStack id).2 })
  | .push s =>
    let (f, calls) := w.calls.push s
    (.ok (.number f), { w with calls })
  | .pop s f =>
    let calls := w.calls.pop s f
    (.ok (.number (calls.depth s)), { w with calls })
  | .observeStack s =>
    (.ok (.stack (w.calls.stack s).id (w.calls.depth s) (w.calls.stackRoots s)), w)
  | .newFrame depth =>
    let (f, calls) := w.calls.addFrame (.fresh depth)
    (.ok (.number f), { w with calls })
  | .insert f h => (.ok (.flag !(w.calls.frame f).holds h), w.changeFrame f (·.insert h))
  | .remove f h => (.ok (.flag ((w.calls.frame f).holds h)), w.changeFrame f (·.remove h))
  | .contains f h => (.ok (.flag ((w.calls.frame f).holds h)), w)
  | .observeFrame f => (.ok (.frame (w.calls.frame f)), w)
  | .clearFrame f => (.ok .done, w.changeFrame f Frame.clear)
  | .setState f state => (.ok .done, w.changeFrame f (·.enter state))
  | .enter =>
    (.ok (.number w.scopes.size),
      { w with gate := w.gate.enter Thread.first, scopes := w.scopes.push (some Thread.first) })
  | .leave i =>
    match w.scopes[i]? with
    | some (some t) =>
      (.ok (.flag true),
        { w with gate := w.gate.leave t, scopes := w.scopes.setIfInBounds i none })
    | _ => (.ok (.flag false), w)
  | .pause =>
    let (_, stopped) := w.askGate Thread.first .stop
    (.ok (.number w.guards.size), { stopped with guards := w.guards.push true })
  | .guardRoots i =>
    if w.guards[i]?.getD false then
      let (answer, w) := w.askGate Thread.first .enumerate
      (answer.map .gate, w)
    else (.ok .done, w)
  | .guardLayout i =>
    let shown := if w.guards[i]?.getD false then some (Text.partOfRecord "PauseGuard" []) else none
    (.ok (.text (Text.option shown)), w)
  | .guardDrop i =>
    if w.guards[i]?.getD false then
      let (_, resumed) := w.askGate Thread.first .resume
      (.ok (.flag true), { resumed with guards := w.guards.setIfInBounds i false })
    else (.ok (.flag false), w)
  | .elsewhere commands =>
    let (other, w) := w.spawn
    let (answers, w) := w.askGateAll other commands
    (.ok (.elsewhere answers), w)
  | .elsewhereWaits stops => w.elsewhereWaits stops
  | .stopWaits => w.stopWaits

/-- The answers of a workbench to several requests in order. -/
def performAll (w : Workbench) : List BenchCommand → List (Answer BenchReply) × Workbench
  | [] => ([], w)
  | command :: rest =>
    let (answer, w) := w.perform command
    let (answers, w) := w.performAll rest
    (answer :: answers, w)

end Workbench

end RootedHeap
