import RootedHeap.Assignment
import RootedHeap.Heap.Command
import RootedHeap.Machine.Calls
import RootedHeap.Machine.Objects

/-!
The single steps that mutator programs are made of. An action names one step; `Action.Reply` is the
type of what it answers, and `World.perform` what it does. Besides the machine a world holds what
programs share and report: environments kept under a name, and a transcript.
-/

namespace RootedHeap

/-- What an operation in a transcript answered. -/
inductive Observation where
  | nothing
  | number (n : Int)
  | flag (b : Bool)
  | handles (hs : List Handle)
  | text (s : String)
  | stats (s : Stats)
  | cell (reply : Answer CellReply)

inductive Outcome where
  | finished (result : Answer Word)
  | panicked

inductive Event where
  | entered (depth : Nat) (args : List Word) (active : List Handle)
  | did (operation : String) (answer : Answer Observation)
  | exited (outcome : Outcome)

/-- One step of a program. -/
inductive Action where
  | newObject (env : Env)
  | getReference (env : Env) (object : Handle) (slot : Nat)
  | getData (env : Env) (object : Handle) (slot : Nat)
  | setReference (env : Env) (object : Handle) (slot : Nat) (target : Handle)
  | setData (env : Env) (object : Handle) (slot : Nat) (word : Word)
  | release (env : Env) (object : Handle)
  | beginCall (caller : Env) (name : String) (args : List Word)
  | endCall (caller callee : Env) (outcome : Answer Word)
  | abandonCall (callee : Env)
  | beginRun (name : String) (args : List Word)
  | endRun (entry : Env) (outcome : Answer Word)
  | abandonRun (entry : Env)
  | collect
  | stop
  | resume
  | roots
  | frame (env : Env)
  | envLayout (env : Env)
  | stats
  | threadCount
  | pauses
  | width
  | handles
  /-- A request to a cell, past all frames. -/
  | cell (h : Handle) (command : CellCommand)
  | note (level : Level) (text : String)
  | keep (name : String) (env : Env)
  | kept (name : String)
  | report (event : Event)
  /-- Gives other threads a turn. -/
  | turn

/-- What an action answers. -/
abbrev Action.Reply : Action → Type
  | .newObject _ | .getReference .. => Answer Handle
  | .getData .. => Answer Word
  | .setReference .. | .setData .. | .release .. => Answer Unit
  | .beginCall .. | .beginRun .. => Answer Env
  | .endCall .. | .endRun .. => Answer Word
  | .abandonCall _ | .abandonRun _ | .stop | .resume => Unit
  | .collect => Answer Nat
  | .roots => Answer (List Handle)
  | .frame _ => Frame
  | .envLayout _ => String
  | .stats => Stats
  | .threadCount | .pauses | .width => Nat
  | .handles => List Handle
  | .cell .. => Answer CellReply
  | .kept _ => Option Env
  | .note .. | .keep .. | .report _ | .turn => Unit

/-- A machine and what the programs on it share and report. -/
structure World (A : Type) where
  machine : Machine A
  kept : Assignment String Env
  transcript : Array (Thread × Event)
  nextThread : Thread

namespace World

variable {A : Type} [Allocator A]

def around (machine : Machine A) : World A := ⟨machine, [], #[], Thread.first + 1⟩

def onMachine {α : Type} (w : World A) (operation : Machine A → α × Machine A) : α × World A :=
  let (answer, machine) := operation w.machine
  (answer, { w with machine })

def changing (w : World A) (change : Machine A → Machine A) : Unit × World A :=
  ((), { w with machine := change w.machine })

/-- What an action of thread `t` answers, and the world after it. -/
def perform (t : Thread) (w : World A) : (action : Action) → action.Reply × World A
  | .newObject env => w.onMachine (Machine.newObject t env)
  | .getReference env object slot => w.onMachine (Machine.getReference t env object slot)
  | .getData env object slot => w.onMachine (Machine.getData t env object slot)
  | .setReference env object slot target =>
    w.onMachine (Machine.setReference t env object slot target)
  | .setData env object slot word => w.onMachine (Machine.setData t env object slot word)
  | .release env object => w.onMachine (Machine.release t env object)
  | .beginCall caller name args => w.onMachine (Machine.beginCall t caller name args)
  | .endCall caller callee outcome => w.onMachine (Machine.endCall t caller callee outcome)
  | .abandonCall callee => w.changing (Machine.abandonCall callee)
  | .beginRun name args => w.onMachine (Machine.beginRun t name args)
  | .endRun entry outcome => w.onMachine (Machine.endRun t entry outcome)
  | .abandonRun entry => w.changing (Machine.abandonRun entry)
  | .collect => w.onMachine (Machine.collect t)
  | .stop => w.changing (Machine.stop t)
  | .resume => w.changing (Machine.resume t)
  | .roots => (w.machine.roots t, w)
  | .frame env => (w.machine.frame env, w)
  | .envLayout env => (w.machine.envLayout env, w)
  | .stats => (Allocator.stats w.machine.allocator, w)
  | .threadCount => (w.machine.threadCount, w)
  | .pauses => (w.machine.gate.pauses, w)
  | .width => (w.machine.heap.width, w)
  | .handles => (w.machine.heap.handles, w)
  | .cell h command => w.onMachine fun m =>
    match m.heap.perform h command with
    | .error fault => (.error fault, m)
    | .ok (reply, heap) => (.ok reply, { m with heap })
  | .note level text => w.changing fun m => m.note t level text
  | .keep name env => ((), { w with kept := w.kept.set name env })
  | .kept name => (w.kept.lookup name, w)
  | .report event => ((), { w with transcript := w.transcript.push (t, event) })
  | .turn => ((), w)

end World

end RootedHeap
