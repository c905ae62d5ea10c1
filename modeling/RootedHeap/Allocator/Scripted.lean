import RootedHeap.Allocator.Basic

/-!
An allocator that answers from a script, whatever the heap looks like: with any handle, with a
fault, or after writing any words to any slots. It stands for every faulty strategy that could be
plugged in.
-/

namespace RootedHeap

inductive ScriptEntry where
  | give (h : Handle)
  | countRoots
  | refuse (fault : Fault)
  /-- This handle, after raw writes to cells and slots. -/
  | scribble (writes : List (Handle × Nat × Word)) (h : Handle)

/-- An allocator that answers from a script. -/
structure Scripted where
  bindFault : Option Fault
  script : List ScriptEntry

namespace Scripted

/-- Raw writes in order. The first that is refused ends them; the ones before it stay. -/
def writeAll (heap : Heap) : List (Handle × Nat × Word) → Answer Unit × Heap
  | [] => (.ok (), heap)
  | (h, slot, word) :: rest =>
    match heap.write h slot word with
    | .error fault => (.error fault, heap)
    | .ok heap' => writeAll heap' rest

/-- Binds the allocator, or fails as the script says. -/
def bind (_ : Thread) (a : Arena Scripted) : Answer Unit × Arena Scripted :=
  match a.allocator.bindFault with
  | some fault => (.error fault, a)
  | none => (.ok (), a)

/-- Answers with the next entry of the script; without one, memory is out. -/
def allocate (t : Thread) (calls : CallStacks) (a : Arena Scripted) :
    Answer Handle × Arena Scripted :=
  match a.allocator.script with
  | [] => (.error .outOfMemory, a)
  | entry :: script =>
    let a := a.withAllocator { a.allocator with script }
    match entry with
    | .give h => (.ok h, a)
    | .countRoots => ((a.enumerate t calls).map List.length, a)
    | .refuse fault => (.error fault, a)
    | .scribble writes h =>
      let (written, heap) := writeAll a.heap writes
      (written.map fun _ => h, { a with heap })

end Scripted

instance : Allocator Scripted where
  name _ := "scripted"
  bind := Scripted.bind
  allocate := Scripted.allocate

end RootedHeap
