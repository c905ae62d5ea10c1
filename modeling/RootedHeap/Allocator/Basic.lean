import RootedHeap.Heap.Basic
import RootedHeap.Roots.CallStacks
import RootedHeap.Roots.Gate
import RootedHeap.Duration

/-!
What an allocator is. It is bound to a heap once, then hands out cells, and may collect. It reads
the call stacks only to enumerate roots, and it may change its own state, the heap's cells, the gate
and the log; these are its `Arena`. Frames are out of its reach.
-/

namespace RootedHeap

structure Stats where
  allocations : Nat
  collections : Nat
  reclaimed : Nat
  totalPause : Duration
  lastPause : Duration
  deriving DecidableEq

namespace Stats

def none : Stats := ⟨0, 0, 0, .zero, .zero⟩

def countAllocation (s : Stats) : Stats := { s with allocations := s.allocations + 1 }

/-- One more collection, its length and its yield. -/
def countCollection (s : Stats) (pause : Duration) (reclaimed : Nat) : Stats :=
  { s with
    collections := s.collections + 1
    reclaimed := s.reclaimed + reclaimed
    totalPause := s.totalPause.add pause
    lastPause := pause }

def layout (s : Stats) : String :=
  Text.record "GCStats"
    [("allocations", toString s.allocations), ("collections", toString s.collections),
      ("reclaimed", toString s.reclaimed), ("total_pause", s.totalPause.text),
      ("last_pause", s.lastPause.text)]

end Stats

structure Binding where
  size : Nat
  width : Nat
  deriving DecidableEq

namespace Binding

def layout (b : Binding) : String :=
  Text.partOfRecord "Binding" [("heap_size", toString b.size), ("cell_size", toString b.width)]

end Binding

/-- What an allocator may change. -/
structure Arena (A : Type) where
  allocator : A
  heap : Heap
  gate : Gate
  log : Array Entry

namespace Arena

variable {A : Type}

def note (a : Arena A) (t : Thread) (level : Level) (text : String) : Arena A :=
  { a with log := a.log.push ⟨t, level, text⟩ }

def stop (a : Arena A) (t : Thread) : Arena A := { a with gate := a.gate.close t }

/-- The arena after a resume by thread `t`. One that matches no stop leaves a warning only. -/
def resume (a : Arena A) (t : Thread) : Arena A :=
  match a.gate.resume? t with
  | some gate => { a with gate }
  | none => a.note t .warn s!"resume without matching stop on thread {t}"

/-- The roots, for a thread that holds the stop. -/
def enumerate (a : Arena A) (t : Thread) (calls : CallStacks) : Answer (List Handle) :=
  if a.gate.heldBy t then .ok calls.roots else .error .unstoppedRootScan

def withAllocator {B : Type} (a : Arena A) (allocator : B) : Arena B := { a with allocator }

end Arena

/-- A strategy that hands out cells. -/
class Allocator (A : Type) where
  name : A → String
  bind : Thread → Arena A → Answer Unit × Arena A
  allocate : Thread → CallStacks → Arena A → Answer Handle × Arena A
  /-- Collects, and says how many cells came free. A strategy that never collects frees none. -/
  collect : Thread → CallStacks → Arena A → Answer Nat × Arena A := fun _ _ a => (.ok 0, a)
  stats : A → Stats := fun _ => .none

end RootedHeap
