import RootedHeap.Allocator.Basic
import RootedHeap.Allocator.Marking

/-!
Mark and sweep under a stop. Free cells wait in a list, lowest handle first. When it runs dry, or on
request, the allocator closes the gate, marks all that the roots reach, puts every cell that was
handed out and not marked back into the list, and opens the gate again.

How long a pause takes is not the allocator's to decide: `clock n` is what the clock will say of the
pause of the collection after the first `n`.
-/

namespace RootedHeap

/-- What a collector is doing. -/
inductive Phase where
  | idle | marking | sweeping
  deriving DecidableEq

namespace Phase

def name : Phase → String
  | .idle => "Idle"
  | .marking => "Marking"
  | .sweeping => "Sweeping"

end Phase

structure MarkSweep where
  binding : Option Binding
  free : List Handle
  /-- For each handle, whether it was handed out and not yet swept. -/
  allocated : Array Bool
  marks : Marks
  phase : Phase
  stats : Stats
  maxPause : Duration
  clock : Nat → Duration

namespace MarkSweep

def fresh (maxPause : Duration) : MarkSweep :=
  ⟨none, [], #[], #[], .idle, .none, maxPause, fun _ => .zero⟩

def freeCells (m : MarkSweep) : Nat := m.free.length

/-- Whether a cell was handed out and not yet swept. -/
def hasAllocated (m : MarkSweep) (h : Handle) : Bool := m.allocated[h]?.getD false

/-- Binds the allocator to the heap, all of whose cells are free then. -/
def bind (t : Thread) (a : Arena MarkSweep) : Answer Unit × Arena MarkSweep :=
  match a.allocator.binding with
  | some _ => (.error (.invalidState .alreadyBound), a)
  | none =>
    let size := a.heap.size
    let m := { a.allocator with
      binding := some ⟨size, a.heap.width⟩
      free := a.heap.handles
      allocated := Array.replicate size false
      marks := Marks.none size }
    (.ok (), (a.withAllocator m).note t .debug s!"mark-sweep initialized over {size - 1} cells")

/-- Marks all that the roots reach. -/
def mark (m : MarkSweep) (heap : Heap) (roots : List Handle) : MarkSweep :=
  { m with phase := .marking, marks := heap.mark roots (Marks.none m.marks.size) }

/-- The cells that were handed out and are not marked, lowest first. -/
def dead (m : MarkSweep) (heap : Heap) : List Handle :=
  heap.handles.filter fun h => m.hasAllocated h && !m.marks.has h

/-- Puts the dead cells back among the free ones. -/
def sweep (m : MarkSweep) (heap : Heap) : MarkSweep :=
  let dead := m.dead heap
  { m with
    phase := .sweeping
    free := m.free.merge dead
    allocated := dead.foldl (fun flags h => flags.setIfInBounds h false) m.allocated }

/-- What a collection found. -/
structure Yield where
  live : Nat
  reclaimed : Nat

/-- One cycle over the roots, if they could be had; without them nothing is collected. -/
def cycle (m : MarkSweep) (heap : Heap) : Answer (List Handle) → Answer Yield × MarkSweep
  | .error fault => (.error fault, { m with phase := .idle })
  | .ok roots =>
    let marked := m.mark heap roots
    let found := ⟨marked.marks.present, (marked.dead heap).length⟩
    (.ok found, { marked.sweep heap with phase := .idle })

def count (m : MarkSweep) (found : Yield) : MarkSweep :=
  { m with stats := m.stats.countCollection (m.clock m.stats.collections) found.reclaimed }

/-- Logs a collection that has just been counted. -/
def report (a : Arena MarkSweep) (t : Thread) (found : Yield) : Arena MarkSweep :=
  let stats := a.allocator.stats
  let a' := a.note t .info
    (s!"collection #{stats.collections}: {found.live} live, {found.reclaimed} reclaimed, pause "
      ++ stats.lastPause.text)
  if a.allocator.maxPause.nanos < stats.lastPause.nanos then
    a'.note t .warn
      ("pause " ++ stats.lastPause.text ++ " exceeded limit " ++ a.allocator.maxPause.text)
  else a'

/-- A collection under a stop. -/
def collect (t : Thread) (calls : CallStacks) (a : Arena MarkSweep) :
    Answer Nat × Arena MarkSweep :=
  match a.allocator.binding with
  | none => (.error (.invalidState .unbound), a)
  | some _ =>
    let stopped := a.stop t
    let (found, m) := stopped.allocator.cycle stopped.heap (stopped.enumerate t calls)
    let resumed := (stopped.withAllocator m).resume t
    match found with
    | .error fault => (.error fault, resumed)
    | .ok found =>
      (.ok found.reclaimed, report (resumed.withAllocator (resumed.allocator.count found)) t found)

/-- Hands out the lowest free cell, cleared. -/
def take (t : Thread) (a : Arena MarkSweep) : Answer Handle × Arena MarkSweep :=
  match a.allocator.free with
  | [] =>
    (.error .outOfMemory,
      a.note t .warn s!"out of memory after collection #{a.allocator.stats.collections}")
  | h :: free =>
    match a.heap.cell h with
    | .error fault => (.error fault, a.withAllocator { a.allocator with free })
    | .ok _ =>
      let allocator :=
        { a.allocator with
          free
          allocated := a.allocator.allocated.setIfInBounds h true
          stats := a.allocator.stats.countAllocation }
      (.ok h, { a with heap := a.heap.clear h, allocator })

/-- Hands out a cell, after a collection if none is free. -/
def allocate (t : Thread) (calls : CallStacks) (a : Arena MarkSweep) :
    Answer Handle × Arena MarkSweep :=
  match a.allocator.binding with
  | none => (.error (.invalidState .unbound), a)
  | some _ =>
    if a.allocator.free.isEmpty then
      match collect t calls a with
      | (.error fault, a') => (.error fault, a')
      | (.ok _, a') => take t a'
    else take t a

/-- The structural view of the allocator; its free list is shown in the order of its stack, the next
cell last. -/
def layout (m : MarkSweep) : String :=
  Text.record "MarkSweepAllocator"
    [("binding", Text.option (m.binding.map Binding.layout)),
      ("free", Text.list (m.free.reverse.map toString)),
      ("allocated", Text.list (m.allocated.toList.map toString)),
      ("marks", Text.list (m.marks.toList.map toString)), ("state", m.phase.name),
      ("stats", m.stats.layout), ("max_pause", m.maxPause.text)]

end MarkSweep

instance : Allocator MarkSweep where
  name _ := "mark-sweep"
  bind := MarkSweep.bind
  allocate := MarkSweep.allocate
  collect := MarkSweep.collect
  stats := MarkSweep.stats

end RootedHeap
