import Mathlib.Tactic.IntervalCases
import RootedHeap.Machine.Objects
import RootedHeap.Proofs.Bookkeeping
import RootedHeap.Proofs.Worklists

/-!
What a collection of mark and sweep does, to the cell. Whatever is in the heap and whatever the
roots are, a cell has a mark afterwards exactly if the roots find it, the free list has grown by
exactly the cells that were handed out and are not found, and a second collection over the same
finds nothing to do. The roots come from a `RootList`, which may be anything that can be stopped,
asked and resumed; `MarkSweep.collect` is the collection over the call stacks.
-/

namespace RootedHeap

/-- What a collector asks of whoever knows the roots, and what becomes of that one's own state. -/
structure RootList (R : Type) where
  stop : R → R
  enumerate : R → Answer (List Handle) × R
  resume : R → R

/-- The call stacks behind the gate, as thread `t` asks for the roots. -/
def CallStacks.rootList (calls : CallStacks) (t : Thread) : RootList (Arena Unit) where
  stop a := a.stop t
  enumerate a := (a.enumerate t calls, a)
  resume a := a.resume t

namespace MarkSweep

variable {m m' : MarkSweep} {heap : Heap} {roots : List Handle} {h : Handle} {size : Nat}

/-- A collection over the roots of a root list. -/
def collectOver {R : Type} (list : RootList R) (m : MarkSweep) (heap : Heap) (r : R) :
    Answer Yield × MarkSweep × R :=
  match m.binding with
  | none => (.error (.invalidState .unbound), m, r)
  | some _ =>
    let (roots, r) := list.enumerate (list.stop r)
    match m.cycle heap roots with
    | (.error fault, m) => (.error fault, m, list.resume r)
    | (.ok found, m) => (.ok found, m.count found, list.resume r)

/-- A collection of a machine is one over the call stacks, with a line in the log. -/
theorem collect_eq_collectOver (t : Thread) (calls : CallStacks) (a : Arena MarkSweep) :
    collect t calls a =
      match collectOver (calls.rootList t) a.allocator a.heap (a.withAllocator ()) with
      | (.error fault, m, r) => (.error fault, r.withAllocator m)
      | (.ok found, m, r) => (.ok found.reclaimed, report (r.withAllocator m) t found) := by
  unfold collect collectOver
  rcases hbinding : a.allocator.binding with _ | binding
  · rfl
  · have hroots : (a.stop t).enumerate t calls =
        ((calls.rootList t).enumerate ((calls.rootList t).stop (a.withAllocator ()))).1 := rfl
    have hresume : ∀ m : MarkSweep, ((a.stop t).withAllocator m).resume t =
        ((calls.rootList t).resume ((calls.rootList t).enumerate
          ((calls.rootList t).stop (a.withAllocator ()))).2).withAllocator m := by
      intro m
      simp only [CallStacks.rootList, Arena.resume, Arena.stop, Arena.withAllocator]
      cases (a.gate.close t).resume? t <;> rfl
    have hcycle : (a.stop t).allocator.cycle (a.stop t).heap ((a.stop t).enumerate t calls) =
        a.allocator.cycle a.heap
          ((calls.rootList t).enumerate ((calls.rootList t).stop (a.withAllocator ()))).1 := by
      rw [← hroots]
      rfl
    simp only [hcycle, hresume]
    rcases a.allocator.cycle a.heap _ with ⟨fault | found, m⟩
    · rfl
    · rfl

/-! ### What the books must say -/

/-- Whether free list and flags divide the cells of a heap of `size` handles among them. -/
structure Divides (m : MarkSweep) (size : Nat) : Prop where
  bound : m.binding.isSome
  marks : m.marks.size = size
  flags : m.allocated.size = size
  once : m.free.Nodup
  free_iff : ∀ h, h ∈ m.free ↔ 1 ≤ h ∧ h < size ∧ m.hasAllocated h = false
  flagged : m.hasAllocated Handle.null = false

theorem Fits.divides (hm : m.Fits size) : m.Divides size where
  bound := hm.bound
  marks := hm.marks
  flags := hm.flags
  once := hm.sorted.imp Nat.ne_of_lt
  free_iff h := by rw [hm.free_iff, Nat.one_le_iff_ne_zero]
  flagged := by
    by_contra hflag
    exact hm.flagged Handle.null (by simpa using hflag) rfl

theorem Divides.contains (hm : m.Divides heap.size) (hflag : m.hasAllocated h = true) :
    heap.contains h = true := by
  refine Heap.contains_iff.2 ⟨?_, ?_⟩
  · rintro rfl
    have hnull : m.hasAllocated 0 = false := hm.flagged
    rw [hnull] at hflag
    cases hflag
  · refine Nat.lt_of_not_le fun hle => ?_
    have hout : m.allocated[h]? = none := Array.getElem?_eq_none (hm.flags ▸ hle)
    simp [hasAllocated, hout] at hflag

/-! ### One collection -/

/-- What a collection over the roots makes of the allocator, and what it has found. -/
structure Exact (heap : Heap) (roots : List Handle) (m : MarkSweep) (found : Yield)
    (m' : MarkSweep) : Prop where
  traced : heap.trace roots m.marks = some (found.live, m'.marks)
  inRange : ∀ h ∈ heap.handles, h < m.allocated.size ∧ h < m'.marks.size
  marked : ∀ h, m'.marks[h]? = some true ↔ heap.Finds roots h
  live : ∃ cells : List Handle, cells.Nodup ∧ (∀ h, h ∈ cells ↔ heap.Finds roots h) ∧
    found.live = cells.length
  swept : ∃ dead : List Handle, dead.Nodup ∧
    (∀ h, h ∈ dead ↔ m.hasAllocated h = true ∧ ¬ heap.Finds roots h) ∧
    m'.free.Perm (m.free ++ dead) ∧ found.reclaimed = dead.length
  flags : ∀ h, m'.hasAllocated h = true ↔ m.hasAllocated h = true ∧ heap.Finds roots h
  divides : m'.Divides heap.size
  sorted : m.free.Pairwise (· < ·) → m'.free.Pairwise (· < ·)
  idle : m'.phase = .idle
  stats : m'.stats = m.stats.countCollection (m.clock m.stats.collections) found.reclaimed

theorem has_mark (hm : m.Divides heap.size) :
    (m.mark heap roots).marks.has h = true ↔ heap.Finds roots h := by
  rw [mark, hm.marks, Heap.has_mark_iff, Heap.finds_iff]

theorem mem_dead_mark (hm : m.Divides heap.size) :
    h ∈ (m.mark heap roots).dead heap ↔ m.hasAllocated h = true ∧ ¬ heap.Finds roots h := by
  rw [mem_dead_iff, ← Bool.not_eq_true, has_mark hm]
  constructor
  · rintro ⟨-, hflag, hlost⟩
    exact ⟨hflag, hlost⟩
  · rintro ⟨hflag, hlost⟩
    exact ⟨hm.contains hflag, hflag, hlost⟩

theorem nodup_dead : (m.dead heap).Nodup := List.Nodup.filter _ List.nodup_range'

theorem hasAllocated_collected (hm : m.Divides heap.size) :
    (m.collected heap roots).hasAllocated h = true ↔
      m.hasAllocated h = true ∧ heap.Finds roots h := by
  have hswept : (m.collected heap roots).hasAllocated h = true ↔
      m.hasAllocated h = true ∧ h ∉ (m.mark heap roots).dead heap := hasAllocated_sweep
  rw [hswept, mem_dead_mark hm]
  tauto

theorem free_collected :
    (m.collected heap roots).free.Perm (m.free ++ (m.mark heap roots).dead heap) :=
  List.merge_perm_append _

/-- The cells are still divided after a collection. -/
theorem Divides.collected (hm : m.Divides heap.size) :
    (m.collected heap roots).Divides heap.size where
  bound := hm.bound
  marks := by
    show (m.mark heap roots).marks.size = heap.size
    rw [mark, Heap.size_mark, Marks.none, Array.size_replicate, hm.marks]
  flags := size_foldl_unset.trans hm.flags
  once := by
    refine free_collected.nodup_iff.2 (List.nodup_append.2 ⟨hm.once, nodup_dead, ?_⟩)
    rintro h hfree _ hdead rfl
    have hflag := ((mem_dead_mark hm).1 hdead).1
    simp [((hm.free_iff h).1 hfree).2.2] at hflag
  free_iff h := by
    rw [free_collected.mem_iff, List.mem_append, hm.free_iff, mem_dead_mark hm,
      ← Bool.not_eq_true ((m.collected heap roots).hasAllocated h), hasAllocated_collected hm]
    constructor
    · rintro (⟨hpos, hlt, hflag⟩ | ⟨hflag, hlost⟩)
      · exact ⟨hpos, hlt, by simp [hflag]⟩
      · obtain ⟨h0, hlt⟩ := Heap.contains_iff.1 (hm.contains hflag)
        exact ⟨Nat.one_le_iff_ne_zero.2 h0, hlt, fun hkept => hlost hkept.2⟩
    · rintro ⟨hpos, hlt, hkept⟩
      by_cases hflag : m.hasAllocated h = true
      · exact .inr ⟨hflag, fun hfound => hkept ⟨hflag, hfound⟩⟩
      · exact .inl ⟨hpos, hlt, by simpa using hflag⟩
  flagged := by
    by_contra hflag
    have hset : (m.collected heap roots).hasAllocated Handle.null = true := by simpa using hflag
    have hkept := (hasAllocated_collected hm).1 hset
    rw [hm.flagged] at hkept
    cases hkept.1

theorem exact_collected (hm : m.Divides heap.size) (roots : List Handle) :
    Exact heap roots m (m.found heap roots) (m.collected heap roots) := by
  have hsize : (m.mark heap roots).marks.size = heap.size := hm.collected.marks
  refine ⟨?_, ?_, ?_, ?_, ?_, fun h => hasAllocated_collected hm, hm.collected, ?_, rfl, rfl⟩
  · rw [Heap.trace_eq hm.marks, ← hm.marks]
    rfl
  · intro h hh
    have hlt := (Heap.contains_iff.1 (Heap.mem_handles_iff.1 hh)).2
    exact ⟨hm.flags ▸ hlt, hm.collected.marks ▸ hlt⟩
  · intro h
    have hhas : (m.collected heap roots).marks.has h = true ↔ heap.Finds roots h := has_mark hm
    rw [← hhas, Marks.has]
    cases (m.collected heap roots).marks[h]? <;> simp
  · obtain ⟨cells, hnodup, hcells, hcount⟩ := (m.mark heap roots).marks.present_eq_length
    exact ⟨cells, hnodup, fun h => (hcells h).trans (has_mark hm), hcount⟩
  · exact ⟨_, nodup_dead, fun h => mem_dead_mark hm, free_collected, rfl⟩
  · intro hsorted
    refine pairwise_lt_merge hsorted (List.Pairwise.filter _ List.pairwise_lt_range') ?_
    intro h hfree hdead
    have hflag := ((mem_dead_mark hm).1 hdead).1
    simp [((hm.free_iff h).1 hfree).2.2] at hflag

/-- A collection right after another, over the same heap and roots, finds nothing to do. -/
theorem Exact.again {found : Yield} (hexact : Exact heap roots m found m') :
    (m'.found heap roots).reclaimed = 0 ∧ (m'.collected heap roots).free = m'.free ∧
      (m'.collected heap roots).allocated = m'.allocated := by
  have hdead : (m'.mark heap roots).dead heap = [] := by
    refine List.eq_nil_iff_forall_not_mem.2 fun h hh => ?_
    obtain ⟨hflag, hlost⟩ := (mem_dead_mark hexact.divides).1 hh
    exact hlost ((hexact.flags h).1 hflag).2
  refine ⟨?_, ?_, ?_⟩
  · show ((m'.mark heap roots).dead heap).length = 0
    simp [hdead]
  · show m'.free.merge ((m'.mark heap roots).dead heap) = m'.free
    simp [hdead]
  · show ((m'.mark heap roots).dead heap).foldl _ m'.allocated = m'.allocated
    simp [hdead]

theorem collectOver_ok {R : Type} {list : RootList R} {r r' : R} (hbound : m.binding.isSome)
    (hroots : list.enumerate (list.stop r) = (.ok roots, r')) :
    collectOver list m heap r =
      (.ok (m.found heap roots), m.collected heap roots, list.resume r') := by
  obtain ⟨binding, hbinding⟩ := Option.isSome_iff_exists.1 hbound
  simp only [collectOver, hbinding, hroots, cycle]
  rfl

theorem collectOver_error {R : Type} {list : RootList R} {r r' : R} {fault : Fault}
    (hbound : m.binding.isSome) (hroots : list.enumerate (list.stop r) = (.error fault, r')) :
    collectOver list m heap r = (.error fault, { m with phase := .idle }, list.resume r') := by
  obtain ⟨binding, hbinding⟩ := Option.isSome_iff_exists.1 hbound
  simp only [collectOver, hbinding, hroots, cycle]

/-! ### The whole of it -/

/-- What is said of collections over a root list: with roots they are exact and done once and for
all, without roots they leave the books as they were; either way what was stopped is resumed. -/
structure CollectsExactly {R : Type} (list : RootList R) (m : MarkSweep) (heap : Heap) (r : R) :
    Prop where
  ok : ∀ roots r', list.enumerate (list.stop r) = (.ok roots, r') →
    ∃ found m', collectOver list m heap r = (.ok found, m', list.resume r') ∧
      Exact heap roots m found m' ∧
      ∀ s s', list.enumerate (list.stop s) = (.ok roots, s') →
        ∃ again m'', collectOver list m' heap s = (.ok again, m'', list.resume s') ∧
          again.reclaimed = 0 ∧ m''.free = m'.free ∧ m''.allocated = m'.allocated
  error : ∀ fault r', list.enumerate (list.stop r) = (.error fault, r') →
    ∃ m', collectOver list m heap r = (.error fault, m', list.resume r') ∧ m'.free = m.free ∧
      m'.allocated = m.allocated ∧ m'.stats = m.stats ∧ m'.phase = .idle

theorem Divides.collectsExactly {R : Type} (hm : m.Divides heap.size) (list : RootList R) (r : R) :
    CollectsExactly list m heap r where
  ok roots r' hroots := by
    have hexact := exact_collected hm roots
    refine ⟨_, _, collectOver_ok hm.bound hroots, hexact, fun s s' hagain => ?_⟩
    exact ⟨_, _, collectOver_ok hexact.divides.bound hagain, hexact.again⟩
  error fault r' hroots := ⟨_, collectOver_error hm.bound hroots, rfl, rfl, rfl, rfl⟩

/-- What is said of a collection on an arena: it is the one over the call stacks, and if the gate
lets the thread through then it is exact, leaves the heap alone and the gate as open as it was, and
says in the log what it found. -/
structure CollectsInPlace (t : Thread) (calls : CallStacks) (a : Arena MarkSweep) : Prop where
  list : collect t calls a =
    match collectOver (calls.rootList t) a.allocator a.heap (a.withAllocator ()) with
    | (.error fault, m, r) => (.error fault, r.withAllocator m)
    | (.ok found, m, r) => (.ok found.reclaimed, report (r.withAllocator m) t found)
  heap : (collect t calls a).2.heap = a.heap
  passed : a.gate.lets t = true → ∃ found, (collect t calls a).1 = .ok found.reclaimed ∧
    Exact a.heap calls.roots a.allocator found (collect t calls a).2.allocator ∧
    (collect t calls a).2.gate = (a.gate.close t).reopen ∧
    ∃ log, collect t calls a = (.ok found.reclaimed, report log t found)

theorem heap_resume {A : Type} (a : Arena A) (t : Thread) : (a.resume t).heap = a.heap := by
  unfold Arena.resume
  cases a.gate.resume? t <;> rfl

theorem heap_collect (t : Thread) (calls : CallStacks) (a : Arena MarkSweep) :
    (collect t calls a).2.heap = a.heap := by
  unfold collect
  rcases a.allocator.binding with _ | binding
  · rfl
  · dsimp only
    rcases (a.stop t).allocator.cycle (a.stop t).heap ((a.stop t).enumerate t calls) with
      ⟨fault | found, m⟩
    · exact heap_resume _ t
    · exact heap_report.trans (heap_resume _ t)

theorem Divides.collectsInPlace {a : Arena MarkSweep} (hm : a.allocator.Divides a.heap.size)
    (t : Thread) (calls : CallStacks) : CollectsInPlace t calls a where
  list := collect_eq_collectOver t calls a
  heap := heap_collect t calls a
  passed hgate := by
    have heq := collect_eq t calls hm.bound hgate
    refine ⟨a.allocator.found a.heap calls.roots, ?_, ?_, ?_, ?_⟩
    · rw [heq]
    · rw [heq, allocator_report]
      exact exact_collected hm calls.roots
    · rw [heq, gate_report]
    · exact ⟨_, heq⟩

/-- A collection of a machine is one on its arena, and touches nothing else of the machine. -/
structure CollectsAlone (t : Thread) (machine : Machine MarkSweep) : Prop where
  answer : (machine.collect t).1 = (collect t machine.calls machine.toArena).1
  arena : (machine.collect t).2.toArena = (collect t machine.calls machine.toArena).2
  calls : (machine.collect t).2.calls = machine.calls

/-- Collecting is exact, on every heap, over all roots and however the cells are divided. -/
theorem Divides.exact {m : MarkSweep} {heap : Heap} (hm : m.Divides heap.size) :
    (∀ (R : Type) (list : RootList R) (r : R), CollectsExactly list m heap r) ∧
      (∀ (t : Thread) (calls : CallStacks) (gate : Gate) (log : Array Entry),
        CollectsInPlace t calls ⟨m, heap, gate, log⟩) ∧
      ∀ (t : Thread) (machine : Machine MarkSweep), CollectsAlone t machine := by
  refine ⟨fun R list r => hm.collectsExactly list r, fun t calls gate log => ?_,
    fun t machine => ?_⟩
  · exact Divides.collectsInPlace (a := ⟨m, heap, gate, log⟩) hm t calls
  · exact ⟨rfl, rfl, rfl⟩

/-- Five cells: two that refer to each other, one that refers to itself, one that refers to what is
no cell, and one that is free; among the words there is data, too. -/
def tangled : Heap :=
  ⟨#[⟨1, #[2, 77]⟩, ⟨2, #[1, -5]⟩, ⟨3, #[3, 0]⟩, ⟨4, #[99, 1]⟩, ⟨5, #[0, 0]⟩], 2⟩

def booked : MarkSweep :=
  { MarkSweep.fresh .zero with
    binding := some ⟨6, 2⟩
    free := [5]
    allocated := #[false, true, true, true, true, false]
    marks := Marks.none 6 }

/-- A root list that knows whether it was stopped, and then names a cell twice, null, and what is no
cell. -/
def stoppable : RootList Bool :=
  ⟨fun _ => true, fun stopped =>
    (if stopped then .ok [1, 0, 77, 1] else .error .unstoppedRootScan, stopped), fun _ => false⟩

/-- A root list that counts its stops that are not resumed, and never answers. -/
def silent : RootList Nat :=
  ⟨fun stops => stops + 1, fun stops => (.error .unstoppedRootScan, stops), fun stops => stops - 1⟩

theorem divides_booked : booked.Divides tangled.size where
  bound := rfl
  marks := rfl
  flags := rfl
  once := List.nodup_singleton 5
  free_iff h := by
    rcases Nat.lt_or_ge h 6 with hlt | hge
    · interval_cases h <;> decide
    · have hout : h ∉ booked.free := by
        rintro hh
        obtain rfl := List.mem_singleton.1 hh
        omega
      exact iff_of_false hout fun hh => Nat.not_lt.2 hge hh.2.1
  flagged := rfl

/-- What is said of all collections, said of one that finds two cells and takes two back, and of one
that gets no roots. -/
theorem exact_tangled :
    booked.Divides tangled.size ∧
      (∃ found m', collectOver stoppable booked tangled false = (.ok found, m', false) ∧
        Exact tangled [1, 0, 77, 1] booked found m' ∧ found.live = 2 ∧ found.reclaimed = 2 ∧
        m'.free = [3, 4, 5]) ∧
      ∃ m', collectOver silent booked tangled 0 = (.error .unstoppedRootScan, m', 0) ∧
        m'.free = booked.free ∧ m'.allocated = booked.allocated ∧ m'.phase = .idle := by
  obtain ⟨hexact, -⟩ := Divides.exact divides_booked
  obtain ⟨found, m', hcollect, hfound, -⟩ := (hexact Bool stoppable false).ok [1, 0, 77, 1] true rfl
  obtain ⟨m'', hsilent, hfree, hflags, -, hidle⟩ := (hexact Nat silent 0).error _ 1 rfl
  have hseen : ((collectOver stoppable booked tangled false).1.toOption.map fun found =>
      (found.live, found.reclaimed), (collectOver stoppable booked tangled false).2.1.free) =
        (some (2, 2), [3, 4, 5]) := by
    cbv
  rw [hcollect] at hseen
  obtain ⟨hcounts, hlist⟩ := Prod.mk.inj hseen
  obtain ⟨hlive, hreclaimed⟩ := Prod.mk.inj (Option.some.inj hcounts)
  exact ⟨divides_booked, ⟨found, m', hcollect, hfound, hlive, hreclaimed, hlist⟩,
    m'', hsilent, hfree, hflags, hidle⟩

end MarkSweep

end RootedHeap
