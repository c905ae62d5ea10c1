import RootedHeap.Allocator.Bump
import RootedHeap.Allocator.MarkSweep
import RootedHeap.Proofs.Reach

/-!
What a strategy must keep for a machine to be safe on it. A `Collector` says which cells it counts
as handed out and when its books fit the heap. On an arena that is ready (the books fit, all that
the roots reach is handed out, nobody holds the stop) a request for a cell answers with one that the
roots do not reach, or with `outOfMemory` and an untouched heap, and a collection leaves the heap
alone; the arena stays ready. Counting up and mark-and-sweep are both collectors.
-/

namespace RootedHeap

/-- A strategy with books on the cells that it handed out. -/
class Collector (A : Type) [Allocator A] where
  HandedOut : A → Handle → Prop
  /-- Whether the books are about a heap of that size and in order. -/
  Fits : A → Nat → Prop

namespace Arena

variable {A : Type} [Allocator A] [Collector A]

/-- An arena whose books fit, that counts all that the roots reach as handed out, and whose gate
nobody holds. -/
structure Ready (a : Arena A) (calls : CallStacks) : Prop where
  fits : Collector.Fits a.allocator a.heap.size
  live : ∀ h, a.heap.Reaches calls.roots h → Collector.HandedOut a.allocator h
  unheld : a.gate.holder = none

/-- What a request for a cell may come to on an arena. -/
inductive Allocation (calls : CallStacks) (a : Arena A) : Answer Handle × Arena A → Prop
  | exhausted {a' : Arena A} (ready : a'.Ready calls) (heap : a'.heap = a.heap) :
    Allocation calls a (.error .outOfMemory, a')
  /-- A cell that the roots did not reach, cleared. -/
  | given {h : Handle} {a' : Arena A} (cell : a.heap.contains h = true)
      (unreached : ¬ a.heap.Reaches calls.roots h) (heap : a'.heap = a.heap.clear h)
      (fits : Collector.Fits a'.allocator a'.heap.size)
      (counted : Collector.HandedOut a'.allocator h)
      (live : ∀ k, a.heap.Reaches calls.roots k → Collector.HandedOut a'.allocator k)
      (unheld : a'.gate.holder = none) :
    Allocation calls a (.ok h, a')

/-- What a collection comes to on an arena. -/
inductive Collection (calls : CallStacks) (a : Arena A) : Answer Nat × Arena A → Prop
  | done {n : Nat} {a' : Arena A} (ready : a'.Ready calls) (heap : a'.heap = a.heap) :
    Collection calls a (.ok n, a')

end Arena

/-- A collector whose requests and collections keep its arena ready. -/
class LawfulCollector (A : Type) [Allocator A] extends Collector A where
  contains_of_handedOut : ∀ {a : A} {heap : Heap} {h : Handle},
    Fits a heap.size → HandedOut a h → heap.contains h = true
  bind_ok : ∀ {t : Thread} {a a' : Arena A}, Allocator.bind t a = (.ok (), a') →
    a.gate.holder = none → a'.Ready .empty ∧ a'.heap = a.heap
  allocate_ready : ∀ {t : Thread} {calls : CallStacks} {a : Arena A}, a.Ready calls →
    Arena.Allocation calls a (Allocator.allocate t calls a)
  collect_ready : ∀ {t : Thread} {calls : CallStacks} {a : Arena A}, a.Ready calls →
    Arena.Collection calls a (Allocator.collect t calls a)

/-- Without frames nothing is reached. -/
theorem Heap.not_reaches_empty {heap : Heap} {h : Handle} :
    ¬ heap.Reaches CallStacks.empty.roots h := by
  intro hh
  induction hh with
  | root hmem => cases hmem
  | link _ _ ih => exact ih

namespace Bump

/-- The books of a counter over a heap of `size` handles. -/
structure Fits (b : Bump) (size : Nat) : Prop where
  bound : b.binding.isSome
  pos : b.next ≠ 0
  le : b.next ≤ size

/-- Handles below the next one are handed out. -/
def HandedOut (b : Bump) (h : Handle) : Prop := h ≠ 0 ∧ h < b.next

instance : Collector Bump := ⟨HandedOut, Fits⟩

/-- The next cell is given while there is one, and nothing afterwards. -/
theorem allocate_eq {t : Thread} {calls : CallStacks} {a : Arena Bump}
    (hb : a.allocator.Fits a.heap.size) :
    allocate t calls a =
      if a.heap.size ≤ a.allocator.next then (.error .outOfMemory, a)
      else
        (.ok a.allocator.next,
          { a with
            heap := a.heap.clear a.allocator.next
            allocator :=
              { a.allocator with
                next := a.allocator.next + 1, stats := a.allocator.stats.countAllocation } }) := by
  obtain ⟨binding, hbound⟩ := Option.isSome_iff_exists.1 hb.bound
  unfold allocate
  rw [hbound]
  dsimp only
  split
  · rfl
  · rename_i hlt
    have hcell : a.heap.contains a.allocator.next = true :=
      Heap.contains_iff.2 ⟨hb.pos, Nat.lt_of_not_le hlt⟩
    obtain ⟨cell, hok, -⟩ := Heap.cell_of_contains hcell
    rw [hok, hbound]

theorem allocate_ready {t : Thread} {calls : CallStacks} {a : Arena Bump} (ha : a.Ready calls) :
    Arena.Allocation calls a (allocate t calls a) := by
  rw [allocate_eq ha.fits]
  split
  · exact .exhausted ha rfl
  · rename_i hlt
    have hcell : a.heap.contains a.allocator.next = true :=
      Heap.contains_iff.2 ⟨ha.fits.pos, Nat.lt_of_not_le hlt⟩
    refine .given hcell (fun hreach => Nat.lt_irrefl _ (ha.live _ hreach).2) rfl ?_ ?_ ?_ ha.unheld
    · exact ⟨ha.fits.bound, Nat.succ_ne_zero _,
        by rw [Heap.size_clear]; exact Nat.lt_of_not_le hlt⟩
    · exact ⟨ha.fits.pos, Nat.lt_succ_self _⟩
    · exact fun k hk => ⟨(ha.live k hk).1, Nat.lt_succ_of_lt (ha.live k hk).2⟩

theorem bind_ok {t : Thread} {a a' : Arena Bump} (hbind : bind t a = (.ok (), a'))
    (hgate : a.gate.holder = none) : a'.Ready .empty ∧ a'.heap = a.heap := by
  unfold bind at hbind
  split at hbind
  · cases hbind
  · obtain ⟨-, rfl⟩ := Prod.mk.inj hbind
    exact ⟨⟨⟨rfl, Nat.one_ne_zero, Nat.succ_le_succ (Nat.zero_le _)⟩,
      fun h hh => absurd hh Heap.not_reaches_empty, hgate⟩, rfl⟩

instance : LawfulCollector Bump where
  contains_of_handedOut hfits hout :=
    Heap.contains_iff.2 ⟨hout.1, Nat.lt_of_lt_of_le hout.2 hfits.le⟩
  bind_ok := bind_ok
  allocate_ready := allocate_ready
  collect_ready ha := .done ha rfl

end Bump

namespace Gate

variable {g : Gate} {t : Thread}

theorem lets_of_unheld (hg : g.holder = none) : g.lets t = true := by
  rw [lets, hg]

theorem heldBy_close (hg : g.lets t = true) : (g.close t).heldBy t = true := by
  unfold lets at hg
  unfold close
  split at hg
  · simp only [heldBy, decide_true]
  · rename_i holder hholder
    obtain rfl := of_decide_eq_true hg
    simp only [hholder, heldBy, decide_true]

theorem resume?_close (hg : g.lets t = true) :
    (g.close t).resume? t = some (g.close t).reopen := by
  rw [resume?, if_pos (heldBy_close hg)]

/-- A stop of an open gate and its resume leave one more pause. -/
theorem reopen_close (hg : g.holder = none) :
    (g.close t).reopen = { g with holder := none, stops := 0, pauses := g.pauses + 1 } := by
  simp only [close, hg, reopen, Nat.le_refl, ↓reduceIte]

end Gate

namespace MarkSweep

/-- The books of mark and sweep over a heap of `size` handles: the free list holds the cells without
a flag, lowest first. -/
structure Fits (m : MarkSweep) (size : Nat) : Prop where
  bound : m.binding.isSome
  marks : m.marks.size = size
  flags : m.allocated.size = size
  sorted : m.free.Pairwise (· < ·)
  free_iff : ∀ h, h ∈ m.free ↔ h ≠ 0 ∧ h < size ∧ m.hasAllocated h = false
  flagged : ∀ h, m.hasAllocated h = true → h ≠ 0

/-- Cells with a flag that are not on the free list are handed out. -/
def HandedOut (m : MarkSweep) (h : Handle) : Prop := m.hasAllocated h = true ∧ h ∉ m.free

instance : Collector MarkSweep := ⟨HandedOut, Fits⟩

variable {m : MarkSweep} {heap : Heap} {roots : List Handle} {h : Handle}

theorem Fits.lt_of_flag {size : Nat} (hm : m.Fits size) (hh : m.hasAllocated h = true) :
    h < size := by
  refine Nat.lt_of_not_le fun hle => ?_
  rw [hasAllocated, Array.getElem?_eq_none (hm.flags ▸ hle)] at hh
  cases hh

theorem Fits.handedOut_iff {size : Nat} (hm : m.Fits size) :
    m.HandedOut h ↔ m.hasAllocated h = true := by
  refine ⟨And.left, fun hh => ⟨hh, fun hfree => ?_⟩⟩
  rw [((hm.free_iff h).1 hfree).2.2] at hh
  cases hh

/-! ### One cycle -/

theorem mem_dead_iff :
    h ∈ m.dead heap ↔
      heap.contains h = true ∧ m.hasAllocated h = true ∧ m.marks.has h = false := by
  simp only [dead, List.mem_filter, Heap.mem_handles_iff, Bool.and_eq_true, Bool.not_eq_true']

theorem flag_foldl_unset {flags : Array Bool} {dead : List Handle} :
    (dead.foldl (fun flags h => flags.setIfInBounds h false) flags)[h]?.getD false =
      if h ∈ dead then false else flags[h]?.getD false := by
  induction dead generalizing flags with
  | nil => rfl
  | cons k dead ih =>
    rw [List.foldl_cons, ih, Array.getElem?_setIfInBounds]
    by_cases hk : k = h
    · subst hk
      simp only [↓reduceIte, List.mem_cons, true_or]
      split
      · rfl
      · split <;> rfl
    · simp only [hk, ↓reduceIte, List.mem_cons, Ne.symm hk, false_or]

theorem size_foldl_unset {flags : Array Bool} {dead : List Handle} :
    (dead.foldl (fun flags h => flags.setIfInBounds h false) flags).size = flags.size := by
  induction dead generalizing flags with
  | nil => rfl
  | cons k dead ih => rw [List.foldl_cons, ih, Array.size_setIfInBounds]

theorem hasAllocated_sweep :
    (m.sweep heap).hasAllocated h = true ↔ m.hasAllocated h = true ∧ h ∉ m.dead heap := by
  have hflag : (m.sweep heap).hasAllocated h =
      if h ∈ m.dead heap then false else m.hasAllocated h := flag_foldl_unset
  rw [hflag]
  split
  · rename_i hdead
    simp only [hdead, Bool.false_eq_true, not_true_eq_false, and_false]
  · rename_i hdead
    simp only [hdead, not_false_eq_true, and_true]

theorem mem_free_sweep : h ∈ (m.sweep heap).free ↔ h ∈ m.free ∨ h ∈ m.dead heap :=
  List.mem_merge

/-- Merging two ascending lists without a common member keeps them ascending. -/
theorem pairwise_lt_merge {xs ys : List Handle} (hxs : xs.Pairwise (· < ·))
    (hys : ys.Pairwise (· < ·)) (hdisj : ∀ h ∈ xs, h ∉ ys) : (xs.merge ys).Pairwise (· < ·) := by
  have htrans : ∀ a b c : Handle, decide (a ≤ b) = true → decide (b ≤ c) = true →
      decide (a ≤ c) = true := fun a b c hab hbc =>
    decide_eq_true (Nat.le_trans (of_decide_eq_true hab) (of_decide_eq_true hbc))
  have hle : (xs.merge ys).Pairwise fun a b => decide (a ≤ b) = true :=
    List.pairwise_merge htrans
      (fun a b => by simpa only [Bool.or_eq_true, decide_eq_true_eq] using Nat.le_total a b) xs ys
      (hxs.imp fun hab => decide_eq_true (Nat.le_of_lt hab))
      (hys.imp fun hab => decide_eq_true (Nat.le_of_lt hab))
  have hnodup : (xs.merge ys).Nodup := by
    refine (List.merge_perm_append _).nodup_iff.2 (List.nodup_append.2 ⟨?_, ?_, ?_⟩)
    · exact hxs.imp Nat.ne_of_lt
    · exact hys.imp Nat.ne_of_lt
    · rintro a ha b hb rfl
      exact hdisj a ha hb
  exact hle.imp₂ (fun a b hab hne => Nat.lt_of_le_of_ne (of_decide_eq_true hab) hne) hnodup

theorem Fits.mark (hm : m.Fits heap.size) (roots : List Handle) :
    (m.mark heap roots).Fits heap.size where
  bound := hm.bound
  marks := by rw [MarkSweep.mark, Heap.size_mark, Marks.none, Array.size_replicate, hm.marks]
  flags := hm.flags
  sorted := hm.sorted
  free_iff := hm.free_iff
  flagged := hm.flagged

theorem Fits.sweep (hm : m.Fits heap.size) : (m.sweep heap).Fits heap.size where
  bound := hm.bound
  marks := hm.marks
  flags := by rw [MarkSweep.sweep, size_foldl_unset, hm.flags]
  sorted := by
    refine pairwise_lt_merge hm.sorted (List.Pairwise.filter _ List.pairwise_lt_range') ?_
    intro h hfree hdead
    have hflag := (mem_dead_iff.1 hdead).2.1
    rw [((hm.free_iff h).1 hfree).2.2] at hflag
    cases hflag
  free_iff h := by
    rw [mem_free_sweep, hm.free_iff, ← Bool.not_eq_true, ← Bool.not_eq_true, hasAllocated_sweep]
    constructor
    · rintro (⟨h0, hlt, hflag⟩ | hdead)
      · exact ⟨h0, hlt, fun hh => hflag hh.1⟩
      · obtain ⟨h0, hlt⟩ := Heap.contains_iff.1 (mem_dead_iff.1 hdead).1
        exact ⟨h0, hlt, fun hh => hh.2 hdead⟩
    · rintro ⟨h0, hlt, hkept⟩
      by_cases hdead : h ∈ m.dead heap
      · exact .inr hdead
      · exact .inl ⟨h0, hlt, fun hflag => hkept ⟨hflag, hdead⟩⟩
  flagged h hh := hm.flagged h (hasAllocated_sweep.1 hh).1

/-- What the roots reach keeps its flag through a cycle. -/
theorem hasAllocated_cycle (hm : m.Fits heap.size) (hflag : m.hasAllocated h = true)
    (hreach : heap.Reaches roots h) :
    ((m.mark heap roots).sweep heap).hasAllocated h = true := by
  refine hasAllocated_sweep.2 ⟨hflag, fun hdead => ?_⟩
  have hcell := Heap.contains_iff.2 ⟨hm.flagged h hflag, hm.lt_of_flag hflag⟩
  have hmark : (m.mark heap roots).marks.has h = true := by
    rw [mark, hm.marks]
    exact Heap.has_mark_iff.2 ⟨hcell, hreach⟩
  rw [(mem_dead_iff.1 hdead).2.2] at hmark
  cases hmark

/-! ### Operations on a ready arena -/

variable {t : Thread} {calls : CallStacks} {a : Arena MarkSweep}

@[simp] theorem heap_report {found : Yield} : (report a t found).heap = a.heap := by
  unfold report
  dsimp only
  split <;> rfl

@[simp] theorem gate_report {found : Yield} : (report a t found).gate = a.gate := by
  unfold report
  dsimp only
  split <;> rfl

@[simp] theorem allocator_report {found : Yield} :
    (report a t found).allocator = a.allocator := by
  unfold report
  dsimp only
  split <;> rfl

def found (m : MarkSweep) (heap : Heap) (roots : List Handle) : Yield :=
  ⟨(m.mark heap roots).marks.present, ((m.mark heap roots).dead heap).length⟩

def collected (m : MarkSweep) (heap : Heap) (roots : List Handle) : MarkSweep :=
  { (m.mark heap roots).sweep heap with phase := .idle }.count (m.found heap roots)

theorem Fits.collected (hm : m.Fits heap.size) (roots : List Handle) :
    (m.collected heap roots).Fits heap.size :=
  have hfits := (hm.mark roots).sweep
  ⟨hfits.bound, hfits.marks, hfits.flags, hfits.sorted, hfits.free_iff, hfits.flagged⟩

/-- A collection by a thread that the gate lets in. -/
theorem collect_eq (t : Thread) (calls : CallStacks) (hbound : a.allocator.binding.isSome)
    (hgate : a.gate.lets t = true) :
    collect t calls a =
      (.ok (a.allocator.found a.heap calls.roots).reclaimed,
        report
          { a with
            allocator := a.allocator.collected a.heap calls.roots
            gate := (a.gate.close t).reopen }
          t (a.allocator.found a.heap calls.roots)) := by
  obtain ⟨binding, hbinding⟩ := Option.isSome_iff_exists.1 hbound
  unfold collect
  simp only [hbinding, Arena.stop, Arena.enumerate, Gate.heldBy_close hgate, ↓reduceIte, cycle,
    Arena.resume, Arena.withAllocator, Gate.resume?_close hgate, collected, found]

theorem collect_ready (ha : a.Ready calls) : Arena.Collection calls a (collect t calls a) := by
  rw [collect_eq t calls ha.fits.bound (Gate.lets_of_unheld ha.unheld)]
  refine .done ⟨?_, fun h hh => ?_, ?_⟩ heap_report
  · rw [allocator_report, heap_report]
    exact ha.fits.collected calls.roots
  · rw [heap_report] at hh
    rw [allocator_report]
    exact (ha.fits.collected calls.roots).handedOut_iff.2
      (hasAllocated_cycle ha.fits (ha.live h hh).1 hh)
  · rw [gate_report, Gate.reopen_close ha.unheld]

/-- The allocator after it has handed out the first free cell. -/
theorem Fits.take {size : Nat} {free : List Handle} (hm : m.Fits size) (stats : Stats)
    (hfree : m.free = h :: free) :
    let m' := { m with free, allocated := m.allocated.setIfInBounds h true, stats }
    m'.Fits size ∧ ∀ k, m'.hasAllocated k = true ↔ h = k ∨ m.hasAllocated k = true := by
  intro m'
  obtain ⟨h0, hlt, -⟩ := (hm.free_iff h).1 (hfree ▸ List.mem_cons_self)
  have hsorted : (h :: free).Pairwise (· < ·) := hfree ▸ hm.sorted
  have hnew : h ∉ free := fun hmem => Nat.lt_irrefl _ (List.rel_of_pairwise_cons hsorted hmem)
  have hflag : ∀ k, m'.hasAllocated k = true ↔ h = k ∨ m.hasAllocated k = true := by
    intro k
    have hadd : m'.hasAllocated k = true ↔ h = k ∧ h < m.allocated.size ∨ m.hasAllocated k = true :=
      Marks.has_add
    simpa only [hm.flags, hlt, and_true] using hadd
  refine ⟨⟨hm.bound, hm.marks, ?_, hsorted.of_cons, fun k => ?_, fun k hk => ?_⟩, hflag⟩
  · exact Array.size_setIfInBounds.trans hm.flags
  · have hold := hm.free_iff k
    rw [hfree, List.mem_cons] at hold
    rw [← Bool.not_eq_true, hflag, not_or, Bool.not_eq_true]
    constructor
    · intro hk
      obtain ⟨k0, hklt, hkflag⟩ := hold.1 (.inr hk)
      exact ⟨k0, hklt, fun hhk => hnew (hhk ▸ hk), hkflag⟩
    · rintro ⟨k0, hklt, hhk, hkflag⟩
      exact (hold.2 ⟨k0, hklt, hkflag⟩).resolve_left (Ne.symm hhk)
  · rcases (hflag k).1 hk with rfl | hk
    · exact h0
    · exact hm.flagged k hk

theorem take_ready (ha : a.Ready calls) : Arena.Allocation calls a (take t a) := by
  unfold take
  split
  · exact .exhausted ⟨ha.fits, ha.live, ha.unheld⟩ rfl
  · rename_i h free hfree
    obtain ⟨h0, hlt, hflag⟩ := (ha.fits.free_iff h).1 (hfree ▸ List.mem_cons_self)
    have hcell : a.heap.contains h = true := Heap.contains_iff.2 ⟨h0, hlt⟩
    obtain ⟨cell, hok, -⟩ := Heap.cell_of_contains hcell
    obtain ⟨hfits, hflags⟩ := ha.fits.take a.allocator.stats.countAllocation hfree
    rw [hok]
    refine .given hcell (fun hreach => ?_) rfl ?_ ?_ (fun k hk => ?_) ha.unheld
    · rw [(ha.live h hreach).1] at hflag
      cases hflag
    · rw [Heap.size_clear]
      exact hfits
    · exact hfits.handedOut_iff.2 ((hflags h).2 (.inl rfl))
    · exact hfits.handedOut_iff.2 ((hflags k).2 (.inr (ha.live k hk).1))

theorem allocate_ready (ha : a.Ready calls) : Arena.Allocation calls a (allocate t calls a) := by
  obtain ⟨binding, hbinding⟩ := Option.isSome_iff_exists.1 ha.fits.bound
  unfold allocate
  rw [hbinding]
  dsimp only
  split
  · have hcollect := collect_ready (t := t) ha
    generalize collect t calls a = collected at hcollect ⊢
    obtain ⟨hready, hheap⟩ := hcollect
    dsimp only
    -- the collection kept the heap, so what the second arena hands out is new on the first
    have htake := take_ready (t := t) hready
    generalize take t _ = taken at htake ⊢
    cases htake with
    | exhausted hready' hheap' => exact .exhausted hready' (hheap'.trans hheap)
    | given hcell hnew hheap' hfits hcounted hlive hunheld =>
      rw [hheap] at hcell hnew hheap' hlive
      exact .given hcell hnew hheap' hfits hcounted hlive hunheld
  · exact take_ready ha

theorem bind_ok {a' : Arena MarkSweep} (hbind : bind t a = (.ok (), a'))
    (hgate : a.gate.holder = none) : a'.Ready .empty ∧ a'.heap = a.heap := by
  unfold bind at hbind
  split at hbind
  · cases hbind
  · obtain ⟨-, rfl⟩ := Prod.mk.inj hbind
    refine ⟨⟨⟨rfl, Array.size_replicate, Array.size_replicate, List.pairwise_lt_range', ?_, ?_⟩,
      fun h hh => absurd hh Heap.not_reaches_empty, hgate⟩, rfl⟩
    · intro h
      have hflag : Marks.has (Array.replicate a.heap.size false) h = false := Marks.has_none
      exact Heap.mem_handles_iff.trans (Heap.contains_iff.trans
        ⟨fun hh => ⟨hh.1, hh.2, hflag⟩, fun hh => ⟨hh.1, hh.2.1⟩⟩)
    · intro h hh
      have hflag : Marks.has (Array.replicate a.heap.size false) h = false := Marks.has_none
      exact absurd (hflag.symm.trans hh) Bool.false_ne_true

instance : LawfulCollector MarkSweep where
  contains_of_handedOut hfits hout :=
    Heap.contains_iff.2 ⟨hfits.flagged _ hout.1, hfits.lt_of_flag hout.1⟩
  bind_ok := bind_ok
  allocate_ready := allocate_ready
  collect_ready := collect_ready

end MarkSweep

end RootedHeap
