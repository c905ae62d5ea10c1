import RootedHeap.Proofs.Genuine
import RootedHeap.Proofs.GrantedOperations

/-!
What a request is given, told from the books. Mark and sweep gives the first cell of its free list
and keeps the rest; a counter gives the next cell and counts one up. Memory is out over mark and
sweep just when all cells are in reach, and over a counter just when no cell remains.
-/

namespace RootedHeap

variable {t : Thread} {calls : CallStacks}

namespace MarkSweep

variable {m : MarkSweep} {heap : Heap} {a : Arena MarkSweep} {h : Handle} {free : List Handle}

/-- The books fit after whatever collection a request begins with. -/
theorem fits_refilled (ha : a.Ready calls) :
    (refilled t calls a).allocator.Fits (refilled t calls a).heap.size := by
  by_cases hfree : a.allocator.free = []
  · have hcollected := collect_ready (t := t) ha
    rw [refilled_of_empty hfree]
    generalize collect t calls a = collected at hcollected ⊢
    obtain ⟨hready, -⟩ := hcollected
    exact hready.fits
  · rw [refilled_of_free hfree]
    exact ha.fits

theorem allocate_ready_eq (ha : a.Ready calls) :
    allocate t calls a = take t (refilled t calls a) :=
  allocate_eq ha.fits.bound fun _ => Gate.lets_of_unheld ha.unheld

/-- The first free cell is given, and the others stay free. -/
theorem allocate_of_free (ha : a.Ready calls) (hfree : a.allocator.free = h :: free) :
    (allocate t calls a).1 = .ok h ∧ (allocate t calls a).2.allocator.free = free := by
  have hne : a.allocator.free ≠ [] := hfree ▸ List.cons_ne_nil h free
  rw [allocate_ready_eq ha, refilled_of_free hne, take_eq ha.fits hfree]
  exact ⟨rfl, rfl⟩

/-- Memory is out just when all cells are in reach. -/
theorem allocate_out_iff (ha : a.Ready calls) :
    (allocate t calls a).1 = .error .outOfMemory ↔
      ∀ h, a.heap.contains h = true → a.heap.Reaches calls.roots h := by
  rw [← free_refilled_eq_nil_iff (t := t) ha, allocate_ready_eq ha]
  cases hfree : (refilled t calls a).allocator.free with
  | nil =>
    rw [take, hfree]
    exact iff_of_true rfl rfl
  | cons h free =>
    rw [take_eq (fits_refilled ha) hfree]
    constructor
    · intro hout
      cases hout
    · intro hnone
      cases hnone

/-- The cells that a collection finds dead: those that were handed out and are out of reach. -/
theorem mem_dead_mark_iff (hm : m.Fits heap.size) {roots : List Handle} :
    h ∈ (m.mark heap roots).dead heap ↔
      heap.contains h = true ∧ m.hasAllocated h = true ∧ ¬ heap.Reaches roots h := by
  have hmark : (m.mark heap roots).marks.has h = true ↔
      heap.contains h = true ∧ heap.Reaches roots h := by
    rw [mark, hm.marks]
    exact Heap.has_mark_iff
  have hflag : (m.mark heap roots).hasAllocated h = m.hasAllocated h := rfl
  rw [mem_dead_iff, hflag, ← Bool.not_eq_true, hmark]
  constructor
  · rintro ⟨hcell, hgiven, hunmarked⟩
    exact ⟨hcell, hgiven, fun hreach => hunmarked ⟨hcell, hreach⟩⟩
  · rintro ⟨hcell, hgiven, hunreached⟩
    exact ⟨hcell, hgiven, fun hmarked => hunreached hmarked.2⟩

end MarkSweep

namespace Bump

/-- A counter that is bound to a heap of so many handles. -/
def BoundTo (b : Bump) (size : Nat) : Prop := ∃ width, b.binding = some ⟨size, width⟩

theorem BoundTo.remaining {b : Bump} {size : Nat} (hb : b.BoundTo size) :
    b.remaining = size - b.next := by
  obtain ⟨width, hbinding⟩ := hb
  rw [Bump.remaining, hbinding]

theorem binding_allocate (t : Thread) (calls : CallStacks) (a : Arena Bump) :
    (allocate t calls a).2.allocator.binding = a.allocator.binding := by
  unfold allocate
  split
  · rfl
  · dsimp only
    split
    · rfl
    · split <;> rfl

end Bump

namespace Session

variable {env : Env}

section MarkSweep

variable {s : Session MarkSweep} {h : Handle} {free : List Handle}

/-- A frame at work gets the first free cell. -/
theorem newObject_of_free (hs : s.Sound) (hactive : (s.machine.frame env).state = .active)
    (hfree : s.machine.allocator.free = h :: free) :
    s.reply t (.newObject env) = .ok h ∧
      (s.after t (.newObject env)).machine.allocator.free = free := by
  obtain ⟨hanswer, hallocator⟩ := newObject_of_active (t := t) hs hactive
  obtain ⟨hok, hrest⟩ := MarkSweep.allocate_of_free (t := t) hs.ready hfree
  exact ⟨hanswer.trans hok, (congrArg MarkSweep.free hallocator).trans hrest⟩

/-- A frame at work is refused for want of memory just when all cells are in reach. -/
theorem newObject_out_iff (hs : s.Sound) (hactive : (s.machine.frame env).state = .active) :
    s.reply t (.newObject env) = .error .outOfMemory ↔
      ∀ h, s.machine.heap.contains h = true → s.machine.heap.Reaches s.calls.roots h := by
  have hanswer : s.reply t (.newObject env) =
      (MarkSweep.allocate t s.calls s.machine.toArena).1 := (newObject_of_active hs hactive).1
  rw [hanswer]
  exact MarkSweep.allocate_out_iff hs.ready

/-- What a collection answers and leaves of the allocator. -/
theorem collect_of_sound (hs : s.Sound) :
    s.reply t .collect = .ok (s.machine.allocator.found s.machine.heap s.calls.roots).reclaimed ∧
      (s.after t .collect).machine.allocator =
        s.machine.allocator.collected s.machine.heap s.calls.roots := by
  have heq :=
    MarkSweep.collect_eq t s.calls hs.ready.fits.bound (Gate.lets_of_unheld hs.ready.unheld)
  constructor
  · exact congrArg Prod.fst heq
  · exact (congrArg (fun collected => collected.2.allocator) heq).trans MarkSweep.allocator_report

end MarkSweep

section Bump

variable {s : Session Bump}

/-- A frame at work gets the next cell, while there is one. -/
theorem newObject_of_next (hs : s.Sound) (hactive : (s.machine.frame env).state = .active)
    (hlt : s.machine.allocator.next < s.machine.heap.size) :
    s.reply t (.newObject env) = .ok s.machine.allocator.next ∧
      (s.after t (.newObject env)).machine.allocator.next = s.machine.allocator.next + 1 := by
  obtain ⟨hanswer, hallocator⟩ := newObject_of_active (t := t) hs hactive
  have hgiven : Allocator.allocate t s.calls s.machine.toArena = _ :=
    (Bump.allocate_eq hs.ready.fits).trans (if_neg (Nat.not_le_of_lt hlt))
  rw [hgiven] at hanswer hallocator
  exact ⟨hanswer, congrArg Bump.next hallocator⟩

/-- A frame at work is refused for want of memory once no cell is left, and the counter stands. -/
theorem newObject_of_spent (hs : s.Sound) (hactive : (s.machine.frame env).state = .active)
    (hle : s.machine.heap.size ≤ s.machine.allocator.next) :
    s.reply t (.newObject env) = .error .outOfMemory ∧
      (s.after t (.newObject env)).machine.allocator.next = s.machine.allocator.next := by
  obtain ⟨hanswer, hallocator⟩ := newObject_of_active (t := t) hs hactive
  have hrefused : Allocator.allocate t s.calls s.machine.toArena = _ :=
    (Bump.allocate_eq hs.ready.fits).trans (if_pos hle)
  rw [hrefused] at hanswer hallocator
  exact ⟨hanswer, congrArg Bump.next hallocator⟩

/-- No action binds a counter anew. -/
theorem binding_after {action : Action} :
    (s.after t action).machine.allocator.binding = s.machine.allocator.binding := by
  cases hquiet : action.allocates with
  | false => exact congrArg Bump.binding (World.allocator_perform hquiet)
  | true =>
    cases action with
    | collect => rfl
    | newObject env =>
      exact newObject_keeps (P := fun (b : Bump) _ => b.binding = s.machine.allocator.binding) rfl
        (Bump.binding_allocate t s.calls s.machine.toArena)
    | _ => cases hquiet

/-- A counter stays bound to the heap that it counts. -/
theorem boundTo_after {action : Action} (hs : s.machine.allocator.BoundTo s.machine.heap.size) :
    (s.after t action).machine.allocator.BoundTo (s.after t action).machine.heap.size := by
  obtain ⟨width, hbinding⟩ := hs
  refine ⟨width, ?_⟩
  rw [binding_after, size_after_any]
  exact hbinding

theorem boundTo_play {α : Type} {p : Program α}
    (hs : s.machine.allocator.BoundTo s.machine.heap.size) :
    (s.play t p).2.machine.allocator.BoundTo (s.play t p).2.machine.heap.size := by
  induction p generalizing s with
  | done result => exact hs
  | act action next ih => exact ih _ (boundTo_after hs)

/-- In every session a counter is bound to the heap that it counts. -/
theorem Ran.boundTo {first : Thread} {heap : Heap} {config : MachineConfig} {start : Machine Bump}
    {past : List Move} (hbuild : Machine.build first heap Bump.fresh config = .ok start)
    (hran : Ran start past s) : s.machine.allocator.BoundTo s.machine.heap.size := by
  induction hran with
  | opening =>
    obtain rfl := Except.ok.inj hbuild
    exact ⟨_, rfl⟩
  | move _ t action permitted ih => exact boundTo_after ih

theorem OrderlyOver.boundTo {config : MachineConfig} {width : Nat}
    (hs : s.OrderlyOver Bump.fresh config width) :
    s.machine.allocator.BoundTo s.machine.heap.size := by
  obtain ⟨⟨hbuild, -⟩, hran, -⟩ := hs
  exact hran.boundTo hbuild

end Bump

end Session

end RootedHeap
