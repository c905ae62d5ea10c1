import Mathlib.Tactic.IntervalCases
import RootedHeap.Proofs.Bookkeeping
import RootedHeap.Proofs.Safety

/-!
Memory is out exactly when all of it is in use. In a session over mark and sweep that never left the
rules, what the roots reach is not free, and after a collection what they do not reach is. So a
request of an active frame is refused for want of memory if and only if every cell is in reach; it
is given the lowest free cell, and where none was free the lowest cell out of reach. A refusal
leaves cells, frames and the books alone, but for the marks and the count of the collection.
-/

namespace RootedHeap

namespace MarkSweep

variable {m : MarkSweep} {heap : Heap} {roots : List Handle} {h : Handle} {t : Thread}
  {calls : CallStacks} {a : Arena MarkSweep}

/-- What is free is out of reach. -/
theorem not_reaches_of_free (ha : a.Ready calls) (hfree : h ∈ a.allocator.free) :
    ¬ a.heap.Reaches calls.roots h :=
  fun hreach => (ha.live h hreach).2 hfree

/-- After a collection the free cells are those out of reach. -/
theorem mem_free_collected_iff (ha : a.Ready calls) :
    h ∈ (a.allocator.collected a.heap calls.roots).free ↔
      a.heap.contains h = true ∧ ¬ a.heap.Reaches calls.roots h := by
  have hfits := ha.fits.mark calls.roots
  have hmem : h ∈ (a.allocator.collected a.heap calls.roots).free ↔
      h ∈ a.allocator.free ∨ h ∈ (a.allocator.mark a.heap calls.roots).dead a.heap := mem_free_sweep
  have hmark : (a.allocator.mark a.heap calls.roots).marks.has h = true ↔
      a.heap.contains h = true ∧ a.heap.Reaches calls.roots h := by
    rw [mark, ha.fits.marks]
    exact Heap.has_mark_iff
  rw [hmem, mem_dead_iff, ← Bool.not_eq_true ((a.allocator.mark a.heap calls.roots).marks.has h),
    hmark]
  constructor
  · rintro (hfree | ⟨hcell, -, hunmarked⟩)
    · obtain ⟨h0, hlt, -⟩ := (ha.fits.free_iff h).1 hfree
      exact ⟨Heap.contains_iff.2 ⟨h0, hlt⟩, not_reaches_of_free ha hfree⟩
    · exact ⟨hcell, fun hreach => hunmarked ⟨hcell, hreach⟩⟩
  · rintro ⟨hcell, hunreached⟩
    obtain ⟨h0, hlt⟩ := Heap.contains_iff.1 hcell
    cases hflag : a.allocator.hasAllocated h with
    | false => exact .inl ((ha.fits.free_iff h).2 ⟨h0, hlt, hflag⟩)
    | true => exact .inr ⟨hcell, hflag, fun hh => hunreached hh.2⟩

/-- A collection that leaves nothing free has changed the marks and its own count only. -/
theorem collected_of_free_eq_nil (hidle : m.phase = .idle)
    (hfree : (m.collected heap roots).free = []) :
    ∃ marks pause, m.collected heap roots =
      { m with marks, stats := m.stats.countCollection pause 0 } := by
  have hlength : (m.collected heap roots).free.length = _ := length_free_collected roots
  rw [hfree, List.length_nil] at hlength
  have hnone : m.free = [] := List.eq_nil_of_length_eq_zero (by omega)
  have hdead : (m.mark heap roots).dead heap = [] :=
    List.eq_nil_of_length_eq_zero (show (m.found heap roots).reclaimed = 0 by omega)
  refine ⟨(m.mark heap roots).marks, m.clock m.stats.collections, ?_⟩
  have hmarked : (m.mark heap roots).free = m.free := rfl
  unfold collected sweep found
  simp only [hdead, hmarked, hnone, List.merge_right, List.foldl_nil, List.length_nil, count]
  rw [← hnone, ← hidle]
  rfl

theorem refilled_of_free (hfree : a.allocator.free ≠ []) : refilled t calls a = a :=
  if_neg fun hempty => hfree (List.isEmpty_iff.1 hempty)

theorem refilled_of_empty (hfree : a.allocator.free = []) :
    refilled t calls a = (collect t calls a).2 :=
  if_pos (List.isEmpty_iff.2 hfree)

/-- Where no cell was free, those out of reach are after the collection. -/
theorem mem_free_refilled_iff (ha : a.Ready calls) (hfree : a.allocator.free = []) :
    h ∈ (refilled t calls a).allocator.free ↔
      a.heap.contains h = true ∧ ¬ a.heap.Reaches calls.roots h := by
  rw [refilled_of_empty hfree, collect_eq t calls ha.fits.bound (Gate.lets_of_unheld ha.unheld),
    allocator_report]
  exact mem_free_collected_iff ha

/-- A refilled list is empty just when all cells are in reach. -/
theorem free_refilled_eq_nil_iff (ha : a.Ready calls) :
    (refilled t calls a).allocator.free = [] ↔
      ∀ h, a.heap.contains h = true → a.heap.Reaches calls.roots h := by
  by_cases hfree : a.allocator.free = []
  · rw [List.eq_nil_iff_forall_not_mem]
    simp only [mem_free_refilled_iff ha hfree, not_and, not_not]
  · rw [refilled_of_free hfree]
    refine iff_of_false hfree fun hall => ?_
    obtain ⟨h, hmem⟩ := List.exists_mem_of_ne_nil _ hfree
    obtain ⟨h0, hlt, -⟩ := (ha.fits.free_iff h).1 hmem
    exact not_reaches_of_free ha hmem (hall h (Heap.contains_iff.2 ⟨h0, hlt⟩))

end MarkSweep

namespace Session

variable {s : Session MarkSweep} {t : Thread} {env : Env}

/-! ### The books along a session -/

/-- A request of a frame leaves the allocator and the heap as they were, or as the allocator leaves
them. -/
theorem newObject_keeps {A : Type} [Allocator A] {s : Session A} {P : A → Heap → Prop}
    (hsame : P s.machine.allocator s.machine.heap)
    (hallocated : P (Allocator.allocate t s.calls s.machine.toArena).2.allocator
      (Allocator.allocate t s.calls s.machine.toArena).2.heap) :
    P (s.machine.newObject t env).2.allocator (s.machine.newObject t env).2.heap := by
  have hcalls : s.machine.calls = s.calls := rfl
  rw [Machine.newObject_eq, hcalls]
  cases s.machine.checkActive env with
  | error fault => exact hsame
  | ok _ =>
    dsimp only
    generalize Allocator.allocate t s.calls s.machine.toArena = allocated at hallocated
    rcases allocated with ⟨fault | h, arena⟩
    · exact hallocated
    · dsimp only
      split
      · exact hallocated
      · rw [Machine.allocator_traced, Machine.heap_traced]
        exact hallocated

/-- The books stay in balance whatever an orderly action does. -/
theorem balanced_after (hs : s.Sound) {action : Action} (horderly : action.orderly = true)
    (hpermits : s.ledger.permits action)
    (hm : s.machine.allocator.Balanced s.machine.heap.size) :
    (s.after t action).machine.allocator.Balanced (s.after t action).machine.heap.size := by
  have hgate : s.machine.gate.lets t = true := Gate.lets_of_unheld hs.ready.unheld
  have hsize : (s.after t action).machine.heap.size = s.machine.heap.size := by
    rw [(hs.arena hpermits horderly).2, Heap.size_after]
  rw [hsize]
  cases haction : action.allocates with
  | false =>
    have hsame : (s.after t action).machine.allocator = s.machine.allocator :=
      World.allocator_perform haction
    rw [hsame]
    exact hm
  | true =>
    cases action with
    | collect => exact (MarkSweep.collect_keeps s.calls hm hgate).1
    | newObject env =>
      exact newObject_keeps (P := fun (m : MarkSweep) _ => m.Balanced s.machine.heap.size) hm
        (MarkSweep.allocate_keeps s.calls hm fun _ => hgate).1
    | _ => cases haction

section Built

variable {first : Thread} {heap : Heap} {maxPause : Duration} {clock : Nat → Duration}
  {config : MachineConfig} {start : Machine MarkSweep} {past : List Move}

theorem balanced_of_build
    (hbuild : Machine.build first heap { MarkSweep.fresh maxPause with clock } config = .ok start) :
    start.allocator.Balanced start.heap.size := by
  let opened : Arena MarkSweep := ⟨{ MarkSweep.fresh maxPause with clock }, heap, .fresh, #[]⟩
  obtain ⟨-, hbalanced, hheap, -⟩ := MarkSweep.balanced_bind (t := first) (a := opened) rfl rfl rfl
  have hbind : Allocator.bind first opened = MarkSweep.bind first opened := rfl
  unfold Machine.build at hbuild
  rw [hbind] at hbuild
  split at hbuild
  · cases hbuild
  · rename_i arena hok
    obtain rfl := Except.ok.inj hbuild
    rw [hok] at hbalanced hheap
    show MarkSweep.Balanced arena.allocator arena.heap.size
    rw [hheap]
    exact hbalanced

theorem Ran.balanced
    (hbuild : Machine.build first heap { MarkSweep.fresh maxPause with clock } config = .ok start)
    (hran : Ran start past s) (horderly : Orderly past) :
    s.machine.allocator.Balanced s.machine.heap.size := by
  induction hran with
  | opening => exact balanced_of_build hbuild
  | move ran t action permitted ih =>
    have hpast : Orderly _ := fun move hmove => horderly move (List.mem_cons_of_mem _ hmove)
    exact balanced_after (ran.sound hbuild hpast) (horderly _ List.mem_cons_self) permitted
      (ih hpast)

theorem OrderlyOver.balanced {width : Nat}
    (hs : s.OrderlyOver { MarkSweep.fresh maxPause with clock } config width) :
    s.machine.allocator.Balanced s.machine.heap.size := by
  obtain ⟨⟨hbuild, -⟩, hran, horderly⟩ := hs
  exact hran.balanced hbuild horderly

end Built

/-! ### What a request comes to -/

/-- The session as the place where its allocator works. -/
def site (s : Session MarkSweep) : Site := ⟨s.machine.toArena, s.calls⟩

/-- An active frame is told what the allocator answers, and the allocator is left as it then is. -/
theorem newObject_of_active {A : Type} [Allocator A] [LawfulCollector A] {s : Session A}
    (hs : s.Sound) (hactive : (s.machine.frame env).state = .active) :
    (s.machine.newObject t env).1 = (Allocator.allocate t s.calls s.machine.toArena).1 ∧
      (s.machine.newObject t env).2.allocator =
        (Allocator.allocate t s.calls s.machine.toArena).2.allocator := by
  have hcheck : s.machine.checkActive env = .ok () := Machine.checkActive_eq_ok.2 hactive
  have hcalls : s.machine.calls = s.calls := rfl
  have hgiven : s.machine.toArena.Allocation s.calls
      (Allocator.allocate t s.calls s.machine.toArena) := LawfulCollector.allocate_ready hs.ready
  rw [Machine.newObject_eq, hcheck, hcalls]
  dsimp only
  generalize Allocator.allocate t s.calls s.machine.toArena = allocated at hgiven
  cases hgiven with
  | exhausted ready heap => exact ⟨rfl, rfl⟩
  | @given h arena cell unreached heap fits counted live unheld =>
    have hfree : ¬ (s.machine.frame env).holds h = true := fun hheld =>
      unreached (.root (hs.mem_roots (Frame.holds_iff.1 hheld)))
    dsimp only
    rw [if_neg hfree]
    exact ⟨rfl, Machine.allocator_traced⟩

/-- An active frame is refused an object for want of memory just when all cells are in reach. -/
theorem newObject_exhausted_iff (hs : s.Sound)
    (hm : s.machine.allocator.Balanced s.machine.heap.size)
    (hactive : (s.machine.frame env).state = .active) :
    (s.machine.newObject t env).1 = .error .outOfMemory ↔
      ∀ h, s.machine.heap.contains h = true → s.machine.heap.Reaches s.calls.roots h := by
  have hserved : s.site.Served t := Site.served_of_balanced hm fun _ =>
    Gate.lets_of_unheld hs.ready.unheld
  have hanswer : (s.machine.newObject t env).1 =
      (MarkSweep.allocate t s.calls s.machine.toArena).1 := (newObject_of_active hs hactive).1
  rw [hanswer]
  exact hserved.exhausted_iff.trans (MarkSweep.free_refilled_eq_nil_iff hs.ready)

/-- What a request of a frame for an object comes to, and that it is refused for want of memory only
when there is none. -/
structure Exhaustion (s : Session MarkSweep) (t : Thread) (env : Env) : Prop where
  exhausted_iff : (s.machine.newObject t env).1 = .error .outOfMemory ↔
    ∀ h, 1 ≤ h → h < s.machine.heap.size → s.machine.heap.Reaches s.calls.roots h
  free : s.machine.allocator.free ≠ [] →
    ∃ h ∈ s.machine.allocator.free, (∀ k ∈ s.machine.allocator.free, h ≤ k) ∧
      (s.machine.newObject t env).1 = .ok h
  /-- Where none was free, the lowest cell out of reach is given, if there is one. -/
  unreached : s.machine.allocator.free = [] →
    (∃ k, 1 ≤ k ∧ k < s.machine.heap.size ∧ ¬ s.machine.heap.Reaches s.calls.roots k) →
    ∃ h, 1 ≤ h ∧ h < s.machine.heap.size ∧ ¬ s.machine.heap.Reaches s.calls.roots h ∧
      (∀ k, 1 ≤ k → k < s.machine.heap.size → ¬ s.machine.heap.Reaches s.calls.roots k → h ≤ k) ∧
      (s.machine.newObject t env).1 = .ok h
  /-- A refusal for want of memory leaves cells and frames alone, and of the allocator all but the
  marks and the count of the collection that it ran. -/
  unchanged : (s.machine.newObject t env).1 = .error .outOfMemory →
    (s.machine.newObject t env).2.heap = s.machine.heap ∧
      (s.machine.newObject t env).2.calls = s.calls ∧
      ∃ marks pause, (s.machine.newObject t env).2.allocator =
        { s.machine.allocator with
          marks, stats := s.machine.allocator.stats.countCollection pause 0 }

theorem unchanged_of_exhausted (hs : s.Sound)
    (hm : s.machine.allocator.Balanced s.machine.heap.size)
    (hactive : (s.machine.frame env).state = .active)
    (hempty : (MarkSweep.refilled t s.calls s.machine.toArena).allocator.free = []) :
    (s.machine.newObject t env).2.heap = s.machine.heap ∧
      (s.machine.newObject t env).2.calls = s.calls ∧
      ∃ marks pause, (s.machine.newObject t env).2.allocator =
        { s.machine.allocator with
          marks, stats := s.machine.allocator.stats.countCollection pause 0 } := by
  have hgate : s.machine.gate.lets t = true := Gate.lets_of_unheld hs.ready.unheld
  have hcheck : s.machine.checkActive env = .ok () := Machine.checkActive_eq_ok.2 hactive
  have hallocate : Allocator.allocate t s.machine.calls s.machine.toArena =
    MarkSweep.allocate t s.calls s.machine.toArena := rfl
  have hfree : s.machine.allocator.free = [] := by
    refine Decidable.byContradiction fun hfree => hfree ?_
    rwa [MarkSweep.refilled_of_free hfree] at hempty
  rw [Machine.newObject_eq, hcheck, hallocate, MarkSweep.allocate_eq hm.bound fun _ => hgate,
    MarkSweep.take, hempty]
  rw [MarkSweep.refilled_of_empty hfree, MarkSweep.collect_eq t s.calls hm.bound hgate] at hempty ⊢
  rw [MarkSweep.allocator_report] at hempty
  refine ⟨MarkSweep.heap_report, rfl, ?_⟩
  show ∃ marks pause, (MarkSweep.report _ t _).allocator = _
  rw [MarkSweep.allocator_report]
  exact MarkSweep.collected_of_free_eq_nil hm.idle hempty

/-- In every session of orderly moves over mark and sweep, an active frame that asks for an object
is refused for want of memory just when all cells are in use. -/
theorem Ran.exhaustion {first : Thread} {heap : Heap} {maxPause : Duration}
    {clock : Nat → Duration} {config : MachineConfig} {start : Machine MarkSweep}
    {past : List Move}
    (hbuild : Machine.build first heap { MarkSweep.fresh maxPause with clock } config = .ok start)
    (hran : Ran start past s) (horderly : Orderly past)
    (hactive : (s.machine.frame env).state = .active) : s.Exhaustion t env := by
  have hs := hran.sound hbuild horderly
  have hm := hran.balanced hbuild horderly
  have hserved : s.site.Served t := Site.served_of_balanced hm fun _ =>
    Gate.lets_of_unheld hs.ready.unheld
  have hanswer : (s.machine.newObject t env).1 =
      (MarkSweep.allocate t s.calls s.machine.toArena).1 := (newObject_of_active hs hactive).1
  have hcells : ∀ {h : Handle}, s.machine.heap.contains h = true ↔
      1 ≤ h ∧ h < s.machine.heap.size := by
    intro h
    rw [Heap.contains_iff, Nat.one_le_iff_ne_zero]
  refine ⟨?_, fun hfree => ?_, fun hfree hspare => ?_, fun hout => ?_⟩
  · refine (newObject_exhausted_iff hs hm hactive).trans ?_
    exact forall_congr' fun h => by rw [hcells, and_imp]
  · rw [hanswer]
    have hsame : MarkSweep.refilled t s.site.calls s.site.arena = s.machine.toArena :=
      MarkSweep.refilled_of_free hfree
    obtain ⟨h, hmem, hleast, hok⟩ := hserved.exists_least (by rwa [hsame])
    rw [hsame] at hmem hleast
    exact ⟨h, hmem, hleast, hok⟩
  · rw [hanswer]
    have hmem : ∀ {h : Handle},
        h ∈ (MarkSweep.refilled t s.site.calls s.site.arena).allocator.free ↔
          (1 ≤ h ∧ h < s.machine.heap.size) ∧ ¬ s.machine.heap.Reaches s.calls.roots h :=
      (MarkSweep.mem_free_refilled_iff hs.ready hfree).trans (and_congr_left' hcells)
    obtain ⟨k, hpos, hlt, hspare⟩ := hspare
    obtain ⟨h, hgiven, hleast, hok⟩ := hserved.exists_least
      (List.ne_nil_of_mem (hmem.2 ⟨⟨hpos, hlt⟩, hspare⟩))
    obtain ⟨⟨hpos, hlt⟩, hunreached⟩ := hmem.1 hgiven
    exact ⟨h, hpos, hlt, hunreached,
      fun k hk hklt hkun => hleast k (hmem.2 ⟨⟨hk, hklt⟩, hkun⟩), hok⟩
  · rw [hanswer] at hout
    exact unchanged_of_exhausted hs hm hactive (hserved.exhausted_iff.1 hout)

/-- A run begins and makes two objects. -/
def filling : List (Thread × Action) :=
  [(0, .beginRun "entry" []), (0, .newObject ⟨0, 0⟩), (0, .newObject ⟨0, 0⟩)]

/-- What is said of all sessions, said of one whose frame holds both cells that there are, so that
its third request is refused. -/
theorem exhaustion_of_filling :
    ∃ (start : Machine MarkSweep) (past : List Move) (s : Session MarkSweep),
      Machine.build Thread.first (.ofSize 3 1)
          { MarkSweep.fresh .zero with clock := fun _ => .zero } .standard = .ok start ∧
        Ran start past s ∧ s.calls.roots = [1, 2] ∧ s.Exhaustion 0 ⟨0, 0⟩ ∧
        (s.machine.newObject 0 ⟨0, 0⟩).1 = .error .outOfMemory := by
  have hseen : observed (.ofSize 3 1) { MarkSweep.fresh .zero with clock := fun _ => .zero } filling
      (fun _ s => (s.calls.roots, s.machine.heap.size, (s.machine.frame ⟨0, 0⟩).state)) =
        some ([1, 2], 3, .active) := by decide +kernel
  obtain ⟨start, past, s, hbuild, hran, hpast, hsights⟩ := exists_ran_of_observed hseen
  obtain ⟨hroots, hsize, hactive⟩ := by simpa only [Prod.mk.injEq] using hsights
  have hexhaustion : s.Exhaustion 0 ⟨0, 0⟩ :=
    hran.exhaustion hbuild (orderly_of_script hpast (by decide)) hactive
  refine ⟨start, past, s, hbuild, hran, hroots, hexhaustion,
    hexhaustion.exhausted_iff.2 fun h hpos hlt => .root ?_⟩
  rw [hsize] at hlt
  rw [hroots]
  interval_cases h <;> decide

end Session

end RootedHeap
