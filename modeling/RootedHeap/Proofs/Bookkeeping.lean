import Mathlib.Data.List.Perm.Subperm
import Mathlib.Data.List.Permutation
import RootedHeap.Proofs.Collectors
import RootedHeap.Proofs.Shapes

/-!
The books of mark and sweep, kept over any sequence of bindings, requests and collections. In
between anybody may write any cell, change the tables that the roots come from in any way, pass the
gate and stop it. `Site` is such a place, `Site.Ran` its runs.

The books are balanced when the free list holds each cell without a flag once, in order, and the
three numbers that the allocator keeps agree: the free cells and those ever handed out are all the
cells and those ever taken back. One collection and one request keep the balance, so all runs do;
`Site.Ran.booked` reads off what this says about the next request.
-/

namespace RootedHeap

/-! ### What raw requests to a cell leave alone -/

theorem Heap.size_copyInto {heap heap' : Heap} {h : Handle} {source : Cell}
    (hcopy : heap.copyInto h source = .ok heap') : heap'.size = heap.size := by
  unfold Heap.copyInto at hcopy
  cases hcell : heap.cell h with
  | error fault =>
    rw [hcell] at hcopy
    cases hcopy
  | ok cell =>
    rw [hcell] at hcopy
    cases hafter : cell.copyFrom source with
    | error fault =>
      simp only [bind, Except.bind, hafter] at hcopy
      cases hcopy
    | ok after =>
      simp only [bind, Except.bind, hafter] at hcopy
      obtain rfl := Except.ok.inj hcopy
      exact size_modify

/-! ### Books in balance -/

namespace MarkSweep

/-- Books that fit a heap of `size` handles, between operations, whose numbers agree. -/
structure Balanced (m : MarkSweep) (size : Nat) : Prop extends m.Fits size where
  idle : m.phase = .idle
  balance : m.free.length + m.stats.allocations = size - 1 + m.stats.reclaimed

variable {m : MarkSweep} {heap : Heap} {h : Handle} {size : Nat}

/-- The free list is no longer than there are cells. -/
theorem Fits.length_free_le (hm : m.Fits size) : m.free.length ≤ size - 1 := by
  have hnodup : m.free.Nodup := hm.sorted.imp Nat.ne_of_lt
  have hsub : m.free ⊆ List.range' 1 (size - 1) := by
    intro k hk
    obtain ⟨k0, hlt, -⟩ := (hm.free_iff k).1 hk
    have hpos : 1 ≤ k := Nat.pos_of_ne_zero k0
    exact List.mem_range'_1.2 ⟨hpos, Nat.lt_of_lt_of_le hlt (by omega)⟩
  have hlength := (List.subperm_of_subset hnodup hsub).length_le
  rwa [List.length_range'] at hlength

theorem Balanced.reclaimed_le (hm : m.Balanced size) : m.stats.reclaimed ≤ m.stats.allocations := by
  have hlength := hm.length_free_le
  have hbalance := hm.balance
  omega

/-- What a sweep finds dead comes on top of what was free. -/
theorem length_free_collected (roots : List Handle) :
    (m.collected heap roots).free.length =
      m.free.length + (m.found heap roots).reclaimed :=
  List.length_merge _ _ _

/-- A collection keeps the balance: what comes free is counted as taken back. -/
theorem Balanced.collected (hm : m.Balanced heap.size) (roots : List Handle) :
    (m.collected heap roots).Balanced heap.size where
  toFits := hm.toFits.collected roots
  idle := rfl
  balance := by
    have hbalance := hm.balance
    have hallocations : (m.collected heap roots).stats.allocations = m.stats.allocations := rfl
    have hreclaimed : (m.collected heap roots).stats.reclaimed =
      m.stats.reclaimed + (m.found heap roots).reclaimed := rfl
    rw [length_free_collected, hallocations, hreclaimed]
    omega

/-- Handing out the first free cell keeps the balance: there is one less, and one more counted. -/
theorem Balanced.take {free : List Handle} (hm : m.Balanced size) (hfree : m.free = h :: free) :
    Balanced
      { m with
        free, allocated := m.allocated.setIfInBounds h true, stats := m.stats.countAllocation }
      size where
  toFits := (hm.toFits.take m.stats.countAllocation hfree).1
  idle := hm.idle
  balance := by
    have hbalance := hm.balance
    rw [hfree, List.length_cons] at hbalance
    show free.length + (m.stats.allocations + 1) = size - 1 + m.stats.reclaimed
    omega

/-! ### What a bound allocator comes to -/

variable {t : Thread} {calls : CallStacks} {a : Arena MarkSweep}

/-- The arena in which a request looks for a free cell: after a collection if none was free. -/
def refilled (t : Thread) (calls : CallStacks) (a : Arena MarkSweep) : Arena MarkSweep :=
  if a.allocator.free.isEmpty then (collect t calls a).2 else a

/-- A request of a bound allocator, if the gate lets it collect where it has to, takes a cell from
the refilled list. -/
theorem allocate_eq (hbound : a.allocator.binding.isSome)
    (hgate : a.allocator.free = [] → a.gate.lets t = true) :
    allocate t calls a = take t (refilled t calls a) := by
  obtain ⟨binding, hbinding⟩ := Option.isSome_iff_exists.1 hbound
  unfold allocate refilled
  rw [hbinding]
  dsimp only
  split
  · rename_i hempty
    rw [collect_eq t calls hbound (hgate (List.isEmpty_iff.1 hempty))]
  · rfl

theorem collect_keeps (calls : CallStacks) (hm : a.allocator.Balanced a.heap.size)
    (hgate : a.gate.lets t = true) :
    (collect t calls a).2.allocator.Balanced a.heap.size ∧ (collect t calls a).2.heap = a.heap := by
  rw [collect_eq t calls hm.bound hgate, allocator_report, heap_report]
  exact ⟨hm.collected calls.roots, rfl⟩

theorem refilled_keeps (calls : CallStacks) (hm : a.allocator.Balanced a.heap.size)
    (hgate : a.allocator.free = [] → a.gate.lets t = true) :
    (refilled t calls a).allocator.Balanced a.heap.size ∧ (refilled t calls a).heap = a.heap := by
  unfold refilled
  split
  · rename_i hempty
    exact collect_keeps calls hm (hgate (List.isEmpty_iff.1 hempty))
  · exact ⟨hm, rfl⟩

/-- A request on a full list: the first cell of it, cleared, and the rest of the list. -/
theorem take_eq {free : List Handle} (hm : a.allocator.Fits a.heap.size)
    (hfree : a.allocator.free = h :: free) :
    take t a =
      (.ok h,
        { a with
          heap := a.heap.clear h
          allocator :=
            { a.allocator with
              free
              allocated := a.allocator.allocated.setIfInBounds h true
              stats := a.allocator.stats.countAllocation } }) := by
  obtain ⟨h0, hlt, -⟩ := (hm.free_iff h).1 (hfree ▸ List.mem_cons_self)
  obtain ⟨cell, hok, -⟩ := Heap.cell_of_contains (Heap.contains_iff.2 ⟨h0, hlt⟩)
  unfold take
  rw [hfree]
  dsimp only
  rw [hok]

theorem take_keeps (hm : a.allocator.Balanced a.heap.size) :
    (take t a).2.allocator.Balanced a.heap.size ∧ (take t a).2.heap.size = a.heap.size := by
  cases hfree : a.allocator.free with
  | nil =>
    unfold take
    rw [hfree]
    exact ⟨hm, rfl⟩
  | cons h free =>
    rw [take_eq hm.toFits hfree]
    exact ⟨hm.take hfree, Heap.size_clear⟩

theorem allocate_keeps (calls : CallStacks) (hm : a.allocator.Balanced a.heap.size)
    (hgate : a.allocator.free = [] → a.gate.lets t = true) :
    (allocate t calls a).2.allocator.Balanced a.heap.size ∧
      (allocate t calls a).2.heap.size = a.heap.size := by
  obtain ⟨hrefilled, hheap⟩ := refilled_keeps calls hm hgate
  rw [← hheap] at hrefilled
  rw [allocate_eq hm.bound hgate, ← hheap]
  exact take_keeps hrefilled

/-- An open gate that has seen one pause for each collection. -/
structure Paused (a : Arena MarkSweep) : Prop where
  unheld : a.gate.holder = none
  pauses : a.gate.pauses = a.allocator.stats.collections

theorem Paused.collect (ha : Paused a) (hbound : a.allocator.binding.isSome) :
    Paused (collect t calls a).2 := by
  rw [collect_eq t calls hbound (Gate.lets_of_unheld ha.unheld)]
  constructor
  · rw [gate_report, Gate.reopen_close ha.unheld]
  · rw [gate_report, Gate.reopen_close ha.unheld, allocator_report]
    exact congrArg (· + 1) ha.pauses

theorem Paused.take (ha : Paused a) : Paused (take t a).2 := by
  unfold MarkSweep.take
  split
  · exact ⟨ha.unheld, ha.pauses⟩
  · split <;> exact ⟨ha.unheld, ha.pauses⟩

theorem Paused.allocate (ha : Paused a) (hbound : a.allocator.binding.isSome) :
    Paused (allocate t calls a).2 := by
  rw [allocate_eq hbound fun _ => Gate.lets_of_unheld ha.unheld]
  refine Paused.take ?_
  unfold refilled
  split
  · exact ha.collect hbound
  · exact ha

/-- Binding a fresh allocator puts its books in balance: all cells are free. -/
theorem balanced_bind (hnone : a.allocator.binding = none) (hidle : a.allocator.phase = .idle)
    (hstats : a.allocator.stats = .none) :
    (bind t a).1 = .ok () ∧ (bind t a).2.allocator.Balanced a.heap.size ∧
      (bind t a).2.heap = a.heap ∧ (bind t a).2.gate = a.gate ∧
      (bind t a).2.allocator.stats = .none := by
  unfold bind
  rw [hnone]
  refine ⟨rfl, ⟨⟨rfl, Array.size_replicate, Array.size_replicate, List.pairwise_lt_range', ?_, ?_⟩,
    hidle, ?_⟩, rfl, rfl, hstats⟩
  · intro h
    have hflag : Marks.has (Array.replicate a.heap.size false) h = false := Marks.has_none
    exact Heap.mem_handles_iff.trans (Heap.contains_iff.trans
      ⟨fun hh => ⟨hh.1, hh.2, hflag⟩, fun hh => ⟨hh.1, hh.2.1⟩⟩)
  · intro h hh
    have hflag : Marks.has (Array.replicate a.heap.size false) h = false := Marks.has_none
    exact absurd (hflag.symm.trans hh) Bool.false_ne_true
  · show (List.range' 1 a.heap.cells.size).length + a.allocator.stats.allocations = _ +
      a.allocator.stats.reclaimed
    rw [hstats, List.length_range']
    rfl

end MarkSweep

/-! ### An allocator at work -/

/-- An allocator at work: its arena, and the tables that its roots come from. -/
structure Site where
  arena : Arena MarkSweep
  calls : CallStacks

namespace Site

open MarkSweep

/-- What happens at a site. -/
inductive Act where
  | bind (t : Thread)
  | allocate (t : Thread)
  | collect (t : Thread)
  | request (h : Handle) (command : CellCommand)
  | copy (h : Handle) (source : Cell)
  | reroot (calls : CallStacks)
  | enter (t : Thread)
  | leave (t : Thread)
  | stop (t : Thread)
  | resume (t : Thread)

/-- Whether it is the allocator that is asked. -/
def Act.asks : Act → Bool
  | .bind _ | .allocate _ | .collect _ => true
  | _ => false

/-- An allocator that was never bound, whatever its clock will say, over a heap that may hold
anything, at a gate that nobody has passed. -/
def opening (maxPause : Duration) (clock : Nat → Duration) (heap : Heap) (calls : CallStacks) :
    Site :=
  ⟨⟨{ MarkSweep.fresh maxPause with clock }, heap, .fresh, #[]⟩, calls⟩

def withHeap (s : Site) (heap : Heap) : Site := { s with arena := { s.arena with heap } }

def withGate (s : Site) (gate : Gate) : Site := { s with arena := { s.arena with gate } }

def after (s : Site) : Act → Site
  | .bind t => { s with arena := (MarkSweep.bind t s.arena).2 }
  | .allocate t => { s with arena := (MarkSweep.allocate t s.calls s.arena).2 }
  | .collect t => { s with arena := (MarkSweep.collect t s.calls s.arena).2 }
  | .request h command =>
    match s.arena.heap.perform h command with
    | .ok (_, heap) => s.withHeap heap
    | .error _ => s
  | .copy h source =>
    match s.arena.heap.copyInto h source with
    | .ok heap => s.withHeap heap
    | .error _ => s
  | .reroot calls => { s with calls }
  | .enter t => s.withGate (s.arena.gate.enter t)
  | .leave t => s.withGate (s.arena.gate.leave t)
  | .stop t => { s with arena := s.arena.stop t }
  | .resume t => { s with arena := s.arena.resume t }

/-- Whether a thread that stops comes through right away. -/
def stoppable (s : Site) (t : Thread) : Prop :=
  s.arena.gate.lets t = true ∧ s.arena.gate.quiet t = true

/-- Whether something can happen right away; what would have to wait at the gate cannot. -/
def admits (s : Site) : Act → Prop
  | .collect t => s.arena.allocator.binding.isSome → s.stoppable t
  | .allocate t =>
    s.arena.allocator.binding.isSome → s.arena.allocator.free = [] → s.stoppable t
  | .enter t => s.arena.gate.lets t = true
  | .stop t => s.stoppable t
  | _ => True

/-- The sites that a sequence of happenings leads to, the latest first. -/
inductive Ran (start : Site) : List Act → Site → Prop
  | start : Ran start [] start
  | act {past : List Act} {s : Site} {act : Act} (ran : Ran start past s)
    (admitted : s.admits act) : Ran start (act :: past) (s.after act)

variable {s start : Site} {act : Act} {past : List Act} {t : Thread}

/-- Before it is bound an allocator has nothing in its books, afterwards they are balanced. -/
inductive Booked (s : Site) : Prop
  | unbound (none : s.arena.allocator.binding = none) (idle : s.arena.allocator.phase = .idle)
    (stats : s.arena.allocator.stats = .none)
  | bound (balanced : s.arena.allocator.Balanced s.arena.heap.size)

theorem Booked.of_same {s' : Site} (h : s.Booked)
    (hallocator : s'.arena.allocator = s.arena.allocator)
    (hsize : s'.arena.heap.size = s.arena.heap.size) : s'.Booked := by
  cases h with
  | unbound none idle stats =>
    exact .unbound (by rw [hallocator, none]) (by rw [hallocator, idle]) (by rw [hallocator, stats])
  | bound balanced => exact .bound (by rw [hallocator, hsize]; exact balanced)

theorem allocate_unbound (hnone : s.arena.allocator.binding = none) (t : Thread) :
    MarkSweep.allocate t s.calls s.arena = (.error (.invalidState .unbound), s.arena) := by
  unfold MarkSweep.allocate
  rw [hnone]

theorem collect_unbound (hnone : s.arena.allocator.binding = none) (t : Thread) :
    MarkSweep.collect t s.calls s.arena = (.error (.invalidState .unbound), s.arena) := by
  unfold MarkSweep.collect
  rw [hnone]

/-- Whatever arena a bound allocator is asked to bind to, it refuses. -/
theorem bind_bound {a : Arena MarkSweep} (hbound : a.allocator.binding.isSome) (t : Thread) :
    MarkSweep.bind t a = (.error (.invalidState .alreadyBound), a) := by
  obtain ⟨binding, hbinding⟩ := Option.isSome_iff_exists.1 hbound
  unfold MarkSweep.bind
  rw [hbinding]

/-- What happens outside of the allocator touches neither it nor the size of the heap. -/
theorem after_outside (hact : act.asks = false) :
    (s.after act).arena.allocator = s.arena.allocator ∧
      (s.after act).arena.heap.size = s.arena.heap.size := by
  cases act with
  | bind t => cases hact
  | allocate t => cases hact
  | collect t => cases hact
  | request h command =>
    simp only [after]
    split
    · rename_i hperform
      exact ⟨rfl, (Heap.SameShape.perform hperform).size⟩
    · exact ⟨rfl, rfl⟩
  | copy h source =>
    simp only [after]
    split
    · rename_i hcopy
      exact ⟨rfl, Heap.size_copyInto hcopy⟩
    · exact ⟨rfl, rfl⟩
  | resume t =>
    simp only [after, Arena.resume]
    split <;> exact ⟨rfl, rfl⟩
  | _ => exact ⟨rfl, rfl⟩

/-- Whatever happens keeps the books. -/
theorem Booked.after (h : s.Booked) (hadmits : s.admits act) : (s.after act).Booked := by
  cases act with
  | bind t =>
    cases h with
    | unbound none idle stats =>
      obtain ⟨-, hbalanced, hheap, -⟩ := balanced_bind (t := t) none idle stats
      refine .bound ?_
      show Balanced _ (MarkSweep.bind t s.arena).2.heap.size
      rw [hheap]
      exact hbalanced
    | bound balanced =>
      exact Booked.of_same (.bound balanced) (by rw [Site.after, bind_bound balanced.bound])
        (by rw [Site.after, bind_bound balanced.bound])
  | allocate t =>
    cases h with
    | unbound none idle stats =>
      exact Booked.of_same (.unbound none idle stats) (by rw [Site.after, allocate_unbound none])
        (by rw [Site.after, allocate_unbound none])
    | bound balanced =>
      obtain ⟨hkept, hsize⟩ := allocate_keeps s.calls balanced fun hfree =>
        (hadmits balanced.bound hfree).1
      refine .bound ?_
      show Balanced _ (MarkSweep.allocate t s.calls s.arena).2.heap.size
      rw [hsize]
      exact hkept
  | collect t =>
    cases h with
    | unbound none idle stats =>
      exact Booked.of_same (.unbound none idle stats) (by rw [Site.after, collect_unbound none])
        (by rw [Site.after, collect_unbound none])
    | bound balanced =>
      obtain ⟨hcollected, hheap⟩ := collect_keeps s.calls balanced
        (hadmits balanced.bound).1
      refine .bound ?_
      show Balanced _ (MarkSweep.collect t s.calls s.arena).2.heap.size
      rw [hheap]
      exact hcollected
  | _ => exact h.of_same (after_outside rfl).1 (after_outside rfl).2

theorem Booked.phase_eq (h : s.Booked) : s.arena.allocator.phase = .idle := by
  cases h with
  | unbound none idle stats => exact idle
  | bound balanced => exact balanced.idle

theorem Ran.books {maxPause : Duration} {clock : Nat → Duration} {heap : Heap} {calls : CallStacks}
    (hran : Ran (.opening maxPause clock heap calls) past s) : s.Booked := by
  induction hran with
  | start => exact .unbound rfl rfl rfl
  | act ran admitted ih => exact ih.after admitted

/-- An allocator is bound once it was asked to bind, and stays so. -/
theorem binding_after (h : s.Booked) (hadmits : s.admits act) :
    (s.after act).arena.allocator.binding.isSome ↔
      (∃ t, act = .bind t) ∨ s.arena.allocator.binding.isSome := by
  cases act with
  | bind t =>
    simp only [Act.bind.injEq, exists_eq', true_or, iff_true]
    cases h with
    | unbound none idle stats => exact (balanced_bind none idle stats).2.1.bound
    | bound balanced =>
      rw [Site.after, bind_bound balanced.bound]
      exact balanced.bound
  | allocate t =>
    simp only [reduceCtorEq, exists_false, false_or]
    cases h with
    | unbound none idle stats => rw [Site.after, allocate_unbound none]
    | bound balanced =>
      have hkept := allocate_keeps s.calls balanced fun hfree =>
        (hadmits balanced.bound hfree).1
      exact iff_of_true hkept.1.bound balanced.bound
  | collect t =>
    simp only [reduceCtorEq, exists_false, false_or]
    cases h with
    | unbound none idle stats => rw [Site.after, collect_unbound none]
    | bound balanced =>
      exact iff_of_true (collect_keeps s.calls balanced (hadmits balanced.bound).1).1.bound
        balanced.bound
  | _ =>
    simp only [reduceCtorEq, exists_false, false_or]
    rw [(after_outside rfl).1]

/-- Without stops of others each collection is one pause. -/
theorem paused_after (h : s.Booked) (hpaused : Paused s.arena) (hact : ∀ t, act ≠ .stop t) :
    Paused (s.after act).arena := by
  cases act with
  | bind t =>
    cases h with
    | unbound none idle stats =>
      obtain ⟨-, -, -, hgate, hstats⟩ := balanced_bind (t := t) none idle stats
      constructor
      · exact (congrArg Gate.holder hgate).trans hpaused.unheld
      · show (MarkSweep.bind t s.arena).2.gate.pauses =
          (MarkSweep.bind t s.arena).2.allocator.stats.collections
        rw [hgate, hstats, hpaused.pauses, stats]
    | bound balanced =>
      rw [Site.after, bind_bound balanced.bound]
      exact hpaused
  | allocate t =>
    cases h with
    | unbound none idle stats =>
      rw [Site.after, allocate_unbound none]
      exact hpaused
    | bound balanced => exact hpaused.allocate balanced.bound
  | collect t =>
    cases h with
    | unbound none idle stats =>
      rw [Site.after, collect_unbound none]
      exact hpaused
    | bound balanced => exact hpaused.collect balanced.bound
  | request h command =>
    simp only [after]
    split <;> exact ⟨hpaused.unheld, hpaused.pauses⟩
  | copy h source =>
    simp only [after]
    split <;> exact ⟨hpaused.unheld, hpaused.pauses⟩
  | stop t => exact absurd rfl (hact t)
  | resume t =>
    -- nobody holds a stop, so this one is unmatched
    have hheld : s.arena.gate.heldBy t = false := by
      rw [Gate.heldBy, hpaused.unheld]
      rfl
    simp only [after, Arena.resume, Gate.resume?, hheld, Bool.false_eq_true, ↓reduceIte]
    exact ⟨hpaused.unheld, hpaused.pauses⟩
  | _ => exact ⟨hpaused.unheld, hpaused.pauses⟩

/-! ### What comes of it -/

/-- What the books of a bound allocator say. -/
structure Tidy (m : MarkSweep) (size : Nat) : Prop where
  /-- The free cells as a stack, the next one last. -/
  descending : m.free.reverse.Pairwise (· > ·)
  cells : ∀ h ∈ m.free, 1 ≤ h ∧ h < size
  either : ∀ h, 1 ≤ h → h < size → Xor (h ∈ m.free) (m.hasAllocated h = true)
  reclaimed_le : m.stats.reclaimed ≤ m.stats.allocations
  given_le : m.stats.allocations - m.stats.reclaimed ≤ size - 1
  freeCells_eq : m.freeCells = size - 1 - (m.stats.allocations - m.stats.reclaimed)

/-- What a request comes to: the least cell of the refilled list, cleared, or no memory if that list
is empty. -/
structure Served (s : Site) (t : Thread) : Prop where
  answered : (MarkSweep.allocate t s.calls s.arena).1 = .error .outOfMemory ∨
    ∃ h, (MarkSweep.allocate t s.calls s.arena).1 = .ok h
  ok_iff : ∀ h, (MarkSweep.allocate t s.calls s.arena).1 = .ok h ↔
    h ∈ (refilled t s.calls s.arena).allocator.free ∧
      ∀ k ∈ (refilled t s.calls s.arena).allocator.free, h ≤ k
  exhausted_iff : (MarkSweep.allocate t s.calls s.arena).1 = .error .outOfMemory ↔
    (refilled t s.calls s.arena).allocator.free = []
  cleared : ∀ h, (MarkSweep.allocate t s.calls s.arena).1 = .ok h →
    (MarkSweep.allocate t s.calls s.arena).2.heap.words h =
      List.replicate (s.arena.heap.words h).length 0
  taken : ∀ h, (MarkSweep.allocate t s.calls s.arena).1 = .ok h →
    (refilled t s.calls s.arena).allocator.free =
      h :: (MarkSweep.allocate t s.calls s.arena).2.allocator.free

/-- A list with a cell on it has a least one, and that is given. -/
theorem Served.exists_least (h : s.Served t)
    (hne : (refilled t s.calls s.arena).allocator.free ≠ []) :
    ∃ o ∈ (refilled t s.calls s.arena).allocator.free,
      (∀ k ∈ (refilled t s.calls s.arena).allocator.free, o ≤ k) ∧
        (MarkSweep.allocate t s.calls s.arena).1 = .ok o := by
  rcases h.answered with hout | ⟨o, hok⟩
  · exact absurd (h.exhausted_iff.1 hout) hne
  · obtain ⟨hmem, hleast⟩ := (h.ok_iff o).1 hok
    exact ⟨o, hmem, hleast, hok⟩

theorem tidy_of_balanced {m : MarkSweep} {size : Nat} (hm : m.Balanced size) : Tidy m size := by
  have hlength := hm.length_free_le
  have hbalance := hm.balance
  refine ⟨?_, fun h hfree => ?_, fun h hpos hlt => ?_, hm.reclaimed_le, by omega, ?_⟩
  · exact List.pairwise_reverse.2 hm.sorted
  · obtain ⟨h0, hlt, -⟩ := (hm.free_iff h).1 hfree
    exact ⟨Nat.pos_of_ne_zero h0, hlt⟩
  · have hfree := hm.free_iff h
    cases hflag : m.hasAllocated h with
    | true => exact .inr ⟨rfl, fun hmem => nomatch hflag.symm.trans (hfree.1 hmem).2.2⟩
    | false => exact .inl ⟨hfree.2 ⟨Nat.ne_of_gt hpos, hlt, hflag⟩, Bool.false_ne_true⟩
  · unfold freeCells
    omega

theorem served_of_balanced (hm : s.arena.allocator.Balanced s.arena.heap.size)
    (hgate : s.arena.allocator.free = [] → s.arena.gate.lets t = true) : s.Served t := by
  obtain ⟨hrefilled, hheap⟩ := refilled_keeps s.calls hm hgate
  rw [← hheap] at hrefilled
  cases hfree : (refilled t s.calls s.arena).allocator.free with
  | nil =>
    have hout : (MarkSweep.allocate t s.calls s.arena).1 = .error .outOfMemory := by
      rw [allocate_eq hm.bound hgate, MarkSweep.take, hfree]
    refine ⟨.inl hout, fun h => ?_, iff_of_true hout hfree, fun h hok => ?_, fun h hok => ?_⟩
    · rw [hout, hfree]
      exact ⟨(nomatch ·), fun hh => nomatch hh.1⟩
    · rw [hout] at hok
      cases hok
    · rw [hout] at hok
      cases hok
  | cons least free =>
    have hgiven := take_eq (t := t) hrefilled.toFits hfree
    rw [← allocate_eq hm.bound hgate] at hgiven
    have hsorted : (least :: free).Pairwise (· < ·) := hfree ▸ hrefilled.sorted
    have hleast : ∀ k ∈ least :: free, least ≤ k := fun k hk => by
      rcases List.mem_cons.1 hk with rfl | hk
      · exact Nat.le_refl _
      · exact Nat.le_of_lt (List.rel_of_pairwise_cons hsorted hk)
    refine ⟨.inr ⟨least, by rw [hgiven]⟩, fun h => ?_, ?_, fun h hok => ?_, fun h hok => ?_⟩
    · rw [hgiven, hfree]
      constructor
      · intro hok
        obtain rfl := Except.ok.inj hok
        exact ⟨List.mem_cons_self, hleast⟩
      · rintro ⟨hmem, hle⟩
        exact congrArg _ (Nat.le_antisymm (hleast h hmem) (hle least List.mem_cons_self))
    · rw [hgiven, hfree]
      exact iff_of_false nofun nofun
    · rw [hgiven] at hok ⊢
      obtain rfl := Except.ok.inj hok
      show ((refilled t s.calls s.arena).heap.clear least).words least = _
      rw [Heap.words_clear, if_pos rfl, hheap]
    · rw [hgiven] at hok ⊢
      obtain rfl := Except.ok.inj hok
      exact hfree

/-- What can be relied on at a site, given what happened there. -/
structure InOrder (s : Site) (past : List Act) : Prop where
  idle : s.arena.allocator.phase = .idle
  /-- Before an allocator is bound it refuses all else and changes nothing. -/
  unbound : (∀ t, .bind t ∉ past) → ∀ t,
    (MarkSweep.bind t s.arena).1 = .ok () ∧
      MarkSweep.allocate t s.calls s.arena = (.error (.invalidState .unbound), s.arena) ∧
      MarkSweep.collect t s.calls s.arena = (.error (.invalidState .unbound), s.arena)
  /-- Afterwards it refuses to be bound again, and changes nothing. -/
  rebound : ∀ t u (a : Arena MarkSweep), .bind t ∈ past → a.allocator = s.arena.allocator →
    MarkSweep.bind u a = (.error (.invalidState .alreadyBound), a)
  tidy : ∀ t, .bind t ∈ past → Tidy s.arena.allocator s.arena.heap.size
  served : ∀ t u, .bind t ∈ past → s.admits (.allocate u) → s.Served u
  collected : ∀ t u, .bind t ∈ past → s.admits (.collect u) →
    ∃ n, (MarkSweep.collect u s.calls s.arena).1 = .ok n ∧
      (MarkSweep.collect u s.calls s.arena).2.allocator.freeCells =
        s.arena.allocator.freeCells + n
  pauses : (∀ t, .stop t ∉ past) → s.arena.gate.pauses = s.arena.allocator.stats.collections

section Opened

variable {maxPause : Duration} {clock : Nat → Duration} {heap : Heap} {calls : CallStacks}

theorem Ran.bound_iff (hran : Ran (.opening maxPause clock heap calls) past s) :
    s.arena.allocator.binding.isSome ↔ ∃ t, .bind t ∈ past := by
  induction hran with
  | start => exact iff_of_false Bool.false_ne_true fun ⟨_, hmem⟩ => nomatch hmem
  | act ran admitted ih =>
    rw [binding_after ran.books admitted, ih, ← exists_or]
    simp only [List.mem_cons, eq_comm]

theorem Ran.paused (hran : Ran (.opening maxPause clock heap calls) past s)
    (hstops : ∀ t, .stop t ∉ past) : Paused s.arena := by
  induction hran with
  | start => exact ⟨rfl, rfl⟩
  | act ran admitted ih =>
    refine paused_after ran.books (ih fun t hmem => hstops t (List.mem_cons_of_mem _ hmem)) ?_
    rintro t rfl
    exact hstops t List.mem_cons_self

/-- Whatever happens at a site, and in whichever order, the books of its allocator are in order. -/
theorem Ran.inOrder (hran : Ran (.opening maxPause clock heap calls) past s) : s.InOrder past := by
  have hbooks := hran.books
  have hbalanced : ∀ t, .bind t ∈ past → s.arena.allocator.Balanced s.arena.heap.size := by
    intro t hmem
    have hbound := hran.bound_iff.2 ⟨t, hmem⟩
    cases hbooks with
    | unbound none idle stats =>
      rw [none] at hbound
      cases hbound
    | bound balanced => exact balanced
  refine ⟨hbooks.phase_eq, fun hnever t => ?_, fun t u a hmem hsame => ?_, fun t hmem => ?_,
    fun t u hmem hadmits => ?_, fun t u hmem hadmits => ?_,
    fun hstops => (hran.paused hstops).pauses⟩
  · cases hbooks with
    | unbound none idle stats =>
      exact ⟨(balanced_bind none idle stats).1, allocate_unbound none t, collect_unbound none t⟩
    | bound balanced =>
      obtain ⟨u, hmem⟩ := hran.bound_iff.1 balanced.bound
      exact absurd hmem (hnever u)
  · exact bind_bound (hsame ▸ hran.bound_iff.2 ⟨t, hmem⟩) u
  · exact tidy_of_balanced (hbalanced t hmem)
  · have hm := hbalanced t hmem
    exact served_of_balanced hm fun hfree => (hadmits hm.bound hfree).1
  · have hm := hbalanced t hmem
    rw [collect_eq u s.calls hm.bound (hadmits hm.bound).1, allocator_report]
    exact ⟨_, rfl, length_free_collected s.calls.roots⟩

end Opened

/-- Three cells are handed out, one is written past the frames, and the second is held when a fourth
is asked for. -/
def busy : List Act :=
  [.bind 0, .allocate 0, .allocate 1, .allocate 0, .request 1 (.setData 0 (-5)),
    .reroot ⟨#[⟨0, .active, #[2]⟩], #[⟨0, [0]⟩], [0], 1⟩, .allocate 1]

instance : DecidablePred s.admits
  | .collect t =>
    inferInstanceAs (Decidable (s.arena.allocator.binding.isSome →
      s.arena.gate.lets t = true ∧ s.arena.gate.quiet t = true))
  | .allocate t =>
    inferInstanceAs (Decidable (s.arena.allocator.binding.isSome → s.arena.allocator.free = [] →
      s.arena.gate.lets t = true ∧ s.arena.gate.quiet t = true))
  | .enter t => inferInstanceAs (Decidable (s.arena.gate.lets t = true))
  | .stop t =>
    inferInstanceAs (Decidable (s.arena.gate.lets t = true ∧ s.arena.gate.quiet t = true))
  | .bind _ | .request .. | .copy .. | .reroot _ | .leave _ | .resume _ => .isTrue trivial

/-- The site after a list of happenings, the earliest first, if each can happen right away. -/
def follow (s : Site) : List Act → Option Site
  | [] => some s
  | act :: acts => if s.admits act then (s.after act).follow acts else none

theorem Ran.follow {acts : List Act} {s' : Site} (hran : Ran start past s)
    (hfollow : s.follow acts = some s') : Ran start (acts.reverse ++ past) s' := by
  induction acts generalizing s past with
  | nil =>
    obtain rfl := Option.some.inj hfollow
    exact hran
  | cons act acts ih =>
    rw [Site.follow] at hfollow
    split at hfollow
    · rename_i hadmits
      rw [List.reverse_cons, List.append_assoc]
      exact ih (hran.act hadmits) hfollow
    · cases hfollow

/-- What is said of all sites, said of the one after `busy`: the request found no free cell, so a
collection took two back, and the lower of them was given. -/
theorem inOrder_of_busy :
    ∃ s, Ran (.opening .zero (fun _ => .zero) (.ofSize 4 2) .empty) (busy.reverse ++ []) s ∧
      s.arena.allocator.free = [3] ∧ s.arena.allocator.stats.allocations = 4 ∧
      s.arena.allocator.stats.reclaimed = 2 ∧ s.arena.gate.pauses = 1 ∧
      s.InOrder (busy.reverse ++ []) := by
  have hseen : ((opening .zero (fun _ => .zero) (.ofSize 4 2) .empty).follow busy).map
      (fun s => (s.arena.allocator.free, s.arena.allocator.stats.allocations,
        s.arena.allocator.stats.reclaimed, s.arena.gate.pauses)) = some ([3], 4, 2, 1) := by cbv
  obtain ⟨s, hfollow, hsights⟩ := Option.map_eq_some_iff.1 hseen
  obtain ⟨hfree, hallocations, hreclaimed, hpauses⟩ := by simpa only [Prod.mk.injEq] using hsights
  have hran := Ran.start.follow hfollow
  exact ⟨s, hran, hfree, hallocations, hreclaimed, hpauses, hran.inOrder⟩

end Site

end RootedHeap
