import RootedHeap.Proofs.RunCleanup
import RootedHeap.Proofs.RetiredPast

/-!
Counting up and mark and sweep do the same until something comes back. While no collection has taken
back a cell, the free list is what the counter has not passed, so both hand out the same handles and
run out of memory at the same request. Nothing else that a program can see depends on the strategy:
two machines with the same cells, tables and settings answer every other action alike, also writes
past the frames and panics, and come to the same cells and tables.

`Machine.Parallel` says what two such machines share whatever their allocators are, `Bump.InStep`
what a counter and a free list have in common. `World.InStep.step` is the step lemma.
-/

namespace RootedHeap

/-! ### Machines that differ in their allocators -/

namespace Machine

variable {A B α : Type}

/-- Machines with the same cells, tables and settings, whose gates nobody holds. -/
structure Parallel (m : Machine A) (m' : Machine B) : Prop where
  heap : m'.heap = m.heap
  calls : m'.calls = m.calls
  config : m'.config = m.config
  unheld : m.gate.holder = none
  unheld' : m'.gate.holder = none

/-- What two operations come to when they answer alike and leave machines that are parallel. -/
structure Together (r : α × Machine A) (r' : α × Machine B) : Prop where
  answer : r'.1 = r.1
  machine : r.2.Parallel r'.2

section Parallel

variable {m : Machine A} {m' : Machine B} {env : Env}

/-- Parallel machines correspond with no past retired. -/
theorem parallel_iff : m.Parallel m' ↔ m.RetiresPast 0 0 m' := by
  constructor
  · intro h
    exact ⟨h.heap, h.calls.trans CallStacks.retirePast_zero.symm, h.config, h.unheld, h.unheld'⟩
  · intro h
    exact ⟨h.heap, h.calls.trans CallStacks.retirePast_zero, h.config, h.unheld, h.unheld'⟩

theorem Parallel.frame (h : m.Parallel m') : m'.frame env = m.frame env := by
  rw [Machine.frame, Machine.frame, h.calls]

theorem Parallel.checkActive (h : m.Parallel m') : m'.checkActive env = m.checkActive env := by
  rw [Machine.checkActive, Machine.checkActive, h.frame]

end Parallel

end Machine

/-! ### A counter and a free list -/

/-- A counter and mark and sweep over the same number of handles: what the one has not passed is
what the other has free. -/
structure Bump.InStep (b : Bump) (m : MarkSweep) (size : Nat) : Prop where
  counter : b.Fits size
  books : m.Balanced size
  free : m.free = List.range' b.next (size - b.next)
  allocations : m.stats.allocations = b.stats.allocations

namespace MarkSweep

variable {t : Thread} {calls : CallStacks} {a : Arena MarkSweep} {m : MarkSweep} {heap : Heap}
  {roots : List Handle}

/-- A collection that takes nothing back leaves the free list as it was. -/
theorem free_collected_of_none (hnone : (m.found heap roots).reclaimed = 0) :
    (m.collected heap roots).free = m.free := by
  have hdead : (m.mark heap roots).dead heap = [] := List.eq_nil_of_length_eq_zero hnone
  show m.free.merge ((m.mark heap roots).dead heap) = m.free
  rw [hdead, List.merge_right]

theorem allocator_resume : (a.resume t).allocator = a.allocator := by
  unfold Arena.resume
  split <;> rfl

/-! What was taken back is never counted off again. -/

theorem stats_cycle (found : Answer (List Handle)) : (m.cycle heap found).2.stats = m.stats := by
  cases found <;> rfl

theorem reclaimed_le_collect (t : Thread) (calls : CallStacks) (a : Arena MarkSweep) :
    a.allocator.stats.reclaimed ≤ (collect t calls a).2.allocator.stats.reclaimed := by
  have hstats : ((a.stop t).allocator.cycle (a.stop t).heap
    ((a.stop t).enumerate t calls)).2.stats = a.allocator.stats := stats_cycle _
  unfold collect
  split
  · exact Nat.le_refl _
  · dsimp only
    generalize (a.stop t).allocator.cycle (a.stop t).heap ((a.stop t).enumerate t calls) = cycled
      at hstats ⊢
    obtain ⟨fault | found, m⟩ := cycled
    · dsimp only at hstats ⊢
      rw [allocator_resume]
      exact Nat.le_of_eq (congrArg Stats.reclaimed hstats).symm
    · dsimp only at hstats ⊢
      rw [allocator_report]
      dsimp only [Arena.withAllocator]
      rw [allocator_resume]
      show a.allocator.stats.reclaimed ≤ m.stats.reclaimed + found.reclaimed
      rw [hstats]
      exact Nat.le_add_right _ _

theorem reclaimed_take : (take t a).2.allocator.stats.reclaimed = a.allocator.stats.reclaimed := by
  unfold take
  split
  · rfl
  · split <;> rfl

theorem reclaimed_le_allocate (t : Thread) (calls : CallStacks) (a : Arena MarkSweep) :
    a.allocator.stats.reclaimed ≤ (allocate t calls a).2.allocator.stats.reclaimed := by
  have hcollect := reclaimed_le_collect t calls a
  unfold allocate
  split
  · exact Nat.le_refl _
  · split
    · generalize collect t calls a = collected at hcollect
      rcases collected with ⟨fault | n, a'⟩
      · exact hcollect
      · dsimp only
        rw [reclaimed_take]
        exact hcollect
    · rw [reclaimed_take]

end MarkSweep

namespace Bump.InStep

variable {t : Thread} {calls : CallStacks} {a : Arena Bump} {a' : Arena MarkSweep}

/-- A collection that takes nothing back frees none, and changes nothing that a program sees. -/
theorem collect {b : Bump} (h : b.InStep a'.allocator a'.heap.size)
    (hgate : a'.gate.holder = none)
    (hnone : (MarkSweep.collect t calls a').2.allocator.stats.reclaimed =
      a'.allocator.stats.reclaimed) :
    (MarkSweep.collect t calls a').1 = .ok 0 ∧ (MarkSweep.collect t calls a').2.heap = a'.heap ∧
      (MarkSweep.collect t calls a').2.gate.holder = none ∧
      b.InStep (MarkSweep.collect t calls a').2.allocator a'.heap.size := by
  rw [MarkSweep.collect_eq t calls h.books.bound (Gate.lets_of_unheld hgate)] at hnone ⊢
  rw [MarkSweep.allocator_report] at hnone
  have hcount : a'.allocator.stats.reclaimed +
      (a'.allocator.found a'.heap calls.roots).reclaimed = a'.allocator.stats.reclaimed := hnone
  have hfound : (a'.allocator.found a'.heap calls.roots).reclaimed = 0 := by omega
  refine ⟨congrArg Except.ok hfound, MarkSweep.heap_report, ?_, ?_⟩
  · rw [MarkSweep.gate_report, Gate.reopen_close hgate]
  · rw [MarkSweep.allocator_report]
    refine ⟨h.counter, h.books.collected calls.roots, ?_, h.allocations⟩
    rw [MarkSweep.free_collected_of_none hfound, h.free]

/-- The counter and the free list answer a request alike. -/
theorem take (calls : CallStacks) (hheap : a'.heap = a.heap)
    (h : a.allocator.InStep a'.allocator a'.heap.size) :
    (MarkSweep.take t a').1 = (Bump.allocate t calls a).1 ∧
      (MarkSweep.take t a').2.heap = (Bump.allocate t calls a).2.heap ∧
      (MarkSweep.take t a').2.gate = a'.gate ∧ (Bump.allocate t calls a).2.gate = a.gate ∧
      (Bump.allocate t calls a).2.allocator.InStep (MarkSweep.take t a').2.allocator
        a'.heap.size := by
  obtain ⟨binding, hbound⟩ := Option.isSome_iff_exists.1 h.counter.bound
  rcases Nat.lt_or_ge a.allocator.next a.heap.size with hlt | hge
  · have hrange : a.heap.size - a.allocator.next = a.heap.size - (a.allocator.next + 1) + 1 := by
      omega
    have hfree : a'.allocator.free = a.allocator.next ::
        List.range' (a.allocator.next + 1) (a.heap.size - (a.allocator.next + 1)) := by
      rw [h.free, hheap, hrange, List.range'_succ]
    obtain ⟨cell, hcell, -⟩ :=
      Heap.cell_of_contains (Heap.contains_iff.2 ⟨h.counter.pos, hlt⟩)
    rw [MarkSweep.take_eq h.books.toFits hfree]
    unfold Bump.allocate
    rw [hbound]
    dsimp only
    rw [if_neg (Nat.not_le.2 hlt), hcell]
    refine ⟨rfl, congrArg (·.clear a.allocator.next) hheap, rfl, rfl, ?_⟩
    refine ⟨⟨h.counter.bound, Nat.succ_ne_zero _, ?_⟩, h.books.take hfree, ?_, ?_⟩
    · rw [hheap]
      exact hlt
    · rw [hheap]
    · exact congrArg (· + 1) h.allocations
  · have hfree : a'.allocator.free = [] := by
      rw [h.free, hheap, Nat.sub_eq_zero_of_le hge, List.range'_zero]
    unfold Bump.allocate MarkSweep.take
    rw [hbound, hfree]
    dsimp only
    rw [if_pos hge]
    exact ⟨rfl, hheap, rfl, rfl, h⟩

/-- A request for a cell: where memory is out for the counter, mark and sweep collects first, and if
that takes nothing back, memory is out for it too. -/
theorem allocate (calls : CallStacks) (hheap : a'.heap = a.heap)
    (h : a.allocator.InStep a'.allocator a'.heap.size) (hgate : a'.gate.holder = none)
    (hnone : (MarkSweep.allocate t calls a').2.allocator.stats.reclaimed =
      a'.allocator.stats.reclaimed) :
    (MarkSweep.allocate t calls a').1 = (Bump.allocate t calls a).1 ∧
      (MarkSweep.allocate t calls a').2.heap = (Bump.allocate t calls a).2.heap ∧
      (MarkSweep.allocate t calls a').2.gate.holder = none ∧
      (Bump.allocate t calls a).2.gate = a.gate ∧
      (Bump.allocate t calls a).2.allocator.InStep (MarkSweep.allocate t calls a').2.allocator
        a'.heap.size := by
  have hlets : a'.allocator.free = [] → a'.gate.lets t = true := fun _ => Gate.lets_of_unheld hgate
  rw [MarkSweep.allocate_eq h.books.bound hlets] at hnone ⊢
  rw [MarkSweep.reclaimed_take] at hnone
  by_cases hfree : a'.allocator.free = []
  · rw [MarkSweep.refilled_of_empty hfree] at hnone ⊢
    obtain ⟨-, hkept, hunheld, hstep⟩ := h.collect hgate hnone
    generalize (MarkSweep.collect t calls a').2 = collected at hkept hunheld hstep
    rw [← hkept] at hstep
    obtain ⟨hanswer, hcleared, hgate', hopen, hnext⟩ :=
      take (t := t) calls (hkept.trans hheap) hstep
    rw [hkept] at hnext
    exact ⟨hanswer, hcleared, hgate'.symm ▸ hunheld, hopen, hnext⟩
  · rw [MarkSweep.refilled_of_free hfree]
    obtain ⟨hanswer, hcleared, hgate', hopen, hnext⟩ := take (t := t) calls hheap h
    exact ⟨hanswer, hcleared, hgate'.symm ▸ hgate, hopen, hnext⟩

end Bump.InStep

/-! ### Requests of a frame -/

namespace Machine

variable {A : Type} [Allocator A] {m : Machine A} {t : Thread} {env : Env}

/-- What a frame is told about a cell that the allocator has found for it. -/
def granted (m : Machine A) (env : Env) (h : Handle) : Answer Handle :=
  if (m.frame env).holds h then .error (.invalidState (.alreadyHeld h)) else .ok h

/-- What a request of an active frame comes to, apart from the log. -/
structure Request (m : Machine A) (t : Thread) (env : Env) (arena : Arena A) (found : Answer Handle)
    (r : Answer Handle × Machine A) : Prop where
  answer : r.1 = found >>= m.granted env
  allocator : r.2.allocator = arena.allocator
  heap : r.2.heap = arena.heap
  gate : r.2.gate = arena.gate
  config : r.2.config = m.config
  calls : r.2.calls = match found >>= m.granted env with
    | .error _ => m.calls
    | .ok h => m.calls.change env.frame (·.insert h)

theorem request_newObject (hactive : m.checkActive env = .ok ()) :
    Request m t env (Allocator.allocate t m.calls m.toArena).2
      (Allocator.allocate t m.calls m.toArena).1 (m.newObject t env) := by
  rw [newObject_eq, hactive]
  dsimp only
  rcases Allocator.allocate t m.calls m.toArena with ⟨fault | h, arena⟩
  · exact ⟨rfl, rfl, rfl, rfl, rfl, rfl⟩
  · have hgranted : (Except.ok h >>= m.granted env) = m.granted env h := rfl
    dsimp only
    split
    · rename_i hheld
      refine ⟨?_, rfl, rfl, rfl, rfl, ?_⟩
      · rw [hgranted, granted, if_pos hheld]
      · rw [hgranted, granted, if_pos hheld]
    · rename_i hheld
      refine ⟨?_, allocator_traced, heap_traced, gate_traced, config_traced, ?_⟩
      · rw [hgranted, granted, if_neg hheld]
      · rw [hgranted, granted, if_neg hheld, calls_traced]
        rfl

end Machine

/-- A request of a frame: both machines make the same object, or refuse for the same reason. -/
theorem Bump.InStep.newObject {m : Machine Bump} {m' : Machine MarkSweep} {t : Thread} {env : Env}
    (h : m.Parallel m') (hbooks : m.allocator.InStep m'.allocator m.heap.size)
    (hnone : (m'.newObject t env).2.allocator.stats.reclaimed =
      m'.allocator.stats.reclaimed) :
    Machine.Together (m.newObject t env) (m'.newObject t env) ∧
      (m.newObject t env).2.allocator.InStep (m'.newObject t env).2.allocator
        (m.newObject t env).2.heap.size := by
  cases hactive : m.checkActive env with
  | error fault =>
    rw [Machine.newObject_eq, Machine.newObject_eq, h.checkActive, hactive]
    exact ⟨⟨rfl, h⟩, hbooks⟩
  | ok _ =>
    have hr := Machine.request_newObject (t := t) hactive
    have hr' := Machine.request_newObject (t := t) (h.checkActive.trans hactive)
    have hbooks' : m.allocator.InStep m'.allocator m'.heap.size := h.heap.symm ▸ hbooks
    rw [hr'.allocator] at hnone
    rw [h.calls] at hr' hnone
    obtain ⟨hfound, hheap, hunheld', hgate, hstep⟩ :=
      hbooks'.allocate m.calls (a := m.toArena) h.heap h.unheld' hnone
    have hgranted : m'.granted env = m.granted env := by
      funext o
      rw [Machine.granted, Machine.granted, h.frame]
    have hsize : (m.newObject t env).2.heap.size = m'.heap.size := by
      rw [hr.heap]
      exact (congrArg Heap.size hheap).symm.trans
        (MarkSweep.allocate_balanced m.calls hbooks'.books).2
    have hkind : (Allocator.allocate t m.calls m'.toArena).1 =
        (Allocator.allocate t m.calls m.toArena).1 := hfound
    refine ⟨⟨?_, ?_, ?_, ?_, ?_, ?_⟩, ?_⟩
    · rw [hr.answer, hr'.answer, hkind, hgranted]
    · rw [hr.heap, hr'.heap]
      exact hheap
    · rw [hr.calls, hr'.calls, hkind, hgranted, h.calls]
    · rw [hr.config, hr'.config, h.config]
    · rw [hr.gate]
      exact (congrArg Gate.holder hgate).trans h.unheld
    · rw [hr'.gate]
      exact hunheld'
    · rw [hsize, hr.allocator, hr'.allocator]
      exact hstep

/-! ### Worlds in step -/

namespace World

def reclaimed (w : World MarkSweep) : Nat := w.machine.allocator.stats.reclaimed

/-- The world after a list of actions, the first one first, whatever they answer. -/
def driven {A : Type} [Allocator A] (w : World A) : List (Thread × Action) → World A
  | [] => w
  | (t, action) :: rest => (w.perform t action).2.driven rest

section Quiet

variable {A B : Type} [Allocator A] [Allocator B] {w : World A} {w' : World B}

/-- An action that does not ask the allocator is answered alike on parallel machines, and leaves
them parallel. -/
theorem perform_of_quiet (h : w.machine.Parallel w'.machine) (hkept : w'.kept = w.kept) (t : Thread)
    {action : Action} (hquiet : action.allocates = false) (hcommon : action.common = true) :
    (w'.perform t action).1 = (w.perform t action).1 ∧
      (w.perform t action).2.machine.Parallel (w'.perform t action).2.machine ∧
      (w'.perform t action).2.kept = (w.perform t action).2.kept := by
  obtain ⟨hanswer, hmachine, hkept'⟩ := perform_since (Machine.parallel_iff.1 h) hkept
    (Nat.zero_le _) (Nat.zero_le _) t hquiet hcommon action.since_zero
  exact ⟨hanswer, Machine.parallel_iff.2 hmachine, hkept'⟩

end Quiet

/-- Worlds in step: over a counter and over mark and sweep, with the same cells, tables and
settings, and books that agree. -/
structure InStep (w : World Bump) (w' : World MarkSweep) : Prop where
  machine : w.machine.Parallel w'.machine
  kept : w'.kept = w.kept
  books : w.machine.allocator.InStep w'.machine.allocator w.machine.heap.size

variable {w : World Bump} {w' : World MarkSweep} {t : Thread} {action : Action}

theorem reclaimed_le_perform : w'.reclaimed ≤ (w'.perform t action).2.reclaimed := by
  cases hquiet : action.allocates with
  | false =>
    have hsame : (w'.perform t action).2.machine.allocator = w'.machine.allocator :=
      allocator_perform hquiet
    unfold reclaimed
    rw [hsame]
  | true =>
    cases action with
    | collect => exact MarkSweep.reclaimed_le_collect t w'.machine.calls w'.machine.toArena
    | newObject env =>
      exact Session.newObject_keeps (s := ⟨w', .empty⟩)
        (P := fun (m : MarkSweep) _ => w'.reclaimed ≤ m.stats.reclaimed) (Nat.le_refl _)
        (MarkSweep.reclaimed_le_allocate t w'.machine.calls w'.machine.toArena)
    | _ => cases hquiet

/-- A request of a frame: both machines make the same object, or refuse for the same reason. -/
theorem InStep.newObject (h : w.InStep w') {env : Env}
    (hnone : (w'.perform t (.newObject env)).2.reclaimed = w'.reclaimed) :
    (w'.perform t (.newObject env)).1 = (w.perform t (.newObject env)).1 ∧
      (w.perform t (.newObject env)).2.InStep (w'.perform t (.newObject env)).2 := by
  obtain ⟨htogether, hbooks⟩ := Bump.InStep.newObject h.machine h.books hnone
  exact ⟨htogether.answer, htogether.machine, h.kept, hbooks⟩

/-- A collection: neither machine gets anything back. -/
theorem InStep.collect (h : w.InStep w')
    (hnone : (w'.perform t .collect).2.reclaimed = w'.reclaimed) :
    (w'.perform t .collect).1 = (w.perform t .collect).1 ∧
      (w.perform t .collect).2.InStep (w'.perform t .collect).2 := by
  have hbooks : w.machine.allocator.InStep w'.machine.allocator w'.machine.heap.size :=
    h.machine.heap.symm ▸ h.books
  obtain ⟨hanswer, hheap, hunheld, hstep⟩ := hbooks.collect h.machine.unheld' hnone
  refine ⟨hanswer, ⟨?_, h.machine.calls, h.machine.config, h.machine.unheld, hunheld⟩, h.kept, ?_⟩
  · exact hheap.trans h.machine.heap
  · rw [h.machine.heap] at hstep
    exact hstep

/-- Worlds in step answer an action alike and stay in step, if no cell comes back. -/
theorem InStep.step (h : w.InStep w') (hcommon : action.common = true)
    (hnone : (w'.perform t action).2.reclaimed = w'.reclaimed) :
    (w'.perform t action).1 = (w.perform t action).1 ∧
      (w.perform t action).2.InStep (w'.perform t action).2 := by
  cases hquiet : action.allocates with
  | false =>
    obtain ⟨hanswer, hmachine, hkept⟩ := perform_of_quiet h.machine h.kept t hquiet hcommon
    refine ⟨hanswer, hmachine, hkept, ?_⟩
    have hsize : (w.perform t action).2.machine.heap.size = w.machine.heap.size :=
      (Session.shape_after_of_quiet (s := ⟨w, .empty⟩) hquiet).size
    rw [allocator_perform hquiet, allocator_perform hquiet, hsize]
    exact h.books
  | true =>
    cases action with
    | newObject env => exact h.newObject hnone
    | collect => exact h.collect hnone
    | _ => cases hquiet

/-! ### From the start -/

variable {first first' : Thread} {heap : Heap} {config : MachineConfig} {maxPause : Duration}
  {clock : Nat → Duration} {start : Machine Bump} {start' : Machine MarkSweep}

/-- Machines that were built over the same heap are in step. -/
theorem inStep_of_build (hbump : Machine.build first heap Bump.fresh config = .ok start)
    (hsweep : Machine.build first' heap { MarkSweep.fresh maxPause with clock } config =
      .ok start') :
    (around start).InStep (around start') := by
  have hbooks := Session.balanced_of_build hsweep
  unfold Machine.build at hbump hsweep
  dsimp only [Allocator.bind, Bump.bind, Bump.fresh, MarkSweep.bind, MarkSweep.fresh]
    at hbump hsweep
  obtain rfl := Except.ok.inj hbump
  obtain rfl := Except.ok.inj hsweep
  refine ⟨⟨rfl, rfl, rfl, rfl, rfl⟩, rfl, ?_, hbooks, rfl, rfl⟩
  exact ⟨rfl, Nat.one_ne_zero, Nat.succ_le_succ (Nat.zero_le _)⟩

theorem reclaimed_le_driven {w : World MarkSweep} (script : List (Thread × Action)) :
    w.reclaimed ≤ (w.driven script).reclaimed := by
  induction script generalizing w with
  | nil => exact Nat.le_refl _
  | cons step rest ih => exact Nat.le_trans reclaimed_le_perform ih

/-- Worlds in step stay in step as long as no cell comes back. -/
theorem InStep.driven {script : List (Thread × Action)} (h : w.InStep w')
    (hcommon : ∀ step ∈ script, step.2.common = true)
    (hnone : (w'.driven script).reclaimed = w'.reclaimed) :
    (w.driven script).InStep (w'.driven script) := by
  induction script generalizing w w' with
  | nil => exact h
  | cons step rest ih =>
    obtain ⟨t, action⟩ := step
    have hlow : w'.reclaimed ≤ (w'.perform t action).2.reclaimed := reclaimed_le_perform
    have hhigh : (w'.perform t action).2.reclaimed ≤ (w'.driven ((t, action) :: rest)).reclaimed :=
      reclaimed_le_driven rest
    have hstep : (w'.perform t action).2.reclaimed = w'.reclaimed := by omega
    obtain ⟨-, hnext⟩ := h.step (hcommon _ List.mem_cons_self) hstep
    exact ih hnext (fun other hother => hcommon other (List.mem_cons_of_mem _ hother))
      (hnone.trans hstep.symm)

/-- What worlds over two strategies have in common as far as programs can see: the words in all
cells, the frames with their states and the objects they hold, the stacks, and how many cells were
handed out. -/
structure Alike {A B : Type} [Allocator A] [Allocator B] (w : World A) (w' : World B) : Prop where
  heap : w'.machine.heap = w.machine.heap
  frames : w'.machine.calls.frames = w.machine.calls.frames
  known : w'.machine.calls.known = w.machine.calls.known
  registered : w'.machine.calls.registered = w.machine.calls.registered
  allocations : (Allocator.stats w'.machine.allocator).allocations =
    (Allocator.stats w.machine.allocator).allocations

theorem InStep.alike (h : w.InStep w') : w.Alike w' where
  heap := h.machine.heap
  frames := congrArg CallStacks.frames h.machine.calls
  known := congrArg CallStacks.known h.machine.calls
  registered := congrArg CallStacks.registered h.machine.calls
  allocations := h.books.allocations

/-- Counting up and mark and sweep do the same until something is taken back. Of two machines over
the same heap that are driven by the same actions, whatever these are and whatever they answer, the
next action is answered alike and leaves the same cells, frames and stacks and the same number of
cells handed out, if no collection up to then has taken back a cell. -/
theorem alike_until_reclaimed (hbump : Machine.build first heap Bump.fresh config = .ok start)
    (hsweep : Machine.build first' heap { MarkSweep.fresh maxPause with clock } config = .ok start')
    {script : List (Thread × Action)} {t : Thread} {action : Action}
    (hscript : ∀ step ∈ script, step.2.common = true) (haction : action.common = true)
    (hnone : (((around start').driven script).perform t action).2.reclaimed = 0) :
    (((around start').driven script).perform t action).1 =
        (((around start).driven script).perform t action).1 ∧
      (((around start).driven script).perform t action).2.Alike
        (((around start').driven script).perform t action).2 := by
  have hnever : ((around start').driven script).reclaimed = 0 :=
    Nat.eq_zero_of_le_zero (hnone ▸ reclaimed_le_perform)
  have hopening : (around start').reclaimed = 0 :=
    Nat.eq_zero_of_le_zero (hnever ▸ reclaimed_le_driven script)
  have hdriven := (inStep_of_build hbump hsweep).driven hscript (hnever.trans hopening.symm)
  obtain ⟨hanswer, hnext⟩ := hdriven.step (t := t) haction (hnone.trans hnever.symm)
  exact ⟨hanswer, hnext.alike⟩

/-- A run makes two objects, links them past its frame, is refused a third one, collects, and is cut
off in a call that holds the second object. -/
def crowding : List (Thread × Action) :=
  [(0, .beginRun "entry" []), (0, .newObject ⟨0, 0⟩), (0, .newObject ⟨0, 0⟩),
    (1, .cell 1 (.setData 0 2)), (0, .newObject ⟨0, 0⟩), (2, .collect),
    (0, .beginCall ⟨0, 0⟩ "inner" [1]), (0, .getReference ⟨0, 1⟩ 1 0), (0, .abandonCall ⟨0, 1⟩)]

/-- What is said of all scripts, said of one that runs out of memory twice and collects without
finding anything. -/
theorem alike_of_crowding :
    ∃ (start : Machine Bump) (start' : Machine MarkSweep),
      Machine.build 0 (.ofSize 3 1) Bump.fresh .standard = .ok start ∧
        Machine.build 0 (.ofSize 3 1)
          { MarkSweep.fresh .zero with clock := fun _ => .zero } .standard = .ok start' ∧
        (∀ step ∈ crowding, step.2.common = true) ∧
        (((around start').driven crowding).perform 0 (.newObject ⟨0, 0⟩)).2.reclaimed = 0 ∧
        (((around start').driven crowding).perform 0 (.newObject ⟨0, 0⟩)).1 =
          .error .outOfMemory ∧
        (((around start).driven crowding).perform 0 (.newObject ⟨0, 0⟩)).1 =
          .error .outOfMemory ∧
        (((around start).driven crowding).perform 0 (.newObject ⟨0, 0⟩)).2.Alike
          (((around start').driven crowding).perform 0 (.newObject ⟨0, 0⟩)).2 := by
  have hscript : ∀ step ∈ crowding, step.2.common = true := by decide
  obtain ⟨start, hbump⟩ : ∃ start : Machine Bump,
    Machine.build 0 (.ofSize 3 1) Bump.fresh .standard = .ok start := ⟨_, rfl⟩
  obtain ⟨start', hsweep⟩ : ∃ start' : Machine MarkSweep,
    Machine.build 0 (.ofSize 3 1) { MarkSweep.fresh .zero with clock := fun _ => .zero } .standard =
      .ok start' := ⟨_, rfl⟩
  have hseen : (Machine.build 0 (.ofSize 3 1)
      { MarkSweep.fresh .zero with clock := fun _ => .zero } .standard).toOption.map (fun m =>
        let next := ((around m).driven crowding).perform 0 (.newObject ⟨0, 0⟩)
        (next.1, next.2.reclaimed)) = some (.error .outOfMemory, 0) := by cbv
  rw [hsweep] at hseen
  obtain ⟨hanswer, hnone⟩ := by
    simpa only [Except.toOption, Option.map_some, Option.some.injEq, Prod.mk.injEq] using hseen
  obtain ⟨hsame, halike⟩ := alike_until_reclaimed hbump hsweep hscript rfl hnone
  exact ⟨start, start', hbump, hsweep, hscript, hnone, hanswer, hsame.symm.trans hanswer, halike⟩

end World

end RootedHeap
