import RootedHeap.Allocator.Bump
import RootedHeap.Proofs.Collectors

/-!
Allocators taken apart. Among other threads an allocator does not answer in one piece: it closes the
gate, waits, looks at the roots, works on its books and cells, opens the gate. A `Staged` allocator
says at each control point what it does next, its next `AllocatorStep`. What it does to its books
and cells is one step however long it takes, since nobody else gets at the books, and at the cells
only who has a scope open.

`Staged.Runs` puts the steps together again as a thread takes them that nobody disturbs, and
`LawfulStaged` says that they come to the allocator's own answer.
-/

namespace RootedHeap

inductive Request where
  | cell
  | collection

/-- What an allocator does next. -/
inductive AllocatorStep (A S : Type) where
  | work (allocator : A) (heap : Heap) (log : Array Entry) (next : S)
  | stop (next : S)
  | scan (next : Answer (List Handle) → S)
  | resume (next : S)
  | done (answer : Answer Nat)

/-- An allocator that can be held up between its steps. -/
class Staged (A : Type) [Allocator A] where
  ControlPoint : Type
  asked : ControlPoint
  nextStep : Thread → Request → ControlPoint → Arena A → AllocatorStep A ControlPoint

namespace Staged

variable {A : Type} [Allocator A] [Staged A]

/-- The steps of thread `t` from one control point on, with nobody in between, and what they come
to. -/
inductive Runs (t : Thread) (request : Request) (calls : CallStacks) :
    ControlPoint A → Arena A → Answer Nat × Arena A → Prop
  | work {point next : ControlPoint A} {a : Arena A} {allocator : A} {heap : Heap}
      {log : Array Entry}
      {result : Answer Nat × Arena A}
      (hnextStep : nextStep t request point a = .work allocator heap log next)
      (rest : Runs t request calls next { a with allocator, heap, log } result) :
    Runs t request calls point a result
  | stop {point next : ControlPoint A} {a : Arena A} {result : Answer Nat × Arena A}
      (hnextStep : nextStep t request point a = .stop next)
      (rest : Runs t request calls next (a.stop t) result) : Runs t request calls point a result
  | scan {point : ControlPoint A} {next : Answer (List Handle) → ControlPoint A} {a : Arena A}
      {result : Answer Nat × Arena A} (hnextStep : nextStep t request point a = .scan next)
      (rest : Runs t request calls (next (a.enumerate t calls)) a result) :
    Runs t request calls point a result
  | resume {point next : ControlPoint A} {a : Arena A} {result : Answer Nat × Arena A}
      (hnextStep : nextStep t request point a = .resume next)
      (rest : Runs t request calls next (a.resume t) result) : Runs t request calls point a result
  | done {point : ControlPoint A} {a : Arena A} {answer : Answer Nat}
      (hnextStep : nextStep t request point a = .done answer) :
      Runs t request calls point a (answer, a)

/-- Work that is told by the arena it leads to. -/
theorem Runs.work_to {t : Thread} {request : Request} {calls : CallStacks}
    {point next : ControlPoint A} {a : Arena A} (a' : Arena A) {result : Answer Nat × Arena A}
    (hnextStep : nextStep t request point a = .work a'.allocator a'.heap a'.log next)
    (hgate : a'.gate = a.gate) (rest : Runs t request calls next a' result) :
    Runs t request calls point a result := by
  have ha' : ({ a with allocator := a'.allocator, heap := a'.heap, log := a'.log } : Arena A) =
      a' := by rw [← hgate]
  exact .work hnextStep (ha' ▸ rest)

/-- Work on the books alone. -/
theorem Runs.books {t : Thread} {request : Request} {calls : CallStacks}
    {point next : ControlPoint A} {a : Arena A} {allocator : A} {result : Answer Nat × Arena A}
    (hnextStep : nextStep t request point a = .work allocator a.heap a.log next)
    (rest : Runs t request calls next (a.withAllocator allocator) result) :
    Runs t request calls point a result :=
  .work hnextStep rest

end Staged

/-- A staged allocator whose steps come to its own answers. -/
class LawfulStaged (A : Type) [Allocator A] extends Staged A where
  allocate_runs : ∀ (t : Thread) (calls : CallStacks) (a : Arena A),
    Staged.Runs t .cell calls asked a (Allocator.allocate t calls a)
  collect_runs : ∀ (t : Thread) (calls : CallStacks) (a : Arena A),
    Staged.Runs t .collection calls asked a (Allocator.collect t calls a)

namespace Arena

variable {A : Type} {t : Thread} {a : Arena A}

@[simp] theorem allocator_resume : (a.resume t).allocator = a.allocator := by
  unfold resume
  split <;> rfl

@[simp] theorem heap_resume : (a.resume t).heap = a.heap := by
  unfold resume
  split <;> rfl

end Arena

namespace Bump

/-- How far a counter has come. -/
inductive ControlPoint where
  | asked
  | answering (answer : Answer Handle)

/-- A counter works in one piece and never collects. -/
def nextStep (t : Thread) : Request → ControlPoint → Arena Bump → AllocatorStep Bump ControlPoint
  | .cell, .asked, a =>
    let (answer, a') := allocate t .empty a
    .work a'.allocator a'.heap a'.log (.answering answer)
  | .collection, .asked, _ => .done (.ok 0)
  | _, .answering answer, _ => .done answer

theorem gate_allocate {t : Thread} {calls : CallStacks} {a : Arena Bump} :
    (allocate t calls a).2.gate = a.gate := by
  unfold allocate
  split
  · rfl
  · dsimp only
    split
    · rfl
    · split <;> rfl

instance : Staged Bump where
  ControlPoint := ControlPoint
  asked := .asked
  nextStep := nextStep

instance : LawfulStaged Bump where
  allocate_runs t calls a :=
    .work_to (allocate t calls a).2 rfl gate_allocate (.done rfl)
  collect_runs _ _ _ := .done rfl

end Bump

namespace MarkSweep

/-- How far mark and sweep has come. -/
inductive ControlPoint where
  | asked
  | scanning
  | marking (roots : List Handle)
  | sweeping
  | resuming (found : Answer Yield)
  | counting (found : Answer Yield)
  | taking
  | answering (answer : Answer Nat)

def handOut (t : Thread) (a : Arena MarkSweep) : AllocatorStep MarkSweep ControlPoint :=
  let (answer, a') := take t a
  .work a'.allocator a'.heap a'.log (.answering answer)

/-- A collection closes the gate, scans, marks, sweeps, opens the gate and counts. A request for a
cell begins with one if no cell is free. -/
def nextStep (t : Thread) (request : Request) : ControlPoint → Arena MarkSweep →
    AllocatorStep MarkSweep ControlPoint
  | .asked, a =>
    match a.allocator.binding, request with
    | none, _ => .done (.error (.invalidState .unbound))
    | some _, .cell => if a.allocator.free.isEmpty then .stop .scanning else handOut t a
    | some _, .collection => .stop .scanning
  | .scanning, _ => .scan fun
    | .ok roots => .marking roots
    | .error fault => .resuming (.error fault)
  | .marking roots, a => .work (a.allocator.mark a.heap roots) a.heap a.log .sweeping
  | .sweeping, a =>
    let found := ⟨a.allocator.marks.present, (a.allocator.dead a.heap).length⟩
    .work (a.allocator.sweep a.heap) a.heap a.log (.resuming (.ok found))
  | .resuming found, _ => .resume (.counting found)
  | .counting (.error fault), a =>
    .work { a.allocator with phase := .idle } a.heap a.log (.answering (.error fault))
  | .counting (.ok found), a =>
    let counted := ({ a.allocator with phase := .idle } : MarkSweep).count found
    let a' := report (a.withAllocator counted) t found
    .work a'.allocator a'.heap a'.log
      (match request with
      | .cell => .taking
      | .collection => .answering (.ok found.reclaimed))
  | .taking, a => handOut t a
  | .answering answer, _ => .done answer

instance : Staged MarkSweep where
  ControlPoint := ControlPoint
  asked := .asked
  nextStep := nextStep

/-- What mark and sweep does to its books and to the cells at the points at which it works. -/
inductive Work (t : Thread) (request : Request) (a : Arena MarkSweep) :
    ControlPoint → MarkSweep → Heap → ControlPoint → Prop
  | handOut {point : ControlPoint} (ready : point = .asked ∨ point = .taking) :
    Work t request a point (take t a).2.allocator (take t a).2.heap (.answering (take t a).1)
  | mark (roots : List Handle) :
    Work t request a (.marking roots) (a.allocator.mark a.heap roots) a.heap .sweeping
  | sweep (found : Answer Yield) :
    Work t request a .sweeping (a.allocator.sweep a.heap) a.heap (.resuming found)
  | count {found : Answer Yield} {next : ControlPoint} (stats : Stats)
      (ends : next = .taking ∨ (∃ fault, next = .answering (.error fault)) ∨
        request = .collection ∧ ∃ reclaimed, next = .answering (.ok reclaimed)) :
    Work t request a (.counting found) { a.allocator with phase := .idle, stats } a.heap next

section Inversion

variable {t : Thread} {request : Request} {point next : ControlPoint} {a : Arena MarkSweep}

/-- The three ways to begin. -/
theorem nextStep_asked (t : Thread) (request : Request) (a : Arena MarkSweep) :
    (nextStep t request .asked a = .done (.error (.invalidState .unbound)) ∨
      nextStep t request .asked a = .stop .scanning) ∨
    nextStep t request .asked a = handOut t a := by
  cases hbinding : a.allocator.binding with
  | none => exact .inl (.inl (by simp only [nextStep, hbinding]))
  | some binding =>
    cases request with
    | collection => exact .inl (.inr (by simp only [nextStep, hbinding]))
    | cell =>
      simp only [nextStep, hbinding]
      split
      · exact .inl (.inr rfl)
      · exact .inr rfl

theorem work_of_nextStep {m : MarkSweep} {heap : Heap} {log : Array Entry}
    (hnextStep : nextStep t request point a = .work m heap log next) :
    Work t request a point m heap next := by
  cases point with
  | asked =>
    obtain (h | h) | h := nextStep_asked t request a <;>
      cases h.symm.trans hnextStep
    exact .handOut (.inl rfl)
  | marking roots =>
    cases hnextStep
    exact .mark roots
  | sweeping =>
    cases hnextStep
    exact .sweep _
  | counting found =>
    rcases found with fault | found
    · cases hnextStep
      exact .count _ (.inr (.inl ⟨_, rfl⟩))
    · simp only [nextStep, AllocatorStep.work.injEq] at hnextStep
      obtain ⟨rfl, rfl, -, rfl⟩ := hnextStep
      rw [allocator_report, heap_report]
      refine .count _ ?_
      cases request with
      | cell => exact .inl rfl
      | collection => exact .inr (.inr ⟨rfl, _, rfl⟩)
  | taking =>
    cases hnextStep
    exact .handOut (.inr rfl)
  | scanning | resuming | answering => cases hnextStep

/-- The gate is closed before anything else, and to scan. -/
theorem stop_of_nextStep (hnextStep : nextStep t request point a = .stop next) :
    point = .asked ∧ next = .scanning := by
  cases point with
  | asked =>
    obtain (h | h) | h := nextStep_asked t request a <;>
      cases h.symm.trans hnextStep
    exact ⟨rfl, rfl⟩
  | counting found => rcases found with fault | found <;> cases hnextStep
  | _ => cases hnextStep

theorem scan_of_nextStep {next : Answer (List Handle) → ControlPoint}
    (hnextStep : nextStep t request point a = .scan next) :
    point = .scanning ∧ (∀ roots, next (.ok roots) = .marking roots) ∧
      ∀ fault, next (.error fault) = .resuming (.error fault) := by
  cases point with
  | scanning =>
    cases hnextStep
    exact ⟨rfl, fun _ => rfl, fun _ => rfl⟩
  | asked =>
    obtain (h | h) | h := nextStep_asked t request a <;>
      cases h.symm.trans hnextStep
  | counting found => rcases found with fault | found <;> cases hnextStep
  | _ => cases hnextStep

theorem resume_of_nextStep (hnextStep : nextStep t request point a = .resume next) :
    ∃ found, point = .resuming found ∧ next = .counting found := by
  cases point with
  | resuming found =>
    cases hnextStep
    exact ⟨found, rfl, rfl⟩
  | asked =>
    obtain (h | h) | h := nextStep_asked t request a <;>
      cases h.symm.trans hnextStep
  | counting found => rcases found with fault | found <;> cases hnextStep
  | _ => cases hnextStep

theorem done_of_nextStep {answer : Answer Nat}
    (hnextStep : nextStep t request point a = .done answer) :
    point = .answering answer ∨ point = .asked ∧ answer = .error (.invalidState .unbound) := by
  cases point with
  | answering answer =>
    cases hnextStep
    exact .inl rfl
  | asked =>
    obtain (h | h) | h := nextStep_asked t request a <;>
      cases h.symm.trans hnextStep
    exact .inr ⟨rfl, rfl⟩
  | counting found => rcases found with fault | found <;> cases hnextStep
  | _ => cases hnextStep

end Inversion

theorem gate_take {t : Thread} {a : Arena MarkSweep} : (take t a).2.gate = a.gate := by
  unfold take
  split
  · rfl
  · split <;> rfl

/-- A resume does not look at the books. -/
theorem resume_withAllocator {t : Thread} {a : Arena MarkSweep} {m : MarkSweep} :
    (a.withAllocator m).resume t = (a.resume t).withAllocator m := by
  unfold Arena.resume Arena.withAllocator
  dsimp only
  cases a.gate.resume? t <;> rfl

section Runs

variable {t : Thread} {request : Request} {calls : CallStacks} {a : Arena MarkSweep}

theorem handOut_runs {point : ControlPoint} (hnextStep : nextStep t request point a = handOut t a) :
    Staged.Runs t request calls point a (take t a) :=
  .work_to (take t a).2 hnextStep gate_take (.done rfl)

/-- What is left to do after a collection has closed the gate. -/
def afterwards (t : Thread) (request : Request) : Answer Nat × Arena MarkSweep →
    Answer Nat × Arena MarkSweep
  | (.error fault, a) => (.error fault, a)
  | (.ok reclaimed, a) =>
    match request with
    | .cell => take t a
    | .collection => (.ok reclaimed, a)

/-- The steps of a collection come to one, and to a cell if one was asked for. -/
theorem collect_runs (hbound : a.allocator.binding.isSome) :
    Staged.Runs t request calls ControlPoint.scanning (a.stop t)
      (afterwards t request (collect t calls a)) := by
  obtain ⟨binding, hbinding⟩ := Option.isSome_iff_exists.1 hbound
  refine .scan rfl ?_
  unfold collect
  rw [hbinding]
  dsimp only
  generalize a.stop t = a
  cases a.enumerate t calls with
  | error fault =>
    dsimp only [cycle, afterwards]
    rw [resume_withAllocator, ← Arena.allocator_resume (t := t)]
    exact .resume rfl (.books rfl (.done rfl))
  | ok roots =>
    dsimp only [cycle]
    rw [resume_withAllocator]
    refine .books rfl (.books rfl (.resume rfl ?_))
    rw [resume_withAllocator, resume_withAllocator]
    generalize a.resume t = a
    refine .work_to _ rfl gate_report ?_
    cases request with
    | cell => exact handOut_runs rfl
    | collection => exact .done rfl

instance : LawfulStaged MarkSweep where
  allocate_runs t calls a := by
    show Staged.Runs t .cell calls ControlPoint.asked a (allocate t calls a)
    unfold allocate
    cases hbinding : a.allocator.binding with
    | none => exact .done (by simp only [Staged.nextStep, nextStep, hbinding])
    | some binding =>
      dsimp only
      split
      · rename_i hempty
        have hnextStep : nextStep t .cell .asked a = .stop .scanning := by
          simp only [nextStep, hbinding, hempty, ↓reduceIte]
        have hruns : Staged.Runs t .cell calls ControlPoint.scanning (a.stop t)
            (afterwards t .cell (collect t calls a)) :=
          collect_runs (Option.isSome_of_eq_some hbinding)
        refine .stop hnextStep ?_
        generalize collect t calls a = collected at hruns ⊢
        rcases collected with ⟨fault | reclaimed, a'⟩ <;> exact hruns
      · rename_i hfree
        exact handOut_runs
          (by simp only [nextStep, hbinding, hfree, Bool.false_eq_true, ↓reduceIte])
  collect_runs t calls a := by
    show Staged.Runs t .collection calls ControlPoint.asked a (collect t calls a)
    cases hbinding : a.allocator.binding with
    | none =>
      unfold collect
      rw [hbinding]
      exact .done (by simp only [Staged.nextStep, nextStep, hbinding])
    | some binding =>
      have hnextStep : nextStep t .collection .asked a = .stop .scanning := by
        simp only [nextStep, hbinding]
      have hruns : Staged.Runs t .collection calls ControlPoint.scanning (a.stop t)
          (afterwards t .collection (collect t calls a)) :=
        collect_runs (Option.isSome_of_eq_some hbinding)
      refine .stop hnextStep ?_
      generalize collect t calls a = collected at hruns ⊢
      rcases collected with ⟨fault | reclaimed, a'⟩ <;> exact hruns

end Runs

end MarkSweep

end RootedHeap
