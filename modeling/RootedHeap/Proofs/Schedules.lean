import RootedHeap.Proofs.Crew

/-!
Crews that can be run. A thread has at most one next step, so a schedule, the threads in the order
in which they take their steps, decides a run. `Crew.next?` computes the step and `Crew.follow` the
run; both are sound for `Crew.Step` and `Crew.Ran`.
-/

namespace RootedHeap

namespace Crew

variable {A : Type} [Allocator A] [Staged A] {c c' : Crew A} {t : Thread}

def begin? (c : Crew A) (t : Thread) (rest : List Action) (action : Action) : Option (Crew A) :=
  match action.first with
  | some stage => some ((c.takeUp t rest).put t stage)
  | none =>
    if action.atOnce then
      match action, c.lock with
      | .stats, some _ => none
      | action, _ => some (((c.takeUp t rest).perform t action).notifyAll
          (c.gate.isClosed && !(c.perform t action).gate.isClosed))
    else
      match action with
      | .beginRun name args => some (((c.takeUp t rest).register t).put t
          (.entering (.enterRun c.calls.known.size name args)))
      | _ => none

def run (c : Crew A) (t : Thread) : ScopedWork → Crew A
  | .operate action _ => (c.perform t action).put t (.leaving .nothing)
  | .check env => c.check t env
  | .enterRun stack name args => (c.enterRun t stack name args).put t (.leaving .nothing)
  | .leaveRun entry outcome =>
    (c.leaveRun t entry outcome).put t (.leaving (.unregister entry))

/-- The crew after the allocator, which thread `t` has, took its next step. -/
def nextStep (c : Crew A) (t : Thread) (task : AllocatorTask) (point : Staged.ControlPoint A) :
    Crew A :=
  match Staged.nextStep t task.request point c.machine.toArena, task with
  | .work allocator heap log next, _ =>
    (c.withMachine { c.machine with allocator, heap, log }).put t (.working task next)
  | .stop next, _ => c.put t (.stopping (.allocator task next))
  | .scan next, _ => c.put t (.working task (next (c.machine.roots t)))
  | .resume next, _ =>
    ((c.withMachine (c.machine.resume t)).notifyAll
      (c.gate.isClosed && !(c.machine.resume t).gate.isClosed)).put t (.working task next)
  | .done (.ok h), .object env => c.put t (.receiving env h)
  | .done (.error fault), .object env =>
    (c.answer t (.newObject env) (.error fault)).put t .unlocking
  | .done reclaimed, .collection => (c.answer t .collect reclaimed).put t .unlocking

def stop (c : Crew A) (t : Thread) (cause : StopCause (Staged.ControlPoint A)) : Crew A :=
  if c.gate.lets t then
    if c.gate.heldBy t || c.gate.quiet t then (c.withGate (c.gate.close t)).halted t cause
    else ((c.withGate (c.gate.close t)).put t (.draining cause)).fallAsleep t
  else c.fallAsleep t

/-- The crew after the next step of thread `t`, if there is one. -/
def next? (c : Crew A) (t : Thread) : Option (Crew A) :=
  if c.asleep t then none
  else
    match c.stage t with
    | .idle =>
      match c.todo t with
      | [] => none
      | action :: rest => c.begin? t rest action
    | .entering scopedWork =>
      some (if c.gate.lets t then (c.withGate (c.gate.enter t)).put t (.inside scopedWork)
        else c.fallAsleep t)
    | .inside scopedWork => some (c.run t scopedWork)
    | .leaving following =>
      some (((c.withGate (c.gate.leave t)).notifyAll c.gate.isClosed).put t following.stage)
    | .unregistering entry => some ((c.withMachine (c.machine.unregister entry)).put t .idle)
    | .locking task =>
      match c.lock with
      | none => some ({ c with lock := some t }.put t (.working task Staged.asked))
      | some _ => none
    | .working task point => some (c.nextStep t task point)
    | .stopping cause => some (c.stop t cause)
    | .draining cause => some (if c.gate.quiet t then c.halted t cause else c.fallAsleep t)
    | .receiving env h => some ((c.receive t env h).put t .unlocking)
    | .unlocking => some ({ c with lock := none }.put t .idle)

/-- The crew after steps of the given threads in turn, if each of them can take its step and keeps
the rule. -/
def follow (rule : Crew A → Thread → Prop) [∀ c t, Decidable (rule c t)] :
    List Thread → Crew A → Option (Crew A)
  | [], c => some c
  | t :: schedule, c => if rule c t then (c.next? t).bind (follow rule schedule) else none

theorem step_of_begin? {action : Action} {rest : List Action} (hidle : c.stage t = .idle)
    (htodo : c.todo t = action :: rest) (hbegin : c.begin? t rest action = some c') :
    c.Step t c' := by
  unfold begin? at hbegin
  split at hbegin
  · rename_i stage hfirst
    obtain rfl := Option.some.inj hbegin
    exact .begin hidle htodo hfirst
  · split at hbegin
    · rename_i hsimple
      split at hbegin
      · cases hbegin
      · rename_i hfree
        obtain rfl := Option.some.inj hbegin
        refine .atOnce hidle htodo hsimple fun hstats => ?_
        cases hlock : c.lock with
        | none => rfl
        | some u => exact (hfree u hstats hlock).elim
    · rename_i hslow
      split at hbegin
      · obtain rfl := Option.some.inj hbegin
        refine .register hidle htodo ?_
        simpa [Action.atOnce] using hslow
      · cases hbegin

theorem step_run {scopedWork : ScopedWork} (hinside : c.stage t = .inside scopedWork) :
    c.Step t (c.run t scopedWork) := by
  cases scopedWork with
  | operate action fits => exact .operate hinside
  | check env => exact .check hinside
  | enterRun stack name args => exact .enterRun hinside
  | leaveRun entry outcome => exact .leaveRun hinside

theorem step_nextStep {task : AllocatorTask} {point : Staged.ControlPoint A}
    (hworking : c.stage t = .working task point) :
    c.Step t (c.nextStep t task point) := by
  unfold Crew.nextStep
  split
  · rename_i hnextStep
    exact .work hworking hnextStep
  · rename_i hnextStep
    exact .callStop hworking hnextStep
  · rename_i hnextStep
    exact .scan hworking hnextStep
  · rename_i hnextStep
    exact .resume hworking hnextStep
  · rename_i hnextStep
    exact .deliver hworking hnextStep
  · rename_i hnextStep
    exact .deny hworking hnextStep
  · rename_i hnextStep
    exact .finish hworking hnextStep

theorem step_stop {cause : StopCause (Staged.ControlPoint A)} (hawake : c.asleep t = false)
    (hstopping : c.stage t = .stopping cause) : c.Step t (c.stop t cause) := by
  unfold stop
  split
  · rename_i hlets
    split
    · rename_i hstill
      exact .close hstopping hawake hlets (by simpa using hstill)
    · rename_i hloud
      have hneither : c.gate.heldBy t = false ∧ c.gate.quiet t = false := by simpa using hloud
      refine .claim hstopping hawake ?_ hneither.2
      cases hholder : c.gate.holder with
      | none => rfl
      | some u =>
        have hheld : c.gate.heldBy t = true :=
          Gate.heldBy_iff.2 (Gate.lets_iff.1 hlets u hholder ▸ hholder)
        rw [hneither.1] at hheld
        cases hheld
  · rename_i hbarred
    refine .sleep hawake ?_
    rw [hstopping]
    exact Bool.eq_false_iff.2 hbarred

/-- What `next?` computes is a step. -/
theorem step_of_next? (hnext : c.next? t = some c') : c.Step t c' := by
  unfold next? at hnext
  split at hnext
  · cases hnext
  · rename_i hasleep
    have hawake : c.asleep t = false := Bool.eq_false_iff.2 hasleep
    cases hstage : c.stage t with
    | idle =>
      rw [hstage] at hnext
      dsimp only at hnext
      split at hnext
      · cases hnext
      · rename_i htodo
        exact step_of_begin? hstage htodo hnext
    | entering scopedWork =>
      rw [hstage] at hnext
      obtain rfl := Option.some.inj hnext
      split
      · rename_i hlets
        exact .enter hstage hawake hlets
      · rename_i hbarred
        refine .sleep hawake ?_
        rw [hstage]
        exact Bool.eq_false_iff.2 hbarred
    | inside scopedWork =>
      rw [hstage] at hnext
      obtain rfl := Option.some.inj hnext
      exact step_run hstage
    | leaving following =>
      rw [hstage] at hnext
      obtain rfl := Option.some.inj hnext
      exact .leave hstage
    | unregistering entry =>
      rw [hstage] at hnext
      obtain rfl := Option.some.inj hnext
      exact .unregister hstage
    | locking task =>
      rw [hstage] at hnext
      dsimp only at hnext
      split at hnext
      · rename_i hfree
        obtain rfl := Option.some.inj hnext
        exact .lock hstage hfree
      · cases hnext
    | working task point =>
      rw [hstage] at hnext
      obtain rfl := Option.some.inj hnext
      exact step_nextStep hstage
    | stopping cause =>
      rw [hstage] at hnext
      obtain rfl := Option.some.inj hnext
      exact step_stop hawake hstage
    | draining cause =>
      rw [hstage] at hnext
      obtain rfl := Option.some.inj hnext
      split
      · rename_i hstill
        exact .drained hstage hawake hstill
      · rename_i hloud
        refine .sleep hawake ?_
        rw [hstage]
        exact Bool.eq_false_iff.2 hloud
    | receiving env h =>
      rw [hstage] at hnext
      obtain rfl := Option.some.inj hnext
      exact .receive hstage
    | unlocking =>
      rw [hstage] at hnext
      obtain rfl := Option.some.inj hnext
      exact .unlock hstage

section Follow

variable {rule : Crew A → Thread → Prop} [∀ c t, Decidable (rule c t)]

/-- A schedule leads where steps lead. -/
theorem Ran.follow {start : Crew A} {schedule : List Thread} (hran : Ran rule start c)
    (hfollow : c.follow rule schedule = some c') : Ran rule start c' := by
  induction schedule generalizing c with
  | nil =>
    obtain rfl := Option.some.inj hfollow
    exact hran
  | cons t schedule ih =>
    unfold Crew.follow at hfollow
    split at hfollow
    · rename_i hkept
      obtain ⟨c₁, hnext, hrest⟩ := Option.bind_eq_some_iff.1 hfollow
      exact ih (hran.step hkept (step_of_next? hnext)) hrest
    · cases hfollow

/-! ### Runs on a machine that was just built -/

variable {β : Type} {heap : Heap} {allocator : A} {todo : Thread → List Action}
  {schedule : List Thread} {see : Crew A → β} {sight : β}

/-- What there is to see at the end of a schedule, if it can be followed. -/
def observed (rule : Crew A → Thread → Prop) [∀ c t, Decidable (rule c t)] (heap : Heap)
    (allocator : A) (todo : Thread → List Action) (schedule : List Thread) (see : Crew A → β) :
    Option β :=
  match Machine.build Thread.first heap allocator .standard with
  | .error _ => none
  | .ok start => ((opening start todo).follow rule schedule).map see

/-- What is seen is seen of a run. -/
theorem exists_ran_of_observed
    (hseen : observed rule heap allocator todo schedule see = some sight) :
    ∃ start c, Machine.build Thread.first heap allocator .standard = .ok start ∧
      Ran rule (opening start todo) c ∧ see c = sight := by
  unfold observed at hseen
  split at hseen
  · cases hseen
  · rename_i start hbuild
    obtain ⟨c, hfollow, hsee⟩ := Option.map_eq_some_iff.1 hseen
    exact ⟨start, c, hbuild, Ran.start.follow hfollow, hsee⟩

end Follow

end Crew

end RootedHeap
