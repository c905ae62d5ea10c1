import RootedHeap.Proofs.Tallies

/-!
What comes after. A session is where a history led to; `Session.Course` goes on from any session, so
that a law about what follows upon a state can be told without the history before it. A course put
after a history is a longer history, and what is in the ledger at its end can be read off the moves.
-/

namespace RootedHeap

/-! ### The ledger of a history -/

/-- The ledger after a list of moves, the latest first. -/
def Ledger.of : List Move → Ledger
  | [] => .empty
  | ⟨_, action, reply⟩ :: past => (Ledger.of past).record action reply

namespace Ledger

variable {l : Ledger} {caller : Env} {name : String} {args : List Word} {reply : Answer Env}

theorem runs_beginCall : (l.record (.beginCall caller name args) reply).runs = l.runs := by
  cases reply <;> rfl

theorem calls_beginRun : (l.record (.beginRun name args) reply).calls = l.calls := by
  cases reply <;> rfl

theorem length_calls_beginCall :
    l.calls.length ≤ (l.record (.beginCall caller name args) reply).calls.length := by
  cases reply with
  | error fault => exact Nat.le_refl _
  | ok callee => exact Nat.le_succ _

theorem length_runs_beginRun :
    l.runs.length ≤ (l.record (.beginRun name args) reply).runs.length := by
  cases reply with
  | error fault => exact Nat.le_refl _
  | ok entry => exact (List.prefix_append _ _).length_le

end Ledger

namespace Session

variable {A : Type} {s s' s'' : Session A}

/-- Frames, stacks and environments are never forgotten. -/
structure Grows (s s' : Session A) : Prop where
  frames : s.calls.frames.size ≤ s'.calls.frames.size
  known : s.calls.known.size ≤ s'.calls.known.size
  envs : s.ledger.envs <+: s'.ledger.envs

theorem Grows.refl : Grows s s := ⟨Nat.le_refl _, Nat.le_refl _, List.prefix_rfl⟩

theorem Grows.trans (h : Grows s s') (h' : Grows s' s'') : Grows s s'' :=
  ⟨Nat.le_trans h.frames h'.frames, Nat.le_trans h.known h'.known, h.envs.trans h'.envs⟩

variable [Allocator A] {start : Machine A} {past moves later : List Move} {t : Thread}
  {action : Action}

/-- The ledger of a session is that of its history. -/
theorem Ran.ledger_eq (hran : Ran start past s) : s.ledger = .of past := by
  induction hran with
  | opening => rfl
  | move _ t action _ ih => exact congrArg (Ledger.record · action _) ih

/-! ### Courses -/

/-- The moves within the rules that lead from one session to another, the latest first. -/
inductive Course (s : Session A) : List Move → Session A → Prop
  | start : Course s [] s
  | move {moves : List Move} {s' : Session A} (course : Course s moves s') (t : Thread)
      (action : Action) (permitted : s'.ledger.permits action) :
    Course s (⟨t, action, s'.reply t action⟩ :: moves) (s'.after t action)

/-- A course goes on with the history of the session that it starts from. -/
theorem Ran.course (hran : Ran start past s) (hcourse : Course s moves s') :
    Ran start (moves ++ past) s' := by
  induction hcourse with
  | start => exact hran
  | move _ t action permitted ih => exact ih.move t action permitted

theorem Course.trans (hcourse : Course s moves s') (hlater : Course s' later s'') :
    Course s (later ++ moves) s'' := by
  induction hlater with
  | start => exact hcourse
  | move _ t action permitted ih => exact ih.move t action permitted

/-! ### Courses that can be computed -/

/-- The session after a list of actions, the first one first, if the rules permit them, with the
moves that they make added to those before. -/
def track (moves : List Move) (s : Session A) : List (Thread × Action) →
    Option (List Move × Session A)
  | [] => some (moves, s)
  | (t, action) :: rest =>
    if s.ledger.permits action then
      (s.after t action).track (⟨t, action, s.reply t action⟩ :: moves) rest
    else none

/-- Every list of actions that can be tracked goes on with a history. -/
theorem Ran.track {script : List (Thread × Action)} (hran : Ran start past s)
    (htrack : s.track past script = some (moves, s')) : Ran start moves s' := by
  induction script generalizing past s with
  | nil =>
    obtain ⟨rfl, rfl⟩ := Prod.mk.inj (Option.some.inj htrack)
    exact hran
  | cons step script ih =>
    rw [Session.track] at htrack
    split at htrack
    · rename_i hpermits
      exact ih (hran.move step.1 step.2 hpermits) htrack
    · cases htrack

/-- Every list of actions that can be tracked goes on with a course. -/
theorem Course.track {script : List (Thread × Action)} (hcourse : Course s moves s')
    (htrack : s'.track moves script = some (later, s'')) : Course s later s'' := by
  induction script generalizing moves s' with
  | nil =>
    obtain ⟨rfl, rfl⟩ := Prod.mk.inj (Option.some.inj htrack)
    exact hcourse
  | cons step script ih =>
    rw [Session.track] at htrack
    split at htrack
    · rename_i hpermits
      exact ih (hcourse.move step.1 step.2 hpermits) htrack
    · cases htrack

/-- What there is to see after a list of actions and after another that follows upon it. -/
def watched {β : Type} (config : MachineConfig) (heap : Heap) (allocator : A)
    (script rest : List (Thread × Action))
    (see : List Move × Session A → List Move × Session A → β) : Option β :=
  match Machine.build Thread.first heap allocator config with
  | .error _ => none
  | .ok start => do
    let first ← (opening start).track [] script
    let second ← first.2.track [] rest
    return see first second

/-- What is seen is seen in a session and at the end of a course from it. -/
theorem exists_course_of_watched {β : Type} {config : MachineConfig} {heap : Heap} {allocator : A}
    {script rest : List (Thread × Action)}
    {see : List Move × Session A → List Move × Session A → β} {sight : β}
    (hseen : watched config heap allocator script rest see = some sight) :
    ∃ start past s moves s', Machine.build Thread.first heap allocator config = .ok start ∧
      Ran start past s ∧ Course s moves s' ∧ see (past, s) (moves, s') = sight := by
  unfold watched at hseen
  split at hseen
  · cases hseen
  · rename_i start hbuild
    obtain ⟨⟨past, s⟩, hfirst, hseen⟩ := Option.bind_eq_some_iff.1 hseen
    obtain ⟨⟨moves, s'⟩, hsecond, hseen⟩ := Option.bind_eq_some_iff.1 hseen
    exact ⟨start, past, s, moves, s', hbuild, Ran.opening.track hfirst,
      Course.start.track hsecond, Option.some.inj hseen⟩

/-- The end of a call answers whether its result is accepted, and takes the callee off its stack. -/
theorem after_endCall (s : Session A) (t : Thread) (caller callee : Env) (outcome : Answer Word) :
    s.reply t (.endCall caller callee outcome) = s.machine.checkResult callee outcome ∧
      (s.after t (.endCall caller callee outcome)).calls =
        (s.calls.settled caller.frame callee.frame (s.machine.checkResult callee outcome)).pop
          callee.stack callee.frame := by
  obtain ⟨text, heq⟩ := Machine.endCall_eq s.machine t caller callee outcome
  have hcalls := congrArg (fun answered => answered.2.calls) heq
  rw [Machine.calls_traced] at hcalls
  exact ⟨congrArg Prod.fst heq, hcalls⟩

/-- A run that begins has a stack of its own, registered, with its entry frame on it. -/
theorem calls_after_beginRun (s : Session A) (t : Thread) (name : String) {args : List Word}
    (hargs : args.findSome? Word.target? = none) :
    (s.after t (.beginRun name args)).calls =
      s.calls.register.2.opened s.calls.known.size [] := by
  obtain ⟨text, heq⟩ := Machine.beginRun_eq s.machine t name hargs
  exact congrArg (fun answered => answered.2.calls) heq

/-- The end of a run takes its entry frame off its stack, and forgets the stack. -/
theorem calls_after_endRun (s : Session A) (t : Thread) (entry : Env) (outcome : Answer Word) :
    (s.after t (.endRun entry outcome)).calls =
      (s.calls.pop entry.stack entry.frame).unregister (s.calls.stack entry.stack).id := by
  obtain ⟨text, heq⟩ := Machine.endRun_eq s.machine t entry outcome
  exact congrArg (fun answered => answered.2.calls) heq

/-! ### What only grows -/

theorem grows_after (hpermits : s.ledger.permits action) : Grows s (s.after t action) := by
  have hstep := ledger_step (t := t) hpermits
  suffices hgrows : ∀ {gain l' calls}, s.ledger.Step s.calls gain l' calls →
      s.calls.frames.size ≤ calls.frames.size ∧ s.calls.known.size ≤ calls.known.size ∧
        s.ledger.envs <+: l'.envs by
    obtain ⟨hframes, hknown, henvs⟩ := hgrows hstep
    exact ⟨hframes, hknown, henvs⟩
  intro gain l' calls hstep
  cases hstep <;> simp [CallStacks.unregister, CallStacks.register, CallStacks.addStack]

theorem Course.grows (hcourse : Course s moves s') : Grows s s' := by
  induction hcourse with
  | start => exact .refl
  | move _ t action permitted ih => exact ih.trans (grows_after permitted)

end Session

end RootedHeap
