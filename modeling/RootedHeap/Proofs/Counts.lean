import RootedHeap.Proofs.Crowds
import RootedHeap.Proofs.Exhaustion

/-!
How many objects a program makes. `Program.Makes` is read off the program alone: along every path on
which the answers are such as a machine gives, the requests for objects that were granted add up to
one number, if the program comes to a good result; and after a request that was refused it comes to
none. A session over mark and sweep counts the same requests, so its count grows by what its
programs make.
-/

namespace RootedHeap

namespace Action

/-- The number of objects that an answer brings into being; there is none for an answer that refuses
one. -/
def makes : (action : Action) → action.Reply → Option Nat
  | .newObject _, .ok _ => some 1
  | .newObject _, .error _ => none
  | _, _ => some 0

/-- An action that does not ask the allocator makes no object. -/
theorem makes_of_quiet {action : Action} (hquiet : action.allocates = false)
    (reply : action.Reply) : action.makes reply = some 0 := by
  cases action with
  | newObject env => cases hquiet
  | _ => rfl

/-- Whether an action is one of a frame, or begins or ends a run. -/
def works : Action → Bool
  | .newObject _ | .beginRun .. | .endRun .. => true
  | action => action.operates

theorem works_of_operates {action : Action} (hoperates : action.operates = true) :
    action.works = true := by
  cases action with
  | newObject env => rfl
  | beginRun name args => rfl
  | endRun entry outcome => rfl
  | _ => exact hoperates

theorem quiet_of_operates {action : Action} (hoperates : action.operates = true) :
    action.allocates = false := by
  cases action with
  | newObject env => cases hoperates
  | collect => cases hoperates
  | _ => rfl

/-- Whether a machine may answer so: a call that is ended with a fault is answered with it. -/
def Credible : (action : Action) → action.Reply → Prop
  | .endCall _ _ (.error fault), reply => reply = .error fault
  | _, _ => True

end Action

namespace Program

variable {α β : Type}

/-- Whether a program comes to no good result. -/
def Fails (Good : α → Prop) : Program α → Prop
  | .done a => ¬ Good a
  | .act action next => ∀ reply, action.Credible reply → (next reply).Fails Good

/-- Whether a program works with frames alone and makes so many objects, if it comes to a good
result, and comes to none once an object was refused. -/
def Makes (Good : α → Prop) : Program α → Nat → Prop
  | .done a, k => Good a → k = 0
  | .act action next, k => ∀ reply, action.Credible reply → (next reply).Fails Good ∨
    action.works = true ∧ ∃ m j, action.makes reply = some m ∧ k = m + j ∧ (next reply).Makes Good j

variable {Good : α → Prop} {Good' : β → Prop} {p : Program α} {f : α → Program β} {j k : Nat}

theorem Fails.andThen (h : p.Fails Good) (hbad : ∀ a, ¬ Good a → (f a).Fails Good') :
    (p.andThen f).Fails Good' := by
  induction p with
  | done a => exact hbad a h
  | act action next ih => exact fun reply hreply => ih reply (h reply hreply)

/-- A program that comes to no good result makes as many objects as one likes if it does. -/
theorem Fails.makes (h : p.Fails Good) : p.Makes Good k := by
  cases p with
  | done a => exact fun ha => absurd ha h
  | act action next => exact fun reply hreply => .inl (h reply hreply)

theorem Makes.andThen (h : p.Makes Good j) (hgood : ∀ a, Good a → (f a).Makes Good' k)
    (hbad : ∀ a, ¬ Good a → (f a).Fails Good') : (p.andThen f).Makes Good' (j + k) := by
  induction p generalizing j with
  | done a =>
    by_cases ha : Good a
    · obtain rfl := h ha
      rw [Nat.zero_add]
      exact hgood a ha
    · exact (hbad a ha).makes
  | act action next ih =>
    intro reply hreply
    rcases h reply hreply with hfails | ⟨hworks, m, i, hcount, rfl, hmakes⟩
    · exact .inl (hfails.andThen hbad)
    · exact .inr ⟨hworks, m, i + k, hcount, Nat.add_assoc m i k, ih reply hmakes⟩

end Program

/-! ### Code -/

/-- Whether a run came to its end with a word. -/
def Outcome.Returned (outcome : Outcome) : Prop := ∃ word, outcome = .finished (.ok word)

namespace Code

variable {α β : Type} {x : Code α} {f : α → Code β} {j k : Nat}

/-- Whether code does not stop early. -/
def Well : Except Interrupt α → Prop
  | .ok _ => True
  | .error _ => False

/-- Whether code makes so many objects if it does not stop early, and stops early once an object was
refused. -/
def Makes (x : Code α) (k : Nat) : Prop := x.ended.Makes Well k

namespace Makes

theorem pure (a : α) : (Pure.pure a : Code α).Makes 0 := fun _ => rfl

theorem throw (interrupt : Interrupt) : (MonadExcept.throw interrupt : Code α).Makes k :=
  fun h => h.elim

/-- What follows a throw makes no difference. -/
theorem throw_bind (interrupt : Interrupt) :
    ((MonadExcept.throw interrupt : Code α) >>= f).Makes k :=
  fun h => h.elim

theorem bind (hx : x.Makes j) (hf : ∀ a, (f a).Makes k) : (x >>= f).Makes (j + k) := by
  rw [Makes, ended_bind]
  refine Program.Makes.andThen hx (fun result hwell => ?_) fun result hbad => ?_
  · cases result with
    | ok a => exact hf a
    | error interrupt => exact hwell.elim
  · cases result with
    | ok a => exact absurd trivial hbad
    | error interrupt => exact id

/-- Code that makes no objects of its own and then goes on. -/
theorem bind_right (hx : x.Makes 0) (hf : ∀ a, (f a).Makes k) : (x >>= f).Makes k := by
  have h := hx.bind hf
  rwa [Nat.zero_add] at h

theorem orStop (answer : Answer α) : (Code.orStop answer).Makes 0 := by
  cases answer with
  | ok a => exact .pure a
  | error fault => exact .throw _

/-- An operation that does not ask the allocator makes no object. -/
theorem operation (action : Action) (f : action.Reply → Answer α)
    (hoperates : action.operates = true) :
    (Code.ask action >>= fun reply => Code.orStop (f reply)).Makes 0 := by
  have hask : (Code.ask action).Makes 0 := fun reply _ =>
    .inr ⟨Action.works_of_operates hoperates, 0, 0,
      action.makes_of_quiet (Action.quiet_of_operates hoperates) reply, rfl, fun _ => rfl⟩
  exact hask.bind_right fun reply => .orStop (f reply)

/-- One object is made before the rest. -/
theorem newObject {env : Env} {f : Handle → Code β} (hf : ∀ o, (f o).Makes k) :
    (Code.newObject env >>= f).Makes (k + 1) := by
  have hone : (Code.newObject env).Makes 1 := by
    intro reply _
    cases reply with
    | ok o => exact .inr ⟨rfl, 1, 0, rfl, rfl, fun _ => rfl⟩
    | error fault => exact .inl id
  rw [Nat.add_comm]
  exact hone.bind hf

/-- A call makes what its method makes. -/
theorem call {caller : Env} {method : Method} {args : List Word}
    (hbody : ∀ callee, (method.body callee args).Makes k) :
    (Code.call caller method args).Makes k := by
  rw [Makes, Session.ended_call]
  intro reply _
  cases reply with
  | error fault => exact .inl id
  | ok callee =>
    refine .inr ⟨rfl, 0, k, rfl, (Nat.zero_add k).symm, ?_⟩
    have h : ((method.body callee args).ended.andThen (Session.concluding caller callee)).Makes
        Well (k + 0) := by
      refine Program.Makes.andThen (hbody callee) (fun result hwell => ?_) fun result hbad => ?_
      · cases result with
        | ok word => exact fun reply _ => .inr ⟨rfl, 0, 0, rfl, rfl, fun _ => rfl⟩
        | error interrupt => exact hwell.elim
      · rcases result with (fault | _) | word
        · intro reply hreply
          obtain rfl : reply = .error fault := hreply
          exact id
        · exact fun _ _ => id
        · exact absurd trivial hbad
    exact h

/-- A run makes what its method makes. -/
theorem outcome {method : Method} {args : List Word}
    (hbody : ∀ entry, (method.body entry args).Makes k) :
    (Code.runMethod method args).outcome.Makes Outcome.Returned k := by
  have hreported : ∀ result : Except Interrupt Word, ¬ Well result →
      (reported result).Fails Outcome.Returned := by
    rintro ((fault | _) | word) hbad
    · exact fun ⟨_, h⟩ => nomatch h
    · exact fun ⟨_, h⟩ => nomatch h
    · exact absurd trivial hbad
  rw [outcome_eq, Session.ended_runMethod]
  intro reply _
  cases reply with
  | error fault => exact .inl (hreported _ id)
  | ok entry =>
    refine .inr ⟨rfl, 0, k, rfl, (Nat.zero_add k).symm, ?_⟩
    have hclosed : ((method.body entry args).ended.andThen (Session.closing entry)).Makes
        Well (k + 0) := by
      refine Program.Makes.andThen (hbody entry) (fun result hwell => ?_) fun result hbad => ?_
      · cases result with
        | ok word =>
          intro reply _
          cases reply with
          | ok result => exact .inr ⟨rfl, 0, 0, rfl, rfl, fun _ => rfl⟩
          | error fault => exact .inl id
        | error interrupt => exact hwell.elim
      · rcases result with (fault | _) | word
        · intro reply _
          cases reply <;> exact id
        · exact fun _ _ => id
        · exact absurd trivial hbad
    refine Program.Makes.andThen (k := 0) hclosed (fun result hwell => ?_) hreported
    cases result with
    | ok word => exact fun _ => rfl
    | error interrupt => exact hwell.elim

end Makes

end Code

/-! ### A session counts -/

namespace MarkSweep

variable {t : Thread} {calls : CallStacks} {a : Arena MarkSweep} {env : Env}

/-- A cell that is taken is counted. -/
theorem allocations_take (a : Arena MarkSweep) (env : Env) :
    (take t a).2.allocator.stats.allocations = a.allocator.stats.allocations +
      ((Action.newObject env).makes (take t a).1).getD 0 := by
  unfold take
  cases a.allocator.free with
  | nil => rfl
  | cons h free =>
    dsimp only
    cases a.heap.cell h <;> rfl

/-- A collection makes no objects. -/
theorem allocations_collect (hbound : a.allocator.binding.isSome) (hgate : a.gate.lets t = true) :
    (collect t calls a).2.allocator.stats.allocations = a.allocator.stats.allocations := by
  rw [collect_eq t calls hbound hgate, allocator_report]
  rfl

theorem allocations_allocate (calls : CallStacks) (env : Env) (hbound : a.allocator.binding.isSome)
    (hgate : a.gate.lets t = true) :
    (allocate t calls a).2.allocator.stats.allocations = a.allocator.stats.allocations +
      ((Action.newObject env).makes (allocate t calls a).1).getD 0 := by
  rw [allocate_eq hbound fun _ => hgate, allocations_take _ env]
  congr 1
  unfold refilled
  split
  · exact allocations_collect hbound hgate
  · rfl

end MarkSweep

namespace Session

variable {α : Type} {s : Session MarkSweep} {t : Thread} {env : Env} {action : Action}

theorem credible_reply {A : Type} [Allocator A] (s : Session A) (t : Thread) (action : Action) :
    action.Credible (s.reply t action) := by
  cases action with
  | endCall caller callee outcome =>
    cases outcome with
    | ok word => trivial
    | error fault => exact (after_endCall s t caller callee (.error fault)).1
  | _ => trivial

/-- A program that comes to no good result does not come to one when it is played. -/
theorem not_good_play {A : Type} [Allocator A] {s : Session A} {Good : α → Prop} {p : Program α}
    (h : p.Fails Good) : ¬ Good (s.play t p).1 := by
  induction p generalizing s with
  | done a => exact h
  | act action next ih => exact ih _ (h _ (credible_reply s t action))

/-- The number of objects that a session over mark and sweep has counted. -/
def allocations (s : Session MarkSweep) : Nat := s.machine.allocator.stats.allocations

/-- Objects are counted as they are given out. -/
theorem allocations_after (hs : s.Sound) (hm : s.machine.allocator.Balanced s.machine.heap.size)
    (t : Thread) (action : Action) :
    (s.after t action).allocations =
      s.allocations + (action.makes (s.reply t action)).getD 0 := by
  have hgate : s.machine.gate.lets t = true := Gate.lets_of_unheld hs.ready.unheld
  cases haction : action.allocates with
  | false =>
    have hsame : (s.after t action).machine.allocator = s.machine.allocator :=
      World.allocator_perform haction
    rw [allocations, hsame, action.makes_of_quiet haction]
    rfl
  | true =>
    cases action with
    | newObject env =>
      have hcounted := MarkSweep.allocations_allocate (t := t) s.calls
        (a := s.machine.toArena) env hm.bound hgate
      have hgiven : s.machine.toArena.Allocation s.calls
          (MarkSweep.allocate t s.calls s.machine.toArena) := MarkSweep.allocate_ready hs.ready
      have hallocate : Allocator.allocate t s.machine.calls s.machine.toArena =
        MarkSweep.allocate t s.calls s.machine.toArena := rfl
      change (s.machine.newObject t env).2.allocator.stats.allocations =
        s.machine.allocator.stats.allocations +
          ((Action.newObject env).makes (s.machine.newObject t env).1).getD 0
      rw [Machine.newObject_eq, hallocate]
      cases s.machine.checkActive env with
      | error fault => rfl
      | ok _ =>
        dsimp only
        generalize MarkSweep.allocate t s.calls s.machine.toArena = allocated at hcounted hgiven
        cases hgiven with
        | exhausted ready heap => exact hcounted
        | @given h arena cell unreached heap fits counted live unheld =>
          have hfree : ¬ (s.machine.frame env).holds h = true := fun hheld =>
            unreached (.root (hs.mem_roots (Frame.holds_iff.1 hheld)))
          dsimp only
          rw [if_neg hfree, Machine.allocator_traced]
          exact hcounted
    | collect => exact MarkSweep.allocations_collect hm.bound hgate
    | _ => cases haction

end Session

end RootedHeap
