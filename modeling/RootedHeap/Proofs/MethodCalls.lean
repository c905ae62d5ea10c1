import RootedHeap.Proofs.RunCleanup
import RootedHeap.Proofs.Transfers

/-!
Calls as code makes them. The code that calls a method puts the end of the call on every way out of
the method, so a method that acts through its own environment, and calls others from there, stays
within its call however deep these calls nest (`Program.Confined`), and what is said of calls in
`Transfers` is said of what the code does.
-/

namespace RootedHeap

/-- Whether an action works through none but given environments, and neither begins nor ends
anything. -/
def Action.worksThrough (envs : List Env) : Action → Prop
  | .newObject env | .getReference env _ _ | .getData env _ _ | .setReference env _ _ _
  | .setData env _ _ _ | .release env _ | .frame env | .envLayout env | .keep _ env => env ∈ envs
  | .beginCall .. | .endCall .. | .abandonCall _ | .beginRun .. | .endRun .. | .abandonRun _ =>
    False
  | _ => True

/-- Programs that act through given environments and through those of the calls that they make from
there. -/
inductive Program.Confined : {α : Type} → List Env → Program α → Prop
  | done {α : Type} {envs : List Env} (result : α) : Confined envs (.done result)
  | act {α : Type} {envs : List Env} {action : Action} {next : action.Reply → Program α}
      (own : action.worksThrough envs) (rest : ∀ reply, Confined envs (next reply)) :
    Confined envs (.act action next)
  | call {α : Type} {envs : List Env} {caller : Env} {method : Method} {args : List Word}
      {next : Except Interrupt Word → Program α} (own : caller ∈ envs)
      (body : ∀ callee, Confined (callee :: envs) (method.body callee args).ended)
      (rest : ∀ result, Confined envs (next result)) :
    Confined envs ((Code.call caller method args).ended.andThen next)

section Confined

variable {α β : Type} {envs : List Env}

theorem Program.andThen_assoc {γ : Type} (p : Program α) (f : α → Program β) (g : β → Program γ) :
    (p.andThen f).andThen g = p.andThen fun a => (f a).andThen g := by
  induction p with
  | done result => rfl
  | act action next ih => exact congrArg (Program.act action) (funext fun reply => ih reply)

theorem Program.andThen_done (p : Program α) : p.andThen .done = p := by
  induction p with
  | done result => rfl
  | act action next ih => exact congrArg (Program.act action) (funext fun reply => ih reply)

theorem Program.Confined.andThen {p : Program α} {f : α → Program β} (h : p.Confined envs)
    (hf : ∀ a, (f a).Confined envs) : (p.andThen f).Confined envs := by
  induction h with
  | done result => exact hf result
  | act own rest ih => exact .act own fun reply => ih reply hf
  | call own body rest ihbody ihrest =>
    rw [Program.andThen_assoc]
    exact .call own body fun result => ihrest result hf

namespace Code

/-- Code whose program is confined to given environments. -/
def Confined (envs : List Env) (code : Code α) : Prop := code.ended.Confined envs

theorem Confined.pure (a : α) : Code.Confined envs (Pure.pure a : Code α) :=
  .done _

theorem Confined.throw (interrupt : Interrupt) :
    Code.Confined envs (throw interrupt : Code α) :=
  .done _

theorem Confined.bind {x : Code α} {f : α → Code β} (hx : x.Confined envs)
    (hf : ∀ a, (f a).Confined envs) : (x >>= f).Confined envs := by
  rw [Confined, ended_bind]
  refine Program.Confined.andThen hx fun result => ?_
  cases result with
  | ok a => exact hf a
  | error interrupt => exact .done _

theorem Confined.ask {action : Action} (hown : action.worksThrough envs) :
    (Code.ask action).Confined envs :=
  .act hown fun _ => .done _

theorem Confined.orStop (answer : Answer α) : (Code.orStop answer).Confined envs := by
  cases answer <;> exact .done _

theorem Confined.call {caller : Env} {method : Method} {args : List Word} (hown : caller ∈ envs)
    (hbody : ∀ callee, (method.body callee args).Confined (callee :: envs)) :
    (Code.call caller method args).Confined envs := by
  have h : ((Code.call caller method args).ended.andThen Program.done).Confined envs :=
    .call hown hbody .done
  rw [Program.andThen_done] at h
  exact h

theorem Confined.attempt {code : Code α} (h : code.Confined envs) :
    (Code.attempt code).Confined envs := by
  rw [Confined, ended_attempt]
  exact Program.Confined.andThen h fun result => .done _

end Code

end Confined

namespace Session

variable {A : Type} [Allocator A] {α β : Type} {s₀ s s₁ : Session A} {t : Thread} {action : Action}
  {caller callee : Env} {name : String} {args : List Word}

/-! ### The code that calls a method -/

/-- Whether a program of one thread stays within a call. -/
def keepsWithin (callee : Env) (t : Thread) : Program α → Session A → Prop
  | .done _, _ => True
  | .act action next, s => s.Within callee action ∧
    keepsWithin callee t (next (s.reply t action)) (s.after t action)

instance decidableKeepsWithin (callee : Env) (t : Thread) :
    (p : Program α) → (s : Session A) → Decidable (s.keepsWithin callee t p)
  | .done _, _ => isTrue trivial
  | .act action next, s =>
    haveI := decidableKeepsWithin callee t (next (s.reply t action)) (s.after t action)
    inferInstanceAs (Decidable (s.Within callee action ∧
      keepsWithin callee t (next (s.reply t action)) (s.after t action)))

theorem inner_of_keepsWithin {p : Program α} (hinner : Inner callee s₀ s)
    (hkeeps : s.keepsWithin callee t p) : Inner callee s₀ (s.play t p).2 := by
  induction p generalizing s with
  | done result => exact hinner
  | act action next ih => exact ih _ (hinner.move t action hkeeps.1) hkeeps.2

/-- What a call comes to whose method left a session within it: how its method ended is told to the
caller, or it panicked. -/
def concluded (s : Session A) (t : Thread) (caller callee : Env) :
    Except Interrupt Word → Except Interrupt Word × Session A
  | .ok word =>
    (Answer.ending (s.delivers callee (.ok word)).1, s.after t (.endCall caller callee (.ok word)))
  | .error (.fault fault) =>
    (.error (.fault fault), s.after t (.endCall caller callee (.error fault)))
  | .error .panic => (.error .panic, s.after t (.abandonCall callee))

theorem play_concluding (s : Session A) (t : Thread) (caller callee : Env)
    (result : Except Interrupt Word) :
    s.play t (concluding caller callee result) = s.concluded t caller callee result := by
  rcases result with (fault | _) | word
  · rw [concluding, play, (after_endCall s t caller callee _).1]
    rfl
  · rfl
  · rw [concluding, play, (after_endCall s t caller callee _).1, concluded, delivers_eq]
    rfl

theorem keepsWithin_andThen {p : Program α} {f : α → Program β}
    (hfirst : s.keepsWithin callee t p)
    (hthen : (s.play t p).2.keepsWithin callee t (f (s.play t p).1)) :
    s.keepsWithin callee t (p.andThen f) := by
  induction p generalizing s with
  | done result => exact hthen
  | act action next ih => exact ⟨hfirst.1, ih _ hfirst.2 hthen⟩

/-! ### Programs that stay within a call -/

theorem ran_play {start : Machine A} {past : List Move} (hran : Ran start past s)
    {p : Program α} (hkeeps : s.keepsWithin callee t p) :
    ∃ past', Ran start past' (s.play t p).2 := by
  obtain ⟨moves, hcourse⟩ := (inner_of_keepsWithin .start hkeeps).course
  exact ⟨_, hran.course hcourse⟩

theorem envs_play {p : Program α} (hkeeps : s.keepsWithin callee t p) :
    s.ledger.envs ⊆ (s.play t p).2.ledger.envs := by
  obtain ⟨moves, hcourse⟩ := (inner_of_keepsWithin .start hkeeps).course
  exact hcourse.grows.envs.subset

/-- The environments that a program within a call acts through: they are known, and on the stack of
the callee not below it. -/
def Above (s : Session A) (callee : Env) (envs : List Env) : Prop :=
  ∀ env ∈ envs, env ∈ s.ledger.envs ∧ (env.stack = callee.stack → callee.frame ≤ env.frame)

/-- An action that begins and ends nothing leaves the ledger as it is. -/
theorem within_of_worksThrough {envs : List Env} (hown : action.worksThrough envs)
    (henvs : s.Above callee envs) :
    s.Within callee action ∧ (s.after t action).ledger = s.ledger := by
  cases action with
  | newObject env | getReference env object slot | getData env object slot
  | setReference env object slot target | setData env object slot word | release env object =>
    exact ⟨⟨(henvs env hown).1, (henvs env hown).2, fun hends => nomatch hends⟩, rfl⟩
  | frame env | envLayout env | keep name env =>
    exact ⟨⟨(henvs env hown).1, trivial, fun hends => nomatch hends⟩, rfl⟩
  | beginCall | endCall | abandonCall | beginRun | endRun | abandonRun => exact hown.elim
  | _ => exact ⟨⟨trivial, trivial, fun hends => nomatch hends⟩, rfl⟩

/-- The last move of a call whose method has left no call of its own pending. -/
theorem concluding_keepsWithin {calls : List (Env × Env)} {result : Except Interrupt Word}
    (hcalls : s.ledger.calls = (caller, callee) :: calls)
    (hfresh : ∀ call ∈ calls, call.2 ≠ callee) {c : Env} (hstack : caller.stack = callee.stack)
    (hcaller : caller.stack = c.stack → c.frame ≤ caller.frame)
    (hlt : caller.frame < callee.frame) :
    s.keepsWithin c t (concluding caller callee result) ∧
      (s.play t (concluding caller callee result)).2.ledger.calls = calls := by
  have hlatest : s.ledger.latest callee.stack = some (caller, callee) := by
    rw [Ledger.latest, hcalls]
    exact List.find?_cons_of_pos (decide_eq_true rfl)
  have hmem : (caller, callee) ∈ s.ledger.calls := by
    rw [hcalls]
    exact List.mem_cons_self
  have hend : ∀ outcome, s.Within c (.endCall caller callee outcome) := fun outcome =>
    ⟨hmem, hcaller, fun _ => decide_eq_true hlatest⟩
  have herase : ∀ outcome, (s.after t (.endCall caller callee outcome)).ledger.calls = calls := by
    intro outcome
    change s.ledger.calls.erase (caller, callee) = calls
    rw [hcalls, List.erase_cons_head]
  rcases result with (fault | _) | word
  · exact ⟨⟨hend _, trivial⟩, herase _⟩
  · refine ⟨⟨⟨⟨caller, hmem⟩, fun hc => ?_, fun _ => ?_⟩, trivial⟩, ?_⟩
    · exact Nat.lt_of_le_of_lt (hcaller (hstack.trans hc)) hlt
    · change decide ((s.ledger.latest callee.stack).map Prod.snd = some callee) = true
      rw [hlatest]
      exact decide_eq_true rfl
    · change s.ledger.calls.filter (·.2 ≠ callee) = calls
      rw [hcalls, List.filter_cons_of_neg (by simp)]
      exact List.filter_eq_self.2 fun call hcall => decide_eq_true (hfresh call hcall)
  · exact ⟨⟨hend _, trivial⟩, herase _⟩

/-- The code of a call stays within the call that it is made in, if its method does. -/
theorem call_keepsWithin {start : Machine A} {past : List Move} (hstart : start.calls = .empty)
    (hran : Ran start past s) {method : Method} {envs : List Env}
    (henvs : s.Above callee envs) (hown : caller ∈ envs)
    (hbody : ∀ s₁ past₁, Ran start past₁ s₁ → s₁.Above callee (s.next caller :: envs) →
      s₁.keepsWithin callee t (method.body (s.next caller) args).ended ∧
        (s₁.play t (method.body (s.next caller) args).ended).2.ledger.calls = s₁.ledger.calls) :
    s.keepsWithin callee t (Code.call caller method args).ended ∧
      (s.play t (Code.call caller method args).ended).2.ledger.calls = s.ledger.calls := by
  obtain ⟨hcaller, hle⟩ := henvs caller hown
  have h := hran.tallies hstart
  have hbegin : s.Within callee (.beginCall caller method.name args) :=
    ⟨hcaller, hle, fun hends => nomatch hends⟩
  have hreply := s.reply_beginCall t caller method.name args
  rw [ended_call]
  cases hfault : s.machine.callFault? caller args with
  | some fault =>
    rw [hfault] at hreply
    have hsame : s.after t (.beginCall caller method.name args) = s :=
      after_refused (Answer.fault?_eq_some.2 hreply)
    rw [keepsWithin, play, hreply, hsame]
    exact ⟨⟨hbegin, trivial⟩, rfl⟩
  | none =>
    have hreply : s.reply t (.beginCall caller method.name args) = .ok (s.next caller) := by
      rw [hreply, hfault]
      rfl
    have hledger : (s.after t (.beginCall caller method.name args)).ledger =
        { s.ledger with
          envs := s.ledger.envs ++ [s.next caller]
          calls := (caller, s.next caller) :: s.ledger.calls } := by
      rw [after, hreply]
      rfl
    have hran₁ := hran.move t (.beginCall caller method.name args) hcaller
    have henvs₁ : (s.after t (.beginCall caller method.name args)).Above callee
        (s.next caller :: envs) := by
      intro env henv
      rw [hledger]
      rcases List.mem_cons.1 henv with rfl | henv
      · refine ⟨List.mem_append_right _ (List.mem_singleton.2 rfl), fun hstack => ?_⟩
        exact Nat.le_of_lt (Nat.lt_of_le_of_lt (hle hstack) (h.lt_size hcaller))
      · exact ⟨List.mem_append_left _ (henvs env henv).1, (henvs env henv).2⟩
    obtain ⟨hkeeps, hcalls⟩ := hbody _ _ hran₁ henvs₁
    rw [hledger] at hcalls
    obtain ⟨hlast, hleft⟩ := concluding_keepsWithin (t := t) hcalls
      (fun call hcall heq => Nat.lt_irrefl _ (heq ▸ h.lt_size (h.nested _ _ hcall).1)) rfl hle
      (h.lt_size hcaller)
    rw [keepsWithin, play, hreply]
    dsimp only
    rw [play_andThen]
    exact ⟨⟨hbegin, keepsWithin_andThen hkeeps hlast⟩, hleft⟩

/-- A program that acts through frames from a callee on, and through those of the calls that it
makes there, stays within the call and leaves none of its own calls pending. -/
theorem Ran.keepsWithin_of_confined {start : Machine A} {past : List Move}
    (hstart : start.calls = .empty) (hran : Ran start past s) {p : Program α} {envs : List Env}
    (hconfined : p.Confined envs) (henvs : s.Above callee envs) :
    s.keepsWithin callee t p ∧ (s.play t p).2.ledger.calls = s.ledger.calls := by
  induction hconfined generalizing s past with
  | done result => exact ⟨trivial, rfl⟩
  | @act α envs action next own rest ih =>
    obtain ⟨hwithin, hledger⟩ := within_of_worksThrough (t := t) own henvs
    obtain ⟨hkeeps, hcalls⟩ := ih _ (hran.move t action hwithin.permitted) fun env henv => by
      rw [hledger]
      exact henvs env henv
    exact ⟨⟨hwithin, hkeeps⟩, hcalls.trans (congrArg Ledger.calls hledger)⟩
  | @call α envs caller method args next own body rest ihbody ihrest =>
    obtain ⟨hkeeps, hcalls⟩ := call_keepsWithin (t := t) hstart hran henvs own
      fun s₁ past₁ hran₁ henvs₁ => ihbody (s.next caller) hran₁ henvs₁
    obtain ⟨past', hran'⟩ := ran_play hran hkeeps
    obtain ⟨hthen, hleft⟩ := ihrest (s.play t (Code.call caller method args).ended).1 hran'
      fun env henv => ⟨envs_play hkeeps (henvs env henv).1, (henvs env henv).2⟩
    rw [play_andThen]
    exact ⟨keepsWithin_andThen hkeeps hthen, hleft.trans hcalls⟩

/-! ### Roots handed over and brought back -/

/-- What calls from a frame take with them and bring back. -/
structure TransfersRoots (s : Session A) (caller : Env) : Prop where
  refused : ∀ t method args h, s.missing? caller args = some h →
    (Code.call caller method args).ended.run t s.world = (.error (.fault (.notHeld h)), s.world)
  begun : ∀ t name args, s.missing? caller args = none →
    s.reply t (.beginCall caller name args) = .ok (s.next caller) ∧
      ((s.after t (.beginCall caller name args)).machine.frame (s.next caller)).state = .active ∧
      ((s.after t (.beginCall caller name args)).machine.frame (s.next caller)).handles =
        (args.filterMap Word.target?).eraseDups
  /-- Whatever is done within it, its end answers with what the method returned, and brings nothing
  but an object that the callee holds. -/
  returned : ∀ t name args, s.missing? caller args = none →
    ∀ s₁, Inner (s.next caller) (s.after t (.beginCall caller name args)) s₁ → ∀ u outcome,
      s₁.reply u (.endCall caller (s.next caller) outcome) =
          (s₁.delivers (s.next caller) outcome).1 ∧
        CallOver s (s₁.after u (.endCall caller (s.next caller) outcome)) caller
          (s₁.delivers (s.next caller) outcome).2
  panicked : ∀ t name args, s.missing? caller args = none →
    ∀ s₁, Inner (s.next caller) (s.after t (.beginCall caller name args)) s₁ → ∀ u,
      CallOver s (s₁.after u (.abandonCall (s.next caller))) caller none
  /-- A method that acts through its own frame, and calls others from there, stays within its call,
  however deep these calls nest and however they end. -/
  within : ∀ t (method : Method) args, s.missing? caller args = none →
    (method.body (s.next caller) args).Confined [s.next caller] →
      (s.after t (.beginCall caller method.name args)).keepsWithin (s.next caller) t
        (method.body (s.next caller) args).ended
  code : ∀ t (method : Method) args, s.missing? caller args = none →
    (s.after t (.beginCall caller method.name args)).keepsWithin (s.next caller) t
        (method.body (s.next caller) args).ended →
      ∃ s₁ result, Inner (s.next caller) (s.after t (.beginCall caller method.name args)) s₁ ∧
        (method.body (s.next caller) args).ended.run t
            (s.after t (.beginCall caller method.name args)).world = (result, s₁.world) ∧
        (Code.call caller method args).ended.run t s.world =
          ((s₁.concluded t caller (s.next caller) result).1,
            (s₁.concluded t caller (s.next caller) result).2.world)

/-- In every session, whatever the allocator, calls from an active frame on a stack with room hand
over exactly the objects among their arguments, and leave the stack as it was on every way out but
for an object that is returned. -/
theorem Ran.transfersRoots {first : Thread} {heap : Heap} {allocator : A} {config : MachineConfig}
    {start : Machine A} {past : List Move}
    (hbuild : Machine.build first heap allocator config = .ok start) (hran : Ran start past s)
    (hcaller : caller ∈ s.ledger.envs) (hactive : (s.machine.frame caller).state = .active)
    (hroom : s.calls.depth caller.stack < config.maxCallDepth) : s.TransfersRoots caller := by
  have hstart := calls_of_build hbuild
  have h := hran.tallies hstart
  have hon := h.onStack caller hcaller hactive
  have hconfig : s.machine.config = config := hran.config_eq.trans (config_of_build hbuild)
  have hfault : ∀ args, s.machine.callFault? caller args = (s.missing? caller args).map .notHeld :=
    fun args => callFault?_eq hactive (hconfig ▸ hroom)
  have hlet : ∀ args, s.missing? caller args = none → s.machine.callFault? caller args = none := by
    intro args hmissing
    rw [hfault, hmissing]
    rfl
  have hreply : ∀ t name args, s.missing? caller args = none →
      s.reply t (.beginCall caller name args) = .ok (s.next caller) := by
    intro t name args hmissing
    rw [reply_beginCall, hlet args hmissing]
    rfl
  refine
    { refused := fun t method args o hmissing => call_not_invoked (by rw [hfault, hmissing]; rfl)
      begun := fun t name args hmissing =>
        ⟨hreply t name args hmissing, frame_of_begun (hlet args hmissing)⟩
      returned := fun t name args hmissing s₁ hinner u outcome => ?_
      panicked := fun t name args hmissing s₁ hinner u => ?_
      within := fun t method args hmissing hconfined => ?_
      code := fun t method args hmissing hkeeps => ?_ }
  · obtain ⟨hduring, past', hran'⟩ := hinner.during hstart hran hcaller (hlet args hmissing)
    obtain ⟨hanswer, hcalls⟩ := after_endCall s₁ u caller (s.next caller) outcome
    have hpermits : s₁.ledger.permits (.endCall caller (s.next caller) outcome) := hduring.pending
    rw [delivers_eq]
    exact ⟨hanswer,
      callOver_of_popped h hon (hran'.tallies hstart) hduring hpermits hcalls rfl⟩
  · obtain ⟨hduring, past', hran'⟩ := hinner.during hstart hran hcaller (hlet args hmissing)
    have hpermits : s₁.ledger.permits (.abandonCall (s.next caller)) := ⟨caller, hduring.pending⟩
    -- nothing is settled, as after a fault
    have hcalls : (s₁.after u (.abandonCall (s.next caller))).calls =
        (s₁.calls.settled caller.frame (s.next caller).frame (.error .callStackOverflow)).pop
          caller.stack (s.next caller).frame := rfl
    exact callOver_of_popped h hon (hran'.tallies hstart) hduring hpermits hcalls rfl
  · have hinner : Inner (s.next caller) (s.after t (.beginCall caller method.name args))
        (s.after t (.beginCall caller method.name args)) := .start
    obtain ⟨hduring, past', hran'⟩ := hinner.during hstart hran hcaller (hlet args hmissing)
    have hknown := ((hran'.tallies hstart).nested _ _ hduring.pending).1
    refine (hran'.keepsWithin_of_confined hstart hconfined fun env henv => ?_).1
    obtain rfl := List.mem_singleton.1 henv
    exact ⟨hknown, fun _ => Nat.le_refl _⟩
  · refine ⟨_, _, inner_of_keepsWithin .start hkeeps, run_eq_play _ _ _, ?_⟩
    rw [run_eq_play, ended_call, play, hreply t method.name args hmissing]
    dsimp only
    rw [play_andThen, play_concluding]

/-- A method that makes an object and returns it. In between it hands it to a callee that makes
another, and loses it to a third that panics. -/
def delegating : Method where
  name := "delegating"
  body env _ := do
    let h ← Code.newObject env
    let _ ← Code.attempt (Code.call env
      ⟨"losing", fun callee _ => do
        let lost ← Code.newObject callee
        Code.call callee ⟨"panicking", fun _ _ => throw .panic⟩ [Handle.toWord lost]⟩
      [Handle.toWord h])
    return Handle.toWord h

/-- What a call to it comes to, and what the caller then holds. -/
def delegated (s : Session MarkSweep) (caller : Env) (args : List Word) :
    Option Word × List Handle :=
  let called := (Code.call caller delegating args).ended.run 0 s.world
  (called.1.toOption, (called.2.machine.frame caller).handles)

theorem delegating_confined (env : Env) (args : List Word) :
    (delegating.body env args).Confined [env] := by
  refine .bind (.bind (.ask List.mem_cons_self) .orStop) fun h => ?_
  refine .bind (.attempt (.call List.mem_cons_self fun callee => ?_)) fun _ => .pure _
  refine .bind (.bind (.ask List.mem_cons_self) .orStop) fun lost => ?_
  exact .call List.mem_cons_self fun _ => .throw _

/-- What is said of all sessions, said of one whose frame holds two objects: it comes to hold the
third that a method returns to it, and nothing of what was lost on the way. -/
theorem transfersRoots_of_delegating :
    ∃ (start : Machine MarkSweep) (past : List Move) (s : Session MarkSweep),
      Machine.build Thread.first (.ofSize 6 1) (MarkSweep.fresh .zero) ⟨8, false⟩ = .ok start ∧
        Ran start past s ∧ s.TransfersRoots ⟨0, 0⟩ ∧
        s.missing? ⟨0, 0⟩ [2, -7, 1, 2, 5] = some 5 ∧ s.missing? ⟨0, 0⟩ [2, -7, 1, 2] = none ∧
        (delegating.body (s.next ⟨0, 0⟩) [2, -7, 1, 2]).Confined [s.next ⟨0, 0⟩] ∧
        s.delegated ⟨0, 0⟩ [2, -7, 1, 2] = (some 3, [1, 2, 3]) := by
  have hseen : watched ⟨8, false⟩ (.ofSize 6 1) (MarkSweep.fresh .zero)
      [(0, .beginRun "entry" []), (0, .newObject ⟨0, 0⟩), (0, .newObject ⟨0, 0⟩)] []
      (fun (_, s) _ => ((decide (⟨0, 0⟩ ∈ s.ledger.envs), (s.machine.frame ⟨0, 0⟩).state,
          decide (s.calls.depth 0 < 8)),
        (s.missing? ⟨0, 0⟩ [2, -7, 1, 2, 5], s.missing? ⟨0, 0⟩ [2, -7, 1, 2]),
        s.delegated ⟨0, 0⟩ [2, -7, 1, 2])) =
        some ((true, .active, true), (some 5, none), some 3, [1, 2, 3]) := by
    decide +kernel
  obtain ⟨start, past, s, -, -, hbuild, hran, -, hsight⟩ := exists_course_of_watched hseen
  obtain ⟨⟨hcaller, hactive, hroom⟩, ⟨hmissing, hnone⟩, hdelegated⟩ := by
    simpa only [Prod.mk.injEq, decide_eq_true_eq] using hsight
  exact ⟨start, past, s, hbuild, hran, Ran.transfersRoots hbuild hran hcaller hactive hroom,
    hmissing, hnone, delegating_confined _ _, hdelegated⟩

end Session

end RootedHeap
