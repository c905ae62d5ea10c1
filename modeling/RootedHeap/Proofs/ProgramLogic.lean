import RootedHeap.Proofs.RunCleanup
import RootedHeap.Proofs.Transparency

/-!
A program among others. What a frame can see of a session is its own record, its stack, and the
cells that the stack reaches; orderly work on other stacks changes none of that. So what a program
knows of these lasts from one of its steps to its next, whatever others do in between, and a program
can be reasoned about step by step as if it were alone.

`CodeContext.Ensures` says of a program that it takes only steps on its own stack and comes to what
is asked of its result; `CodeContext.Keeps` says so of code, and has one rule for each way in which
code is put together.
-/

namespace RootedHeap

variable {A : Type} {α β : Type}

namespace Heap

variable {heap : Heap}

theorem width_after {action : Action} {reply : action.Reply} :
    (heap.after action reply).width = heap.width :=
  after_cases (P := fun heap' => heap'.width = heap.width) rfl (fun _ => width_modify)
    (fun _ _ _ => width_modify) action reply

end Heap

namespace Session

/-- Whether sessions look alike from the stack of a frame. -/
structure Unnoticed (env : Env) (s s' : Session A) : Prop where
  known : s.ledger.envs ⊆ s'.ledger.envs
  pending : ∀ call ∈ s.ledger.calls, call.2.stack = env.stack → call ∈ s'.ledger.calls
  frame : ∀ e ∈ s.ledger.envs, e.stack = env.stack → s'.machine.frame e = s.machine.frame e
  stack : s'.calls.stack env.stack = s.calls.stack env.stack
  reach : ∀ h, s'.machine.heap.Reaches (s'.calls.stackRoots env.stack) h ↔
    s.machine.heap.Reaches (s.calls.stackRoots env.stack) h
  words : ∀ h, s.machine.heap.Reaches (s.calls.stackRoots env.stack) h →
    s'.machine.heap.words h = s.machine.heap.words h

/-- Whether an action is a program's own business: it is within the rules and orderly, works on the
stack of the program's frame or on none that others have, and begins and ends no run. -/
structure Proper (env : Env) (s : Session A) (action : Action) : Prop where
  permitted : s.ledger.permits action
  orderly : action.orderly = true
  placed : action.stack s.calls = env.stack ∨ action.stack s.calls = s.calls.known.size
  runs : ∀ reply, (s.ledger.record action reply).runs = s.ledger.runs

/-- A steady session in which stacks are apart, over a heap of the given width. -/
structure WellFormed [Allocator A] [LawfulCollector A] (width : Nat) (s : Session A) : Prop
    extends s.Steady width where
  apart : Apart s.machine.heap s.calls
  spanned : s.machine.heap.width = width

/-- Whether a frame is at work, alone on its stack, and holds just these objects. -/
structure AloneHolding (env : Env) (held : List Handle) (s : Session A) : Prop where
  known : env ∈ s.ledger.envs
  active : (s.machine.frame env).state = .active
  alone : (s.calls.stack env.stack).frames = [env.frame]
  holds : (s.machine.frame env).handles = held

variable {s s' s'' : Session A} {t : Thread} {env : Env} {held : List Handle} {width : Nat}
  {action : Action}

namespace Unnoticed

theorem refl : s.Unnoticed env s :=
  ⟨fun _ => id, fun _ hcall _ => hcall, fun _ _ _ => rfl, rfl, fun _ => Iff.rfl, fun _ _ => rfl⟩

theorem trans (h : s.Unnoticed env s') (h' : s'.Unnoticed env s'') : s.Unnoticed env s'' where
  known _ he := h'.known (h.known he)
  pending call hcall hk := h'.pending call (h.pending call hcall hk) hk
  frame e he hk := (h'.frame e (h.known he) hk).trans (h.frame e he hk)
  stack := h'.stack.trans h.stack
  reach x := (h'.reach x).trans (h.reach x)
  words x hx := (h'.words x ((h.reach x).2 hx)).trans (h.words x hx)

end Unnoticed

namespace AloneHolding

theorem stackRoots (hs : s.AloneHolding env held) : s.calls.stackRoots env.stack = held := by
  have hframe : (s.calls.frame env.frame).handles = held := hs.holds
  rw [CallStacks.stackRoots, hs.alone, List.flatMap_cons, List.flatMap_nil, List.append_nil, hframe]

theorem of_same (hs : s.AloneHolding env held) (hledger : s'.ledger = s.ledger)
    (hcalls : s'.calls = s.calls) : s'.AloneHolding env held where
  known := hledger ▸ hs.known
  active := (congrArg (fun calls => (calls.frame env.frame).state) hcalls).trans hs.active
  alone := (congrArg (fun calls => (calls.stack env.stack).frames) hcalls).trans hs.alone
  holds := (congrArg (fun calls => (calls.frame env.frame).handles) hcalls).trans hs.holds

/-- The frame is edited. -/
theorem of_change (hs : s.AloneHolding env held) {edit : Frame → Frame}
    (hledger : s'.ledger = s.ledger) (hcalls : s'.calls = s.calls.change env.frame edit)
    (hedit : (edit (s.machine.frame env)).state = (s.machine.frame env).state) :
    s'.AloneHolding env (edit (s.machine.frame env)).handles := by
  have hlt : env.frame < s.calls.frames.size := CallStacks.lt_size_of_active hs.active
  have hframe : s'.machine.frame env = edit (s.machine.frame env) := by
    show s'.calls.frame env.frame = edit (s.calls.frame env.frame)
    rw [hcalls, CallStacks.frame_change hlt, if_pos rfl]
  refine ⟨hledger ▸ hs.known, ?_, ?_, ?_⟩
  · rw [hframe, hedit, hs.active]
  · rw [hcalls, CallStacks.stack_change]
    exact hs.alone
  · rw [hframe]

theorem unnoticed (hs : s.AloneHolding env held) (hun : s.Unnoticed env s') :
    s'.AloneHolding env held where
  known := hun.known hs.known
  active := (congrArg Frame.state (hun.frame env hs.known rfl)).trans hs.active
  alone := (congrArg Stack.frames hun.stack).trans hs.alone
  holds := (congrArg Frame.handles (hun.frame env hs.known rfl)).trans hs.holds

end AloneHolding

variable [Allocator A]

/-- A call is pending until something is done on its stack. -/
theorem mem_calls_after {call : Env × Env} (hcall : call ∈ s.ledger.calls)
    (hoff : action.stack s.calls ≠ call.2.stack) : call ∈ (s.after t action).ledger.calls := by
  have hrecord : (s.after t action).ledger = s.ledger.record action (s.reply t action) := rfl
  rw [hrecord]
  cases action with
  | endCall caller callee outcome =>
    refine (List.mem_erase_of_ne ?_).2 hcall
    rintro rfl
    exact hoff rfl
  | abandonCall callee =>
    refine List.mem_filter.2 ⟨hcall, decide_eq_true ?_⟩
    rintro rfl
    exact hoff rfl
  | beginCall caller name args =>
    cases s.reply t (.beginCall caller name args) with
    | error fault => exact hcall
    | ok callee => exact List.mem_cons_of_mem _ hcall
  | beginRun name args => cases s.reply t (.beginRun name args) <;> exact hcall
  | _ => exact hcall

/-- A run goes on until something is done on its stack. -/
theorem mem_runs_after (hbegun : env ∈ s.ledger.runs) (hoff : action.stack s.calls ≠ env.stack) :
    env ∈ (s.after t action).ledger.runs := by
  have hrecord : (s.after t action).ledger = s.ledger.record action (s.reply t action) := rfl
  rw [hrecord]
  have herase : ∀ {entry : Env}, entry.stack ≠ env.stack → env ∈ s.ledger.runs.erase entry := by
    intro entry hne
    refine (List.mem_erase_of_ne ?_).2 hbegun
    rintro rfl
    exact hne rfl
  cases action with
  | endRun entry outcome => exact herase hoff
  | abandonRun entry => exact herase hoff
  | beginCall caller name args => cases s.reply t (.beginCall caller name args) <;> exact hbegun
  | beginRun name args =>
    cases s.reply t (.beginRun name args) with
    | error fault => exact hbegun
    | ok entry => exact List.mem_append_left _ hbegun
  | _ => exact hbegun

variable [LawfulCollector A]

namespace WellFormed

/-- Orderly actions within the rules keep a session well formed. -/
theorem after (hs : s.WellFormed width) (hpermits : s.ledger.permits action)
    (horderly : action.orderly = true) : (s.after t action).WellFormed width where
  toSteady := hs.toSteady.after hpermits horderly
  apart := (hs.heapStep hs.apart hpermits horderly).apart hs.tallies.toEnvsAgree hs.apart
  spanned := by
    rw [(hs.arena hpermits horderly).2, Heap.width_after]
    exact hs.spanned

/-- Orderly work on another stack goes unnoticed. -/
theorem unnoticed (hs : s.WellFormed width) (hpermits : s.ledger.permits action)
    (horderly : action.orderly = true) (hoff : action.stack s.calls ≠ env.stack) :
    s.Unnoticed env (s.after t action) := by
  have hheapStep := hs.heapStep (t := t) hs.apart hpermits horderly
  obtain ⟨gain, htables⟩ := hheapStep.tablesStep
  exact
    { known := (grows_after hpermits).envs.subset
      pending := fun call hcall hk => mem_calls_after hcall (hk ▸ hoff)
      frame := fun e he hk => htables.frame e he (hk ▸ hoff.symm)
      stack := htables.stack _ hoff.symm
      reach := fun h => hheapStep.reaches_iff hs.tallies.toEnvsAgree hoff.symm
      words := hheapStep.words _ hoff.symm }

end WellFormed

theorem OrderlyOver.wellFormed {allocator : A} {config : MachineConfig}
    (hs : s.OrderlyOver allocator config width) : s.WellFormed width := by
  obtain @⟨start, past, hnew, hran, horderly⟩ := hs
  induction hran with
  | opening =>
    obtain ⟨hbuild, -⟩ := id hnew
    have hwidth : start.heap.width = width := by
      rw [(ready_of_build hbuild).2]
      rfl
    exact ⟨Steady.opening hnew, (OrderlyOver.opening hnew).apart, hwidth⟩
  | move _ t action permitted ih =>
    have hpast := ih fun move hmove => horderly move (List.mem_cons_of_mem _ hmove)
    exact hpast.after permitted (horderly _ List.mem_cons_self)

end Session

/-! ### What a program ensures -/

/-- What a frame may know: what lasts while nothing happens that it notices. -/
structure Knowledge (A : Type) (env : Env) where
  Holds : Session A → Prop
  lasts : ∀ {s s' : Session A}, s.Unnoticed env s' → Holds s → Holds s'

namespace Knowledge

variable {env : Env}

/-- Something known of some value. -/
def any {γ : Type} (P : γ → Knowledge A env) : Knowledge A env :=
  ⟨fun s => ∃ c, (P c).Holds s, fun hun ⟨c, h⟩ => ⟨c, (P c).lasts hun h⟩⟩

/-- Something known of the session, and something that is so anyway. -/
def given (fact : Prop) (P : Knowledge A env) : Knowledge A env :=
  ⟨fun s => fact ∧ P.Holds s, fun hun h => ⟨h.1, P.lasts hun h.2⟩⟩

end Knowledge

/-- What code is run in: its thread, its frame, what is sure of every session that it comes upon,
and the ways in which it may stop early. -/
structure CodeContext (A : Type) where
  thread : Thread
  env : Env
  Sure : Session A → Prop
  Stops : Interrupt → Prop

namespace CodeContext

variable [Allocator A] {b : CodeContext A} {s s' : Session A}

/-- Whether a program, with others at work between its steps, takes only proper steps that leave
sure what was, and comes to a result of which something is true. -/
def Ensures (b : CodeContext A) (Q : α → Session A → Prop) : Program α → Session A → Prop
  | .done a, s => ∀ s', b.Sure s' → s.Unnoticed b.env s' → Q a s'
  | .act action next, s => ∀ s', b.Sure s' → s.Unnoticed b.env s' →
    s'.Proper b.env action ∧ b.Sure (s'.after b.thread action) ∧
      b.Ensures Q (next (s'.reply b.thread action)) (s'.after b.thread action)

/-- Whether what is known of the result of code is so, or the code stopped early as it may. -/
def Ending (b : CodeContext A) (Q : α → Knowledge A b.env) : Except Interrupt α → Session A → Prop
  | .ok a, s => (Q a).Holds s
  | .error interrupt, _ => b.Stops interrupt

/-- Whether code that starts with something known takes only proper steps, and ends with something
known of its result, unless it stops early as it may. -/
def Keeps (b : CodeContext A) (P : Knowledge A b.env) (code : Code α) (Q : α → Knowledge A b.env) :
    Prop :=
  ∀ s, b.Sure s → P.Holds s → b.Ensures (b.Ending Q) code.ended s

section Ensures

variable {Q : α → Session A → Prop} {R : β → Session A → Prop}

theorem Ensures.unnoticed {p : Program α} (h : b.Ensures Q p s) (hs : s.Unnoticed b.env s') :
    b.Ensures Q p s' := by
  cases p with
  | done a => exact fun s'' hsure hs' => h s'' hsure (hs.trans hs')
  | act action next => exact fun s'' hsure hs' => h s'' hsure (hs.trans hs')

theorem Ensures.imp {Q' : α → Session A → Prop} {p : Program α} (h : b.Ensures Q p s)
    (himp : ∀ a s, Q a s → Q' a s) : b.Ensures Q' p s := by
  induction p generalizing s with
  | done a => exact fun s' hsure hs => himp a s' (h s' hsure hs)
  | act action next ih =>
    intro s' hsure hs
    obtain ⟨hproper, hafter, hnext⟩ := h s' hsure hs
    exact ⟨hproper, hafter, ih _ hnext⟩

theorem Ensures.andThen {p : Program α} {f : α → Program β} (hsure : b.Sure s) (h : b.Ensures Q p s)
    (hf : ∀ a s, b.Sure s → Q a s → b.Ensures R (f a) s) : b.Ensures R (p.andThen f) s := by
  induction p generalizing s with
  | done a => exact hf a s hsure (h s hsure .refl)
  | act action next ih =>
    intro s' hsure' hs'
    obtain ⟨hproper, hafter, hnext⟩ := h s' hsure' hs'
    exact ⟨hproper, hafter, ih _ hafter hnext⟩

/-- A program that is alone comes to a result of which what is asked is true. -/
theorem Ensures.play {p : Program α} (hsure : b.Sure s) (h : b.Ensures Q p s) :
    b.Sure (s.play b.thread p).2 ∧ Q (s.play b.thread p).1 (s.play b.thread p).2 := by
  induction p generalizing s with
  | done a => exact ⟨hsure, h s hsure .refl⟩
  | act action next ih =>
    obtain ⟨-, hafter, hnext⟩ := h s hsure .refl
    exact ih _ hafter hnext

end Ensures

/-! ### One rule for each way to put code together -/

namespace Keeps

variable {P : Knowledge A b.env} {Q : α → Knowledge A b.env} {R : β → Knowledge A b.env}
  {code : Code α}

theorem pure {a : α} (h : ∀ s, b.Sure s → P.Holds s → (Q a).Holds s) :
    b.Keeps P (pure a) Q :=
  fun s hsure hP _ _ hs => (Q a).lasts hs (h s hsure hP)

theorem throw {interrupt : Interrupt} (h : ∀ s, b.Sure s → P.Holds s → b.Stops interrupt) :
    b.Keeps P (throw interrupt : Code α) Q :=
  fun s hsure hP _ _ _ => h s hsure hP

theorem bind {f : α → Code β} (h : b.Keeps P code Q) (hf : ∀ a, b.Keeps (Q a) (f a) R) :
    b.Keeps P (code >>= f) R := by
  intro s hsure hP
  rw [Code.ended_bind]
  refine (h s hsure hP).andThen hsure fun result s' hsure' hresult => ?_
  cases result with
  | ok a => exact hf a s' hsure' hresult
  | error interrupt => exact fun _ _ _ => hresult

theorem of_imp {P' : Knowledge A b.env} (h : b.Keeps P' code Q)
    (himp : ∀ s, P.Holds s → P'.Holds s) : b.Keeps P code Q :=
  fun s hsure hP => h s hsure (himp s hP)

theorem any {γ : Type} {P : γ → Knowledge A b.env} (h : ∀ c, b.Keeps (P c) code Q) :
    b.Keeps (.any P) code Q :=
  fun s hsure ⟨c, hP⟩ => h c s hsure hP

theorem given {fact : Prop} (h : fact → b.Keeps P code Q) : b.Keeps (.given fact P) code Q :=
  fun s hsure ⟨hfact, hP⟩ => h hfact s hsure hP

/-- What follows from what is known may be relied on. -/
theorem of_known (fact : Prop) (hfact : ∀ s, P.Holds s → fact) (h : fact → b.Keeps P code Q) :
    b.Keeps P code Q :=
  fun s hsure hP => h (hfact s hP) s hsure hP

theorem ask {action : Action} {Q : action.Reply → Knowledge A b.env}
    (hproper : ∀ s, b.Sure s → P.Holds s → s.Proper b.env action)
    (hkept : ∀ s, b.Sure s → P.Holds s → b.Sure (s.after b.thread action))
    (hreply : ∀ s, b.Sure s → P.Holds s →
      (Q (s.reply b.thread action)).Holds (s.after b.thread action)) :
    b.Keeps P (Code.ask action) Q := by
  intro s _ hP s' hsure' hs'
  have hP' := P.lasts hs' hP
  refine ⟨hproper s' hsure' hP', hkept s' hsure' hP', fun _ _ hs'' => ?_⟩
  exact (Q _).lasts hs'' (hreply s' hsure' hP')

end Keeps

/-- Code that is alone and does not stop early comes to a result of which what is asked is known. -/
theorem Keeps.plays {P : Knowledge A b.env} {Q : α → Knowledge A b.env} {code : Code α}
    (h : b.Keeps P code Q) (hnever : ∀ interrupt, ¬ b.Stops interrupt) (hsure : b.Sure s)
    (hP : P.Holds s) :
    ∃ a s', s.play b.thread code.ended = (.ok a, s') ∧ b.Sure s' ∧ (Q a).Holds s' := by
  obtain ⟨hsure', hresult⟩ := (h s hsure hP).play hsure
  rcases hplayed : s.play b.thread code.ended with ⟨interrupt | a, s'⟩
  · rw [hplayed] at hresult
    exact absurd hresult (hnever interrupt)
  · rw [hplayed] at hsure' hresult
    exact ⟨a, s', rfl, hsure', hresult⟩

/-- What is known once an action was answered, if code stops at a fault. -/
def answered (b : CodeContext A) (Q : α → Knowledge A b.env) : Answer α → Knowledge A b.env
  | .ok a => Q a
  | .error fault => ⟨fun _ => b.Stops (.fault fault), fun _ h => h⟩

theorem Keeps.orStop {Q : α → Knowledge A b.env} (answer : Answer α) :
    b.Keeps (b.answered Q answer) (Code.orStop answer) Q := by
  cases answer with
  | ok a => exact .pure fun _ _ h => h
  | error fault => exact .throw fun _ _ h => h

/-- One operation that is granted, and leaves sure what was. -/
theorem Keeps.granted {P : Knowledge A b.env} {Q : α → Knowledge A b.env} (action : Action)
    (f : action.Reply → Answer α)
    (hproper : ∀ s, b.Sure s → P.Holds s → s.Proper b.env action)
    (hreply : ∀ s, b.Sure s → P.Holds s → b.Sure (s.after b.thread action) ∧
      ∃ a, f (s.reply b.thread action) = .ok a ∧ (Q a).Holds (s.after b.thread action)) :
    b.Keeps P (Code.ask action >>= fun reply => Code.orStop (f reply)) Q := by
  refine .bind (.ask (Q := fun reply => b.answered Q (f reply)) hproper
    (fun s hs hP => (hreply s hs hP).1) fun s hs hP => ?_) fun reply => .orStop (f reply)
  obtain ⟨-, a, hanswer, hafter⟩ := hreply s hs hP
  rw [hanswer]
  exact hafter

/-- What is known once it is settled how code ended. -/
def settled (b : CodeContext A) (Q : α → Knowledge A b.env) : Except Interrupt α → Knowledge A b.env
  | .ok a => Q a
  | .error interrupt => ⟨fun _ => b.Stops interrupt, fun _ h => h⟩

theorem Keeps.attempt {P : Knowledge A b.env} {Q : α → Knowledge A b.env} {code : Code α}
    (h : b.Keeps P code Q) : b.Keeps P (Code.attempt code) (b.settled Q) := by
  intro s hsure hP
  rw [Code.ended_attempt]
  refine (h s hsure hP).andThen hsure fun result s' _ hresult s'' _ hs => ?_
  cases result with
  | ok a => exact (Q a).lasts hs hresult
  | error interrupt => exact hresult

/-- A call, where code does not stop early. -/
theorem Keeps.call {P : Knowledge A b.env} {Q : Env → Knowledge A b.env}
    {R : Env → Word → Knowledge A b.env} {R' : Word → Knowledge A b.env} {caller : Env}
    {method : Method} {args : List Word} (hnever : ∀ interrupt, ¬ b.Stops interrupt)
    (hbegin : b.Keeps P (Code.ask (.beginCall caller method.name args)) (b.answered Q))
    (hbody : ∀ callee, b.Keeps (Q callee) (method.body callee args) (R callee))
    (hend : ∀ callee word, b.Keeps (R callee word)
      (Code.ask (.endCall caller callee (.ok word))) (b.answered R')) :
    b.Keeps P (Code.call caller method args) R' := by
  refine .bind hbegin fun answer => .bind (.orStop answer) fun callee =>
    .bind (hbody callee).attempt ?_
  rintro (interrupt | word)
  · exact fun _ _ hstops => absurd hstops (hnever interrupt)
  · exact .bind (hend callee word) fun answer => .orStop answer

end CodeContext

end RootedHeap
