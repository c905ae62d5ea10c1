import RootedHeap.Proofs.Nesting

/-!
How deep calls go. `Session.Descent` follows a stack from the beginning of its run for as long as
nothing on it ends: calls go deeper and deeper, from any frame on the stack and by any thread, while
all sorts of things happen elsewhere. If each invocation asks for a further call before it ends,
then the stack is full when the first one ends, whichever it is, and not before; the call that no
longer fits is refused and pushes nothing. `Session.Dives` says that a program is of this kind, and
`Descent.reaches` that such a program gets to the bottom.
-/

namespace RootedHeap.Session

variable {A : Type} {s : Session A} {k : StackRef} {caller : Env} {args : List Word}
  {capacity calls : Nat}

/-- Whether a call on a stack would come from an environment there that holds all objects to be
given. -/
structure Asks (s : Session A) (k : StackRef) (caller : Env) (args : List Word) : Prop where
  known : caller ∈ s.ledger.envs
  stack : caller.stack = k
  held : ∀ h ∈ args.filterMap Word.target?, h ∈ (s.machine.frame caller).handles

instance (s : Session A) (k : StackRef) (caller : Env) (args : List Word) :
    Decidable (s.Asks k caller args) :=
  decidable_of_iff (caller ∈ s.ledger.envs ∧ caller.stack = k ∧
      ∀ h ∈ args.filterMap Word.target?, h ∈ (s.machine.frame caller).handles)
    ⟨fun ⟨known, stack, held⟩ => ⟨known, stack, held⟩,
      fun ⟨known, stack, held⟩ => ⟨known, stack, held⟩⟩

/-- What is known of a stack on the way down. -/
structure Descending (s : Session A) (k : StackRef) (capacity calls : Nat) : Prop where
  tallies : s.ledger.Tallies s.calls
  capacity : s.machine.config.capacity = capacity
  known : k < s.calls.known.size
  on : ∀ env ∈ s.ledger.envs, env.stack = k → env.frame ∈ (s.calls.stack k).frames
  length : (s.calls.stack k).frames.length = calls + 1

/-- What becomes of a further call. -/
theorem Descending.callFault? (h : s.Descending k capacity calls) (hasks : s.Asks k caller args) :
    s.machine.callFault? caller args =
      if calls < capacity - 1 then none else some .callStackOverflow := by
  have hactive : (s.machine.frame caller).state = .active :=
    (h.tallies.listed k _ (h.on caller hasks.known hasks.stack)).2
  have hdepth : s.machine.calls.depth caller.stack = calls + 1 := hasks.stack ▸ h.length
  have hcapacity : capacity = max 1 s.machine.config.maxCallDepth := h.capacity.symm
  split
  · rename_i hroom
    exact Machine.callFault?_eq_none.2 ⟨hactive, by omega, hasks.held⟩
  · rename_i hfull
    rw [Machine.callFault?, if_neg (not_not.2 hactive), if_pos (by omega)]

variable [Allocator A] {α : Type} {start : Machine A} {past : List Move} {s' : Session A}
  {t : Thread} {action : Action} {asked : Bool} {entry : Env}

/-- A step that ends nothing on the stack pushes a frame on it or leaves it alone. -/
theorem Descending.after (h : s.Descending k capacity calls) (t : Thread) (action : Action)
    (hpermits : s.ledger.permits action) (hends : action.ends ≠ some k) :
    (s.ledger.Pushed (s.after t action).ledger s.calls (s.after t action).calls k ∧
      (s.after t action).Descending k capacity (calls + 1)) ∨
    (((s.after t action).calls.stack k).frames = (s.calls.stack k).frames ∧
      (s.after t action).Descending k capacity calls) := by
  have hstep := ledger_step (t := t) hpermits
  have htallies := h.tallies.step hstep
  have hcapacity : (s.after t action).machine.config.capacity = capacity := by
    rw [config_after, h.capacity]
  have hknown := Nat.lt_of_lt_of_le h.known (grows_after (t := t) hpermits).known
  have hon : (s.calls.stack k).frames ⊆ ((s.after t action).calls.stack k).frames →
      ∀ env ∈ (s.after t action).ledger.envs, env.stack = k →
        env.frame ∈ ((s.after t action).calls.stack k).frames := by
    intro hsub env henv hk
    rcases Ledger.Tallies.known_or_begun hstep henv with hold | hactive
    · exact hsub (h.on env hold hk)
    · exact hk ▸ htallies.onStack env henv hactive
  rcases pushed_or_same_after (t := t) h.tallies hpermits hends with hpushed | hsame
  · refine .inl ⟨hpushed, htallies, hcapacity, hknown, hon ?_, ?_⟩
    · rw [hpushed.frames]
      exact List.subset_append_left _ _
    · rw [hpushed.frames, List.length_append, h.length]
      rfl
  · exact .inr ⟨hsame, htallies, hcapacity, hknown, hon (hsame ▸ fun _ => id), hsame ▸ h.length⟩

/-- What a further call answers. -/
theorem Descending.reply_beginCall (h : s.Descending k capacity calls)
    (hasks : s.Asks k caller args) (t : Thread) (name : String) :
    s.reply t (.beginCall caller name args) =
      if calls < capacity - 1 then .ok ⟨k, s.calls.frames.size⟩
      else .error .callStackOverflow := by
  rw [Session.reply_beginCall, h.callFault? hasks, ← hasks.stack]
  by_cases hroom : calls < capacity - 1 <;> simp only [hroom, ↓reduceIte]

/-- A further call that is let in goes one deeper. -/
theorem Descending.deeper (h : s.Descending k capacity calls) (hasks : s.Asks k caller args)
    {name : String} {callee : Env} (hbegun : s.reply t (.beginCall caller name args) = .ok callee) :
    calls < capacity - 1 ∧
      (s.after t (.beginCall caller name args)).Descending k capacity (calls + 1) := by
  have hreply := h.reply_beginCall hasks t name
  rw [hbegun] at hreply
  split at hreply
  · rename_i hroom
    refine ⟨hroom, ?_⟩
    rcases h.after t (.beginCall caller name args) hasks.known (nomatch ·) with
      ⟨-, hdeeper⟩ | ⟨hsame, hstays⟩
    · exact hdeeper
    · -- the callee's frame is on the stack, and is new
      obtain rfl := Except.ok.inj hreply
      have hmem : (⟨k, s.calls.frames.size⟩ : Env) ∈
          (s.after t (.beginCall caller name args)).ledger.envs := by
        rw [Session.after, hbegun]
        exact List.mem_append_right _ (List.mem_singleton.2 rfl)
      have hon := hsame ▸ hstays.on _ hmem rfl
      exact absurd (h.tallies.lt_size (h.tallies.listed k _ hon).1) (Nat.lt_irrefl _)
  · cases hreply

/-- Where no call is asked for and nothing ends, a stack stays as it is. -/
theorem Descending.aside (h : s.Descending k capacity calls) (hpermits : s.ledger.permits action)
    (hends : action.ends ≠ some k)
    (hasks : ∀ caller name args, action = .beginCall caller name args → ¬ s.Asks k caller args) :
    (s.after t action).Descending k capacity calls := by
  rcases h.after t action hpermits hends with ⟨hpushed, -⟩ | ⟨-, hstays⟩
  · rcases of_pushed hpushed with ⟨caller, name, args, rfl, hstack, hfault⟩ | ⟨name, args, -, hnew⟩
    · exact absurd ⟨hpermits, hstack, (Machine.callFault?_eq_none.1 hfault).2.2⟩
        (hasks caller name args rfl)
    · exact absurd h.known (Nat.not_lt.2 (Nat.le_of_eq hnew.symm))
  · exact hstays

/-- A run that has just begun is at the top of its way down. -/
theorem descending_of_beginRun (h : s.ledger.Tallies s.calls) {name : String}
    (hbegun : s.reply t (.beginRun name args) = .ok entry) :
    (s.after t (.beginRun name args)).Descending entry.stack s.machine.config.capacity 0 := by
  have hpermits : s.ledger.permits (.beginRun name args) := trivial
  have hstep := ledger_step (t := t) hpermits
  have htallies := h.step hstep
  have hentry := entry_of_begun hbegun
  have hledger : (s.after t (.beginRun name args)).ledger =
      { s.ledger with envs := s.ledger.envs ++ [entry], runs := s.ledger.runs ++ [entry] } := by
    rw [Session.after, hbegun]
    rfl
  have hrun : entry ∈ (s.after t (.beginRun name args)).ledger.entries := by
    rw [hledger]
    exact List.mem_append_left _ (List.mem_append_right _ (List.mem_singleton.2 rfl))
  have hbottom := htallies.entry_mem hrun
  have hempty : (s.calls.stack entry.stack).frames = [] := by
    rw [hentry, CallStacks.stack, Array.getElem?_eq_none (Nat.le_refl _)]
    rfl
  refine ⟨htallies, by rw [config_after], htallies.known _ (htallies.entered _ hrun).1, ?_, ?_⟩
  · intro env henv hstack
    rw [hledger] at henv
    rcases List.mem_append.1 henv with hold | hnew
    · have hlt := h.known env hold
      rw [hstack, hentry] at hlt
      exact absurd hlt (Nat.lt_irrefl _)
    · rwa [List.mem_singleton.1 hnew]
  · rcases h.pushed_or_cut hstep entry.stack with hpushed | hcut
    · rw [hpushed.frames, hempty]
      rfl
    · rw [hempty] at hcut
      rw [List.prefix_nil.1 hcut] at hbottom
      cases hbottom

/-- A way down a stack: how many calls have begun on it while nothing on it ended, and whether the
last of them, or the run if there is none, has asked for a further call. -/
inductive Descent (k : StackRef) (s : Session A) : Nat → Bool → Session A → Prop
  | entered : Descent k s 0 false s
  | deeper {calls : Nat} {asked : Bool} {s' : Session A} (descent : Descent k s calls asked s')
      (t : Thread) (caller : Env) (name : String) (args : List Word) (asks : s'.Asks k caller args)
      {callee : Env} (begun : s'.reply t (.beginCall caller name args) = .ok callee) :
    Descent k s (calls + 1) false (s'.after t (.beginCall caller name args))
  | refused {calls : Nat} {asked : Bool} {s' : Session A} (descent : Descent k s calls asked s')
      (t : Thread) (caller : Env) (name : String) (args : List Word) (asks : s'.Asks k caller args)
      {fault : Fault} (refused : s'.reply t (.beginCall caller name args) = .error fault) :
    Descent k s calls true (s'.after t (.beginCall caller name args))
  | aside {calls : Nat} {asked : Bool} {s' : Session A} (descent : Descent k s calls asked s')
      (t : Thread) (action : Action) (permitted : s'.ledger.permits action)
      (ends : action.ends ≠ some k)
      (asks : ∀ caller name args, action = .beginCall caller name args → ¬ s'.Asks k caller args) :
    Descent k s calls asked (s'.after t action)

/-- The state of a stack on the way down, and what becomes of the next call. -/
structure Descended (s : Session A) (k : StackRef) (capacity calls : Nat) (asked : Bool) :
    Prop where
  length : (s.calls.stack k).frames.length = calls + 1
  le : calls ≤ capacity - 1
  full : asked = true → calls = capacity - 1
  /-- As long as there is room, the next call is let in. -/
  room : ∀ t caller name args, s.Asks k caller args → calls < capacity - 1 →
    s.reply t (.beginCall caller name args) = .ok ⟨k, s.calls.frames.size⟩
  /-- On a full stack it is refused, and nothing is pushed. -/
  overflow : ∀ t caller name args, s.Asks k caller args → calls = capacity - 1 →
    s.reply t (.beginCall caller name args) = .error .callStackOverflow ∧
      s.after t (.beginCall caller name args) = s

/-- On the way down a stack holds one frame more than there are calls, and is full once the last
invocation has asked for a call that did not fit. -/
theorem Descent.descending (hdescent : Descent k s calls asked s')
    (h : s.Descending k capacity 0) :
    s'.Descending k capacity calls ∧ calls ≤ capacity - 1 ∧
      (asked = true → calls = capacity - 1) := by
  induction hdescent with
  | entered => exact ⟨h, Nat.zero_le _, (nomatch ·)⟩
  | deeper descent t caller name args asks begun ih =>
    obtain ⟨hroom, hdeeper⟩ := ih.1.deeper asks begun
    exact ⟨hdeeper, hroom, (nomatch ·)⟩
  | @refused calls asked s' descent t caller name args asks fault refused ih =>
    obtain ⟨hstays, hle, -⟩ := ih
    have hsame : s'.after t (.beginCall caller name args) = s' :=
      after_refused (Answer.fault?_eq_some.2 refused)
    rw [hsame]
    refine ⟨hstays, hle, fun _ => Nat.le_antisymm hle (Nat.le_of_not_lt fun hroom => ?_)⟩
    rw [hstays.reply_beginCall asks, if_pos hroom] at refused
    cases refused
  | aside descent t action permitted ends asks ih =>
    exact ⟨ih.1.aside permitted ends asks, ih.2⟩

theorem Descending.descended (h : s.Descending k capacity calls) (hle : calls ≤ capacity - 1)
    (hfull : asked = true → calls = capacity - 1) : s.Descended k capacity calls asked where
  length := h.length
  le := hle
  full := hfull
  room t caller name args hasks hroom := by rw [h.reply_beginCall hasks, if_pos hroom]
  overflow t caller name args hasks hfull := by
    have hrefused : s.reply t (.beginCall caller name args) = .error .callStackOverflow := by
      rw [h.reply_beginCall hasks, if_neg (Nat.not_lt.2 (Nat.le_of_eq hfull.symm))]
    exact ⟨hrefused, after_refused (Answer.fault?_eq_some.2 hrefused)⟩

/-! ### Programs that go down -/

/-- Whether the latest invocation on a stack has asked for a further call, after one more action. -/
def asking (s : Session A) (k : StackRef) (asked : Bool) (t : Thread) : Action → Bool
  | .beginCall caller name args =>
    if s.Asks k caller args then !(s.reply t (.beginCall caller name args)).isOk else asked
  | _ => asked

/-- Whether a program, for as long as nothing on a stack ends, keeps within the rules, and has asked
for a further call there in the latest invocation when the first thing ends. -/
def Dives (k : StackRef) (t : Thread) : Program α → Bool → Session A → Prop
  | .done _, asked, _ => asked = true
  | .act action next, asked, s => s.ledger.permits action ∧
    if action.ends = some k then asked = true
    else Dives k t (next (s.reply t action)) (s.asking k asked t action) (s.after t action)

/-- The sessions that a program goes through. -/
inductive Visits (t : Thread) : Program α → Session A → Session A → Prop
  | here {p : Program α} {s : Session A} : Visits t p s s
  | later {action : Action} {next : action.Reply → Program α} {s s' : Session A}
      (visits : Visits t (next (s.reply t action)) (s.after t action) s') :
    Visits t (.act action next) s s'

/-- One more action on the way down, as long as it ends nothing on the stack. -/
theorem Descent.act {s₀ : Session A} (hdescent : Descent k s₀ calls asked s) (t : Thread)
    (hpermits : s.ledger.permits action) (hends : action.ends ≠ some k) :
    ∃ calls', Descent k s₀ calls' (s.asking k asked t action) (s.after t action) := by
  by_cases hcall : ∃ caller name args, action = .beginCall caller name args ∧ s.Asks k caller args
  · obtain ⟨caller, name, args, rfl, hasks⟩ := hcall
    rw [asking, if_pos hasks]
    cases hreply : s.reply t (.beginCall caller name args) with
    | ok callee => exact ⟨_, hdescent.deeper t caller name args hasks hreply⟩
    | error fault => exact ⟨_, hdescent.refused t caller name args hasks hreply⟩
  · have hasking : s.asking k asked t action = asked := by
      cases action with
      | beginCall caller name args =>
        exact if_neg fun hasks => hcall ⟨caller, name, args, rfl, hasks⟩
      | _ => rfl
    rw [hasking]
    exact ⟨_, hdescent.aside t action hpermits hends fun caller name args heq hasks =>
      hcall ⟨caller, name, args, heq, hasks⟩⟩

/-- Who has asked for a further call and has none is at the bottom. -/
theorem Descent.bottom {s₀ : Session A} (hdescent : Descent k s₀ calls true s)
    (htop : s₀.Descending k capacity 0) : Descent k s₀ (capacity - 1) true s :=
  (hdescent.descending htop).2.2 rfl ▸ hdescent

/-- A program that goes down gets to a full stack before anything on it ends. -/
theorem Descent.reaches {s₀ : Session A} (htop : s₀.Descending k capacity 0)
    (hdescent : Descent k s₀ calls asked s) {p : Program α} (hdives : s.Dives k t p asked) :
    ∃ s', Visits t p s s' ∧ Descent k s₀ (capacity - 1) true s' := by
  induction p generalizing calls asked s with
  | done result =>
    obtain rfl : asked = true := hdives
    exact ⟨s, .here, hdescent.bottom htop⟩
  | act action next ih =>
    obtain ⟨hpermits, hdives⟩ := hdives
    by_cases hends : action.ends = some k
    · rw [if_pos hends] at hdives
      obtain rfl := hdives
      exact ⟨s, .here, hdescent.bottom htop⟩
    · rw [if_neg hends] at hdives
      obtain ⟨calls', hnext⟩ := hdescent.act t hpermits hends
      obtain ⟨s', hvisits, hreached⟩ := ih _ hnext hdives
      exact ⟨s', .later hvisits, hreached⟩

/-- In every session, whatever the allocator and the settings: as long as calls nest, stacks keep
their discipline; a run whose invocations each ask for a further call before they end goes down
exactly until its stack is full; and a program of such invocations gets there. -/
theorem Ran.disciplined_and_descends (first : Thread) (heap : Heap) (allocator : A)
    (config : MachineConfig) (hbuild : Machine.build first heap allocator config = .ok start)
    (hran : Ran start past s) :
    (nested past = true → s.Disciplined config.capacity) ∧
      ∀ t name args entry, s.reply t (.beginRun name args) = .ok entry →
        (∀ calls asked s', Descent entry.stack (s.after t (.beginRun name args)) calls asked s' →
          s'.Descended entry.stack config.capacity calls asked) ∧
        ∀ (α : Type) (p : Program α),
          (s.after t (.beginRun name args)).Dives entry.stack t p false →
            ∃ s', Visits t p (s.after t (.beginRun name args)) s' ∧ Descent entry.stack
              (s.after t (.beginRun name args)) (config.capacity - 1) true s' := by
  have hstart := calls_of_build hbuild
  have hconfig : s.machine.config = config := hran.config_eq.trans (config_of_build hbuild)
  constructor
  · intro hnested
    rw [← hconfig, hran.config_eq]
    exact hran.disciplined hstart hnested
  · intro t name args entry hbegun
    have htop := descending_of_beginRun (hran.tallies hstart) hbegun
    rw [hconfig] at htop
    constructor
    · intro calls asked s' hdescent
      obtain ⟨hdescending, hle, hfull⟩ := hdescent.descending htop
      exact hdescending.descended hle hfull
    · intro α p hdives
      exact Descent.entered.reaches htop hdives

instance decidableDives (k : StackRef) (t : Thread) :
    (p : Program α) → (asked : Bool) → (s : Session A) → Decidable (s.Dives k t p asked)
  | .done _, asked, _ => inferInstanceAs (Decidable (asked = true))
  | .act action next, asked, s =>
    haveI := decidableDives k t (next (s.reply t action)) (s.asking k asked t action)
      (s.after t action)
    inferInstanceAs (Decidable (s.ledger.permits action ∧
      if action.ends = some k then asked = true
      else Dives k t (next (s.reply t action)) (s.asking k asked t action) (s.after t action)))

/-- Calls that nest on one stack: one is made through an environment further out, and one is cut off
by a panic. -/
def nesting : List (Thread × Action) :=
  [(0, .beginRun "entry" []), (0, .beginCall ⟨0, 0⟩ "one" []), (0, .beginCall ⟨0, 0⟩ "two" []),
    (0, .endCall ⟨0, 0⟩ ⟨0, 2⟩ (.ok 0)), (0, .abandonCall ⟨0, 1⟩)]

/-- A method that makes an object and calls itself with it, so many times. -/
def recurse : Nat → Method
  | 0 => ⟨"recurse", fun _ _ => return 0⟩
  | n + 1 => ⟨"recurse", fun env _ => do
      Code.call env (recurse n) [Handle.toWord (← Code.newObject env)]⟩

/-- What is said of all sessions, said of one with room for three frames on a stack, and of a method
in it that would call itself five times. -/
theorem disciplined_and_descends_three :
    ∃ (start : Machine Bump) (past : List Move) (s s' : Session Bump),
      Machine.build Thread.first (.ofSize 6 1) Bump.fresh ⟨3, false⟩ = .ok start ∧
        Ran start past s ∧ s.Disciplined 3 ∧
        Visits 0 ((recurse 5).body ⟨1, 3⟩ []).ended (s.after 0 (.beginRun "recurse" [])) s' ∧
        Descent 1 (s.after 0 (.beginRun "recurse" [])) 2 true s' ∧ s'.Descended 1 3 2 true := by
  have hseen : watched ⟨3, false⟩ (.ofSize 6 1) Bump.fresh nesting []
      (fun (past, s) _ => (nested past, s.calls.known.size, s.calls.frames.size,
        decide ((s.after 0 (.beginRun "recurse" [])).Dives 1 0
          ((recurse 5).body ⟨1, 3⟩ []).ended false))) = some (true, 1, 3, true) := by
    decide +kernel
  obtain ⟨start, past, s, -, -, hbuild, hran, -, hsight⟩ := exists_course_of_watched hseen
  obtain ⟨hnested, hknown, hframes, hdives⟩ := by
    simpa only [Prod.mk.injEq, decide_eq_true_eq] using hsight
  have hbegun : s.reply 0 (.beginRun "recurse" []) = .ok ⟨1, 3⟩ := by
    rw [reply_beginRun, hknown, hframes]
    rfl
  obtain ⟨hdisciplined, hdescends⟩ := Ran.disciplined_and_descends Thread.first (.ofSize 6 1)
    Bump.fresh ⟨3, false⟩ hbuild hran
  obtain ⟨hdescended, hreaches⟩ := hdescends 0 "recurse" [] ⟨1, 3⟩ hbegun
  obtain ⟨s', hvisits, hdescent⟩ := hreaches _ _ hdives
  exact ⟨start, past, s, s', hbuild, hran, hdisciplined hnested, hvisits, hdescent,
    hdescended 2 true s' hdescent⟩

end RootedHeap.Session
