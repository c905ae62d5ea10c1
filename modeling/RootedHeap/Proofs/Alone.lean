import RootedHeap.Proofs.Schedules

/-!
A thread that nobody disturbs. While no other thread takes a step, has a scope open or holds a stop,
and the allocator is free, a thread goes through all stages of each of its actions. What it comes to
is what `World.perform` says of the action as one piece, so the stages cut the actions up and add
nothing to them.
-/

namespace RootedHeap

/-! ### Operations that do not look at the gate -/

namespace Machine

variable {A : Type} {α : Type} {m : Machine A} {t : Thread}

/-- An operation that answers the same behind any gate, and leaves the gate as it found it. -/
def Gateless (operation : Machine A → α × Machine A) (m : Machine A) : Prop :=
  ∀ gate, operation { m with gate } = ((operation m).1, { (operation m).2 with gate })

/-- An operation that is a check and an effect, neither of which looks at the gate. -/
theorem gateless_of_decided {γ : Type} {operation : Machine A → Answer α × Machine A}
    {check : Machine A → Answer γ} {answer : γ → α} {effect : Machine A → γ → Machine A}
    (heq : ∀ m, operation m = m.decided (check m) answer (effect m))
    (hcheck : ∀ gate, check { m with gate } = check m)
    (heffect : ∀ gate c, effect { m with gate } c = { effect m c with gate }) :
    Gateless operation m := by
  intro gate
  rw [heq, heq, hcheck]
  cases check m with
  | error fault => rfl
  | ok c => exact Prod.ext rfl (heffect gate c)

/-- A scope around an operation that does not look at the gate. -/
theorem Gateless.inScope {operation : Machine A → α × Machine A} (h : Gateless operation m) :
    Gateless (·.inScope t operation) m := by
  intro gate
  have hinside := h (m.gate.enter t)
  have hinside' := h (gate.enter t)
  simp only [Machine.inScope, hinside, hinside', leave_enter]

/-- A line in the log is none of the gate's business. -/
theorem traced_withGate {gate : Gate} {text : String} :
    { m with gate }.traced t text = { m.traced t text with gate } := by
  unfold traced
  cases m.config.trace <;> rfl

section Operations

variable {env : Env} {object : Handle} {slot : Nat}

theorem gateless_getReference : Gateless (getReference t env object slot) m := by
  refine gateless_of_decided (fun _ => getReference_eq) (fun _ => rfl) fun gate h => ?_
  split <;> rfl

theorem gateless_getData : Gateless (getData t env object slot) m :=
  gateless_of_decided (fun _ => getData_eq) (fun _ => rfl) fun _ _ => rfl

theorem gateless_setReference {target : Handle} :
    Gateless (setReference t env object slot target) m :=
  gateless_of_decided (fun _ => setReference_eq) (fun _ => rfl) fun _ _ => rfl

theorem gateless_setData {word : Word} : Gateless (setData t env object slot word) m :=
  gateless_of_decided (fun _ => setData_eq) (fun _ => rfl) fun _ _ => rfl

theorem gateless_release : Gateless (release t env object) m :=
  gateless_of_decided (fun _ => release_eq) (fun _ => rfl) fun _ _ => rfl

theorem gateless_beginCall {name : String} {args : List Word} :
    Gateless (beginCall t env name args) m := by
  intro gate
  have hcheck : callable { m with gate } env args = m.callable env args := rfl
  simp only [beginCall, act_openFrame, hcheck]
  cases m.callable env args with
  | error fault => rfl
  | ok objects =>
    simp only [decided_ok]
    rw [← traced_withGate]
    rfl

theorem gateless_endCall {callee : Env} {outcome : Answer Word} :
    Gateless (endCall t env callee outcome) m := by
  refine Gateless.inScope fun gate => ?_
  have hcheck : checkResult { m with gate } callee outcome = m.checkResult callee outcome := rfl
  simp only [hcheck]
  rw [← traced_withGate]
  cases m.checkResult callee outcome with
  | error fault => rfl
  | ok word => dsimp only; cases word.target? <;> rfl

/-- A run that is not refused opens its entry frame on a new stack. -/
theorem beginRun_plain {name : String} {args : List Word}
    (hplain : args.findSome? Word.target? = none) :
    m.beginRun t name args =
      let stack := m.calls.known.size
      let (entry, opened) := { m with calls := m.calls.register.2 }.openFrame stack []
      (.ok entry, opened.note t .debug
        s!"mutator stack {(opened.calls.stack stack).id}: enter {name}") := by
  unfold beginRun
  rw [hplain]
  dsimp only [Machine.inScope, openFrame_eq]
  rw [leave_enter]
  rfl

/-- A run ends as its frame leaves and its stack is forgotten. -/
theorem endRun_plain {outcome : Answer Word} :
    m.endRun t env outcome =
      let result := m.checkResult env outcome
      let popped := { m with calls := m.calls.pop env.stack env.frame }
      let line := s!"mutator stack {(m.calls.stack env.stack).id}: exit with "
        ++ Answer.layout result
      (result, (popped.note t .debug line).unregister env) := by
  unfold endRun
  dsimp only [Machine.inScope, note, Arena.note]
  rw [leave_enter]
  rfl

end Operations

end Machine

namespace Crew

variable {A : Type} [Allocator A]

section Staged

variable [Staged A] {c c' c'' : Crew A} {t : Thread} {rest : List Action}
  {stage : Stage (Staged.ControlPoint A)}

/-- What an action does inside a scope, and what it answers, is the same behind any gate. -/
theorem perform_withGate {action : Action} (hfits : action.operates = true) {gate : Gate} :
    (c.withGate gate).perform t action = (c.perform t action).withGate gate := by
  have hsame {α : Type} {operation : Machine A → α × Machine A}
      (hgateless : Machine.Gateless operation c.machine) :
      (c.withGate gate).world.onMachine operation =
        ((c.world.onMachine operation).1,
          { (c.world.onMachine operation).2 with
            machine := { (c.world.onMachine operation).2.machine with gate } }) := by
    unfold World.onMachine
    exact congrArg (fun p => (p.1, { c.world with machine := p.2 })) (hgateless gate)
  cases action with
  | getReference env object slot =>
    simp only [perform, World.perform, hsame Machine.gateless_getReference]
    rfl
  | getData env object slot =>
    simp only [perform, World.perform, hsame Machine.gateless_getData]
    rfl
  | setReference env object slot target =>
    simp only [perform, World.perform, hsame Machine.gateless_setReference]
    rfl
  | setData env object slot word =>
    simp only [perform, World.perform, hsame Machine.gateless_setData]
    rfl
  | release env object =>
    simp only [perform, World.perform, hsame Machine.gateless_release]
    rfl
  | beginCall caller name args =>
    simp only [perform, World.perform, hsame Machine.gateless_beginCall]
    rfl
  | endCall caller callee outcome =>
    simp only [perform, World.perform, hsame Machine.gateless_endCall]
    rfl
  | _ => cases hfits

@[simp] theorem put_put {old : Stage (Staged.ControlPoint A)} :
    (c.put t old).put t stage = c.put t stage := by
  simp only [put, Function.update_idem]

/-- A thread that comes back to its stage was never away from it. -/
theorem put_eq (hstage : c.stage t = stage) : c.put t stage = c := by
  rw [put, ← hstage, Function.update_eq_self]

def alone (t : Thread) : Crew A → Thread → Prop := fun _ u => u = t

theorem Ran.trans {rule : Crew A → Thread → Prop} (h : Ran rule c c') (h' : Ran rule c' c'') :
    Ran rule c c'' := by
  induction h' with
  | start => exact h
  | step _ hkept hstep ih => exact ih.step hkept hstep

/-- Thread `t` is awake and need not wait at the gate. -/
structure Undisturbed (c : Crew A) (t : Thread) : Prop where
  awake : c.asleep t = false
  lets : c.gate.lets t = true
  quiet : c.gate.quiet t = true

/-- Steps of thread `t` lead to a crew in which it is undisturbed, but for the sleepers that are
left and the book on who registered which stack. -/
def Leads (c : Crew A) (t : Thread) (c' : Crew A) : Prop :=
  ∃ asleep owner, { c' with asleep, owner }.Undisturbed t ∧
    Ran (alone t) c { c' with asleep, owner }

namespace Leads

theorem start (h : c.Undisturbed t) : c.Leads t c := ⟨c.asleep, c.owner, h, .start⟩

/-- Neither the sleepers nor the book on the stacks belong to what is led to. -/
theorem alike (h : c.Leads t c') (hstage : c''.stage = c'.stage) (hlock : c''.lock = c'.lock)
    (hrest : { c'' with
      stage := c'.stage, lock := c'.lock, asleep := c'.asleep, owner := c'.owner } = c') :
    c.Leads t c'' := by
  rw [← hstage, ← hlock] at hrest
  rw [← hrest] at h
  exact h

/-- From where steps lead, others lead on. -/
theorem trans (h : c.Leads t c')
    (h' : ∀ asleep owner, { c' with asleep, owner }.Undisturbed t →
      { c' with asleep, owner }.Leads t c'') : c.Leads t c'' := by
  obtain ⟨asleep, owner, hundisturbed, hran⟩ := h
  obtain ⟨asleep', owner', hundisturbed', hran'⟩ := h' asleep owner hundisturbed
  exact ⟨asleep', owner', hundisturbed', hran.trans hran'⟩

theorem step (hstep : c.Step t c') (h : c'.Leads t c'') : c.Leads t c'' := by
  obtain ⟨asleep, owner, hundisturbed, hran⟩ := h
  exact ⟨asleep, owner, hundisturbed, (Ran.start.step rfl hstep).trans hran⟩

end Leads

namespace Undisturbed

theorem of_gate (h : c.Undisturbed t) (hgate : c'.gate = c.gate)
    (hawake : c'.asleep t = false) : c'.Undisturbed t :=
  ⟨hawake, hgate ▸ h.lets, hgate ▸ h.quiet⟩

theorem awake_notifyAll (h : c.Undisturbed t) {reason : Bool} :
    (c.notifyAll reason).asleep t = false := by
  cases reason
  · exact h.awake
  · rfl

theorem close (h : c.Undisturbed t) : (c.withGate (c.gate.close t)).Undisturbed t where
  awake := h.awake
  lets := Gate.lets_iff.2 fun _ hholder =>
    (Option.some.inj ((Gate.holder_close h.lets).symm.trans hholder)).symm
  quiet := Gate.quiet_close.trans h.quiet

theorem resume (h : c.Undisturbed t) (hgate : c'.gate = c.gate.resume t)
    (hawake : c'.asleep t = false) : c'.Undisturbed t where
  awake := hawake
  lets := by
    rw [hgate, Gate.resume, Gate.resume?]
    split
    · refine Gate.lets_iff.2 fun u hholder => ?_
      rw [Option.getD_some, Gate.holder_reopen] at hholder
      split at hholder
      · cases hholder
      · exact Gate.lets_iff.1 h.lets u hholder
    · exact h.lets
  quiet := by
    rw [hgate, Gate.quiet, Gate.scopes_resume]
    exact h.quiet

/-! ### In a scope -/

/-- A thread that asks for a scope gets it, runs its work and leaves. -/
theorem pass (h : c.Undisturbed t) {scopedWork : ScopedWork} (following : AfterScope)
    (hentering : c.stage t = .entering scopedWork)
    (hrun : ((c.withGate (c.gate.enter t)).put t (.inside scopedWork)).run t scopedWork =
      (c'.withGate (c.gate.enter t)).put t (.leaving following))
    (hgate : c'.gate = c.gate) (hasleep : c'.asleep = c.asleep) :
    c.Leads t (c'.put t following.stage) := by
  have hleft : Ran (alone t) c ((((c'.withGate ((c.gate.enter t).leave t)).notifyAll
      c.gate.isClosed).put t (.leaving following)).put t following.stage) := by
    refine ((Ran.start.step rfl (.enter hentering h.awake h.lets)).step rfl
      (hrun ▸ step_run (Function.update_self ..))).step rfl (.leave (Function.update_self ..))
  rw [put_put, Machine.leave_enter, ← hgate] at hleft
  have hkept : c'.Undisturbed t := h.of_gate hgate (hasleep ▸ h.awake)
  exact ⟨_, _, hkept.of_gate rfl hkept.awake_notifyAll, hleft⟩

/-- An action that has all its effect in one scope. -/
theorem operate (h : c.Undisturbed t) {action : Action} {fits : action.operates = true}
    (hentering : c.stage t = .entering (.operate action fits)) :
    c.Leads t ((c.perform t action).put t .idle) := by
  refine h.pass .nothing hentering ?_ (gate_perform fits) rfl
  show (((c.withGate (c.gate.enter t)).perform t action).put t _).put t _ = _
  rw [put_put, perform_withGate fits]

theorem check_refused (h : c.Undisturbed t) {env : Env} {fault : Fault}
    (hentering : c.stage t = .entering (.check env))
    (hcheck : c.machine.checkActive env = .error fault) :
    c.Leads t ((c.answer t (.newObject env) (.error fault)).put t .idle) := by
  have hinside : ((c.withGate (c.gate.enter t)).put t (.inside (.check env))).machine.checkActive
      env = .error fault := hcheck
  refine h.pass .nothing hentering ?_ rfl rfl
  simp only [run, Crew.check, hinside]
  exact put_put (c := (c.answer t (.newObject env) (.error fault)).withGate (c.gate.enter t))

theorem check_passed (h : c.Undisturbed t) {env : Env} {u : Unit}
    (hentering : c.stage t = .entering (.check env))
    (hcheck : c.machine.checkActive env = .ok u) :
    c.Leads t (c.put t (.locking (.object env))) := by
  have hinside : ((c.withGate (c.gate.enter t)).put t (.inside (.check env))).machine.checkActive
      env = .ok u := hcheck
  refine h.pass (.allocate env) hentering ?_ rfl rfl
  simp only [run, Crew.check, hinside]
  exact put_put

theorem enterRun (h : c.Undisturbed t) {stack : StackRef} {name : String} {args : List Word}
    (hentering : c.stage t = .entering (.enterRun stack name args)) :
    c.Leads t ((c.enterRun t stack name args).put t .idle) :=
  h.pass .nothing hentering
    (put_put (c := (c.enterRun t stack name args).withGate (c.gate.enter t))) rfl rfl

theorem leaveRun (h : c.Undisturbed t) {entry : Env} {outcome : Answer Word}
    (hentering : c.stage t = .entering (.leaveRun entry outcome)) :
    c.Leads t ((c.leaveRun t entry outcome).put t (.unregistering entry)) :=
  h.pass (.unregister entry) hentering
    (put_put (c := (c.leaveRun t entry outcome).withGate (c.gate.enter t))) rfl rfl

/-! ### With the allocator -/

/-- A thread that has the allocator, and nobody to wait for, goes on with it until it answers. -/
theorem work {task : AllocatorTask} {calls : CallStacks} {point : Staged.ControlPoint A}
    {a : Arena A}
    {result : Answer Nat × Arena A} (hruns : Staged.Runs t task.request calls point a result) :
    ∀ {c : Crew A}, c.Undisturbed t → c.stage t = .working task point → c.calls = calls →
      c.machine.toArena = a → ∃ last,
        Staged.nextStep t task.request last result.2 = .done result.1 ∧
        c.Leads t ((c.withMachine { c.machine with toArena := result.2 }).put t
          (.working task last)) := by
  -- the crew changes with each step, so it is not fixed before the induction
  induction hruns with
  | @work point next a allocator heap log result hnextStep rest ih =>
    rintro c h hworking rfl rfl
    obtain ⟨last, hlast, hleads⟩ := ih
      (c := (c.withMachine { c.machine with allocator, heap, log }).put t (.working task next))
      ⟨h.awake, h.lets, h.quiet⟩ (Function.update_self ..) rfl rfl
    exact ⟨last, hlast, .step (.work hworking hnextStep)
      (hleads.alike (Function.update_idem ..).symm rfl rfl)⟩
  | @stop point next a result hnextStep rest ih =>
    rintro c h hworking rfl rfl
    have hclosed := Step.close (c := c.put t (.stopping (.allocator task next)))
      (Function.update_self ..) h.awake h.lets (.inr h.quiet)
    have hhalted : ((c.put t (.stopping (.allocator task next))).withGate (c.gate.close t)).halted t
        (.allocator task next) = (c.withGate (c.gate.close t)).put t (.working task next) :=
      put_put (c := c.withGate (c.gate.close t))
    obtain ⟨last, hlast, hleads⟩ := ih
      (c := (c.withGate (c.gate.close t)).put t (.working task next))
      (h.close.of_gate rfl h.awake) (Function.update_self ..) rfl rfl
    refine ⟨last, hlast, .step (.callStop hworking hnextStep) (.step (hhalted ▸ hclosed) ?_)⟩
    exact hleads.alike (Function.update_idem ..).symm rfl rfl
  | @scan point next a result hnextStep rest ih =>
    rintro c h hworking rfl rfl
    obtain ⟨last, hlast, hleads⟩ := ih (c := c.put t (.working task (next (c.machine.roots t))))
      ⟨h.awake, h.lets, h.quiet⟩ (Function.update_self ..) rfl rfl
    exact ⟨last, hlast, .step (.scan hworking hnextStep)
      (hleads.alike (Function.update_idem ..).symm rfl rfl)⟩
  | @resume point next a result hnextStep rest ih =>
    rintro c h hworking rfl rfl
    obtain ⟨last, hlast, hleads⟩ := ih
      (c := ((c.withMachine (c.machine.resume t)).notifyAll
        (c.gate.isClosed && !(c.machine.resume t).gate.isClosed)).put t (.working task next))
      (h.resume Machine.gate_resume h.awake_notifyAll) (Function.update_self ..) rfl rfl
    exact ⟨last, hlast, .step (.resume hworking hnextStep)
      (hleads.alike (Function.update_idem ..).symm rfl rfl)⟩
  | @done point a answer hnextStep =>
    rintro c h hworking rfl rfl
    exact ⟨point, hnextStep, (Leads.start h).alike (congrArg Crew.stage (put_eq hworking)) rfl rfl⟩

end Undisturbed

end Staged

/-! ### Actions -/

variable [LawfulStaged A] {c : Crew A} {t : Thread}

namespace Undisturbed

/-- A thread that waits for the allocator gets it, and an answer. -/
theorem ask (h : c.Undisturbed t) {task : AllocatorTask} {result : Answer Nat × Arena A}
    (hlocking : c.stage t = .locking task) (hfree : c.lock = none)
    (hruns : Staged.Runs t task.request c.calls Staged.asked c.machine.toArena result) :
    ∃ last, Staged.nextStep t task.request last result.2 = .done result.1 ∧
      c.Leads t (({ c with lock := some t }.withMachine
        { c.machine with toArena := result.2 }).put t (.working task last)) := by
  obtain ⟨last, hlast, hworked⟩ := work hruns
    (c := { c with lock := some t }.put t (.working task Staged.asked))
    ⟨h.awake, h.lets, h.quiet⟩ (Function.update_self ..) rfl rfl
  exact ⟨last, hlast, .step (.lock hlocking hfree)
    (hworked.alike (Function.update_idem ..).symm rfl rfl)⟩

/-- A collection that waits for the allocator. -/
theorem collects (h : c.Undisturbed t) (hlocking : c.stage t = .locking .collection)
    (hfree : c.lock = none) :
    c.Leads t ((c.perform t .collect).put t .idle) := by
  obtain ⟨last, hlast, hasked⟩ := h.ask hlocking hfree
    (LawfulStaged.collect_runs t c.calls c.machine.toArena)
  refine hasked.trans fun asleep owner h' => ?_
  refine .step (.finish (Function.update_self ..) hlast)
    (.step (.unlock (Function.update_self ..)) ?_)
  refine Leads.alike (.start ⟨h'.awake, h'.lets, h'.quiet⟩) ?_ hfree rfl
  simp only [Crew.put, perform, Crew.answer, withMachine, Function.update_idem]

/-- A request for an object of a frame that may ask for one. -/
theorem allocates (h : c.Undisturbed t) {env : Env} {u : Unit}
    (hlocking : c.stage t = .locking (.object env)) (hfree : c.lock = none)
    (hactive : c.machine.checkActive env = .ok u) :
    c.Leads t ((c.perform t (.newObject env)).put t .idle) := by
  obtain ⟨last, hlast, hasked⟩ := h.ask hlocking hfree
    (LawfulStaged.allocate_runs t c.calls c.machine.toArena)
  have hrequest : c.world.machine.newObject t env = _ := Machine.newObject_eq
  have hpassed : c.world.machine.checkActive env = .ok u := hactive
  have hallocate : Allocator.allocate t c.world.machine.calls c.world.machine.toArena =
      Allocator.allocate t c.calls c.machine.toArena := rfl
  rw [hpassed, hallocate] at hrequest
  generalize Allocator.allocate t c.calls c.machine.toArena = allocated at hlast hasked hrequest
  rcases allocated with ⟨fault | o, arena⟩
  · refine hasked.trans fun asleep owner h' => ?_
    refine .step (.deny (Function.update_self ..) hlast)
      (.step (.unlock (Function.update_self ..)) ?_)
    refine Leads.alike (.start ⟨h'.awake, h'.lets, h'.quiet⟩) ?_ hfree ?_
    · simp only [Crew.put, perform, Crew.answer, withMachine, Function.update_idem]
    · simp only [perform, World.perform, World.onMachine, hrequest]
      rfl
  · refine hasked.trans fun asleep owner h' => ?_
    let c₁ : Crew A := { (({ c with lock := some t }.withMachine
      { c.machine with toArena := arena }).put t (.working (.object env) last)) with asleep, owner }
    have h₁ : ((c₁.put t (.receiving env o)).receive t env o).Undisturbed t :=
      h'.of_gate gate_receive ((congrFun asleep_receive t).trans h'.awake)
    refine .step (.deliver (Function.update_self ..) hlast)
      (.step (.receive (Function.update_self ..)) (.step (.unlock (Function.update_self ..)) ?_))
    refine Leads.alike (.start ⟨h₁.awake, h₁.lets, h₁.quiet⟩) ?_ hfree ?_
    · simp only [Crew.put, perform, Crew.answer, withMachine, Function.update_idem, stage_receive]
    · by_cases hheld : (c.machine.frame env).holds o = true
      · have hreceived : (c₁.put t (.receiving env o)).receive t env o = _ := if_pos hheld
        have hagain : (c.world.machine.frame env).holds o = true := hheld
        simp only [perform, World.perform, World.onMachine, hrequest, hagain]
        rw [hreceived]
        rfl
      · have hreceived : (c₁.put t (.receiving env o)).receive t env o = _ := if_neg hheld
        have hagain : (c.world.machine.frame env).holds o ≠ true := hheld
        simp only [perform, World.perform, World.onMachine, hrequest, hagain]
        rw [hreceived]
        rfl

/-- A request for an object, from the check of the frame on. -/
theorem requests (h : c.Undisturbed t) {env : Env} (hentering : c.stage t = .entering (.check env))
    (hfree : c.lock = none) : c.Leads t ((c.perform t (.newObject env)).put t .idle) := by
  cases hcheck : c.world.machine.checkActive env with
  | error fault =>
    have hrequest : c.world.machine.newObject t env = _ := Machine.newObject_eq
    rw [hcheck] at hrequest
    refine (h.check_refused hentering hcheck).alike rfl rfl ?_
    simp only [perform, World.perform, World.onMachine, hrequest]
  | ok u =>
    refine (h.check_passed hentering hcheck).trans fun asleep owner h' => ?_
    refine (h'.allocates (Function.update_self ..) hfree hcheck).alike ?_ rfl rfl
    simp only [Crew.put, perform, Crew.answer, Function.update_idem]

/-- The end of a run, from the scope in which its entry frame leaves on. -/
theorem endsRun (h : c.Undisturbed t) {entry : Env} {outcome : Answer Word}
    (hentering : c.stage t = .entering (.leaveRun entry outcome)) :
    c.Leads t ((c.perform t (.endRun entry outcome)).put t .idle) := by
  refine (h.leaveRun hentering).trans fun asleep owner h' => ?_
  refine .step (.unregister (Function.update_self ..)) ?_
  refine Leads.alike (.start ⟨h'.awake, h'.lets, h'.quiet⟩) ?_ rfl ?_
  · simp only [Crew.put, perform, Crew.answer, Crew.leaveRun, withMachine, Function.update_idem]
  · simp only [perform, World.perform, World.onMachine, Machine.endRun_plain]
    rfl

/-- Whatever a thread is to do next, its stages come to what the world does with the action. -/
theorem performs (h : c.Undisturbed t) (hidle : c.stage t = .idle) (hfree : c.lock = none)
    {action : Action} {rest : List Action} (htodo : c.todo t = action :: rest) :
    c.Leads t ((c.takeUp t rest).perform t action) := by
  have hback {stage : Stage (Staged.ControlPoint A)} :
      c.stage = Function.update (Function.update c.stage t stage) t .idle := by
    rw [Function.update_idem, ← hidle, Function.update_eq_self]
  have hbegin {stage : Stage (Staged.ControlPoint A)} (hfirst : action.first = some stage) :
      c.Step t ((c.takeUp t rest).put t stage) := .begin hidle htodo hfirst
  have hbegun {stage : Stage (Staged.ControlPoint A)} :
      ((c.takeUp t rest).put t stage).Undisturbed t := ⟨h.awake, h.lets, h.quiet⟩
  -- what is left after these two kinds of actions has a scope, the allocator or a stop of its own
  by_cases hfits : action.operates = true
  · have hfirst : action.first = some (.entering (.operate action hfits) :
        Stage (Staged.ControlPoint A)) := by
      cases action <;> first | rfl | cases hfits
    exact .step (hbegin hfirst) ((hbegun.operate (Function.update_self ..)).alike hback rfl rfl)
  by_cases hsimple : action.atOnce = true
  · refine .step (.atOnce hidle htodo hsimple fun _ => hfree) (Leads.alike (.start ?_) rfl rfl rfl)
    by_cases hresume : action = .resume
    · subst hresume
      exact h.resume Machine.gate_resume h.awake_notifyAll
    · exact h.of_gate (gate_perform_atOnce (c := c) hsimple hresume) h.awake_notifyAll
  cases action with
  | newObject env =>
    exact .step (hbegin rfl)
      ((hbegun.requests (Function.update_self ..) hfree).alike hback rfl rfl)
  | endRun entry outcome =>
    exact .step (hbegin rfl) ((hbegun.endsRun (Function.update_self ..)).alike hback rfl rfl)
  | collect =>
    exact .step (hbegin rfl)
      ((hbegun.collects (Function.update_self ..) hfree).alike hback rfl rfl)
  | stop =>
    refine .step (hbegin rfl)
      (.step (.close (Function.update_self ..) h.awake h.lets (.inr h.quiet)) ?_)
    exact Leads.alike (.start (h.close.of_gate rfl h.awake)) hback rfl rfl
  | beginRun name args =>
    have hplain : args.findSome? Word.target? = none := by
      simpa [Action.atOnce] using hsimple
    have hentered : (((c.takeUp t rest).register t).put t
        (.entering (.enterRun c.calls.known.size name args))).Undisturbed t :=
      ⟨h.awake, h.lets, h.quiet⟩
    refine .step (.register hidle htodo hplain)
      ((hentered.enterRun (Function.update_self ..)).alike hback rfl ?_)
    simp only [perform, takeUp, World.perform, World.onMachine, Machine.beginRun_plain hplain]
    rfl
  | _ => first | exact absurd rfl hfits | exact absurd rfl hsimple

/-- A thread that nobody disturbs comes to the end of its actions, and to the world and the ledger
that they lead to one after the other. -/
theorem exists_ran (h : c.Undisturbed t) (hidle : c.stage t = .idle) (hfree : c.lock = none) :
    ∃ c', Ran (alone t) c c' ∧ c'.todo t = [] ∧ c'.stage t = .idle ∧
      c'.session = (c.todo t).foldl (fun s action => s.after t action) c.session := by
  generalize hactions : c.todo t = actions
  induction actions generalizing c with
  | nil => exact ⟨c, .start, hactions, hidle, rfl⟩
  | cons action rest ih =>
    obtain ⟨asleep, owner, h', hran⟩ := h.performs hidle hfree hactions
    have hrest : (c.takeUp t rest).todo t = rest := Function.update_self ..
    obtain ⟨c', hran', hdone, hidle', hsession⟩ := ih h' hidle hfree hrest
    exact ⟨c', hran.trans hran', hdone, hidle', hsession⟩

end Undisturbed

/-- On a machine whose gate nobody has passed, a thread that is alone carries out its actions as the
programs do that have no stages. -/
theorem exists_ran_alone {start : Machine A} (hgate : start.gate = .fresh)
    (todo : Thread → List Action) (t : Thread) :
    ∃ c, Ran (alone t) (.opening start todo) c ∧ c.todo t = [] ∧
      c.session = (todo t).foldl (fun s action => s.after t action) (.opening start) := by
  have hfresh : (opening start todo).gate = .fresh := hgate
  have h : (opening start todo).Undisturbed t :=
    ⟨rfl, by rw [hfresh]; rfl, by rw [hfresh]; rfl⟩
  obtain ⟨c, hran, hdone, -, hsession⟩ := h.exists_ran rfl rfl
  exact ⟨c, hran, hdone, hsession⟩

end Crew

end RootedHeap
