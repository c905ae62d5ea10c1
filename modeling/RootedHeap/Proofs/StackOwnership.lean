import RootedHeap.Proofs.Crew
import RootedHeap.Proofs.Safety

/-!
What the threads of a crew have in their hands. Each thread works on stacks of its own. Between the
steps of an action it relies on what it found: that its call or run has not ended, that the frame
that asked for an object is still active, that the stack of its run is empty. Nobody else takes that
away, since the steps of others are about other stacks (`Crew.Elsewhere`).

A run registers its stack before it is in the ledger and forgets it afterwards, so the ledger does
not tally with the stacks that are registered, but with the tables in which the stacks of the
ledger's runs are enrolled (`Crew.StackOwnership`); they are all registered.
-/

namespace RootedHeap

namespace CallStacks

variable {t : CallStacks} {listed : List StackRef}

theorem enrolled_retireAll {fs : List FrameRef} :
    (t.enrolled listed).retireAll fs = (t.retireAll fs).enrolled listed := by
  induction fs generalizing t with
  | nil => rfl
  | cons f fs ih => exact ih (t := t.change f Frame.retire)

theorem enrolled_pop {s : StackRef} {f : FrameRef} :
    (t.enrolled listed).pop s f = (t.pop s f).enrolled listed :=
  enrolled_retireAll (t := { t with known := _ })

theorem enrolled_settled {caller callee : FrameRef} {result : Answer Word} :
    (t.enrolled listed).settled caller callee result =
      (t.settled caller callee result).enrolled listed := by
  rcases result with fault | word
  · rfl
  · cases hword : word.target? with
    | none => rw [settled_data hword, settled_data hword]; rfl
    | some h => rw [settled_object hword, settled_object hword]; rfl

/-- A change that leaves the state of the changed frame leaves the states of all. -/
theorem state_change {f g : FrameRef} {edit : Frame → Frame}
    (hstate : ∀ frame, (edit frame).state = frame.state) :
    ((t.change f edit).frame g).state = (t.frame g).state := by
  simp only [frame, change, Array.getElem?_modify]
  split
  · cases t.frames[g]? with
    | none => rfl
    | some frame => exact hstate frame
  · rfl

end CallStacks

namespace Ledger

variable {l l' : Ledger} {t t' : CallStacks} {gain : List Handle}

/-- A step that neither begins nor ends a run has nothing to do with which stacks are registered. -/
theorem Step.enrolled (hstep : l.Step t gain l' t') (listed : List StackRef)
    (hruns : l'.runs = l.runs) : l.Step (t.enrolled listed) gain l' (t'.enrolled listed) := by
  cases hstep with
  | idle => exact .idle
  | hold known active => exact .hold known active
  | release known active => exact .release known active
  | beginCall known active handed => exact .beginCall known active handed
  | endCall pending returned =>
    rw [← CallStacks.enrolled_pop, ← CallStacks.enrolled_settled]
    exact .endCall pending returned
  | abandonCall pending =>
    rw [← CallStacks.enrolled_pop]
    exact .abandonCall pending
  | beginRun => simp at hruns
  | endRun begun =>
    exact absurd begun (List.erase_eq_self_iff.1 hruns)
  | abandonRun begun =>
    exact absurd begun (List.erase_eq_self_iff.1 hruns)

/-- It leaves the registered stacks as they are, and makes none. -/
theorem Step.registered (hstep : l.Step t gain l' t') (hruns : l'.runs = l.runs) :
    t'.registered = t.registered ∧ t'.known.size = t.known.size := by
  cases hstep with
  | idle => exact ⟨rfl, rfl⟩
  | hold known active => exact ⟨rfl, rfl⟩
  | release known active => exact ⟨rfl, rfl⟩
  | beginCall known active handed => exact ⟨rfl, CallStacks.known_size_opened⟩
  | endCall pending returned =>
    rw [CallStacks.registered_pop, CallStacks.registered_settled, CallStacks.known_size_pop,
      CallStacks.known_settled]
    exact ⟨rfl, rfl⟩
  | abandonCall pending => exact ⟨CallStacks.registered_pop, CallStacks.known_size_pop⟩
  | beginRun => simp at hruns
  | endRun begun =>
    exact absurd begun (List.erase_eq_self_iff.1 hruns)
  | abandonRun begun =>
    exact absurd begun (List.erase_eq_self_iff.1 hruns)

/-- A frame that leaves its stack retires no frame on another. -/
theorem Tallies.active_pop (h : l.Tallies t) {env : Env} {s : StackRef} {f : FrameRef}
    (henv : env ∈ l.envs) (hactive : (t.frame env.frame).state = .active) (hs : env.stack ≠ s) :
    ((t.pop s f).frame env.frame).state = .active := by
  rw [h.frame_pop, if_neg]
  · exact hactive
  · rintro ⟨hmem, -, -⟩
    exact hs (h.stack_eq (h.onStack env henv hactive) hmem)

end Ledger

def Action.envs : Action → List Env
  | .newObject env | .getReference env _ _ | .getData env _ _ | .setReference env _ _ _
  | .setData env _ _ _ | .release env _ | .beginCall env _ _ | .abandonCall env | .endRun env _
  | .abandonRun env => [env]
  | .endCall caller callee _ => [caller, callee]
  | _ => []

/-- What is done inside a scope neither goes past the frames nor leaves a run broken. -/
theorem Action.orderly_of_operates {action : Action} (hfits : action.operates = true) :
    action.orderly = true := by
  cases action <;> first | rfl | cases hfits

namespace Crew

variable {A : Type} [Allocator A] [Staged A] {c c' : Crew A} {t u : Thread}

/-- A thread that behaves begins what it may, on stacks of its own, and nothing disorderly. -/
def behaves (c : Crew A) (t : Thread) : Prop :=
  c.stage t = .idle → ∀ action ∈ (c.todo t).head?,
    c.ledger.permits action ∧ action.orderly = true ∧ ∀ env ∈ action.envs, c.owner env.stack = t

instance (c : Crew A) (t : Thread) : Decidable (c.behaves t) :=
  match hstage : c.stage t with
  | .idle =>
    decidable_of_iff (∀ action ∈ (c.todo t).head?, c.ledger.permits action ∧
        action.orderly = true ∧ ∀ env ∈ action.envs, c.owner env.stack = t)
      ⟨fun h _ => h, fun h => h hstage⟩
  | .entering _ | .inside _ | .leaving _ | .unregistering _ | .locking _ | .working ..
  | .stopping _ | .draining _ | .receiving .. | .unlocking =>
    isTrue fun hidle => nomatch hstage.symm.trans hidle

/-! ### What threads rely on -/

/-- A stack of a thread on which no run has begun, or none is left. -/
structure Vacant (c : Crew A) (t : Thread) (stack : StackRef) : Prop where
  known : stack < c.calls.known.size
  owned : c.owner stack = t
  free : ∀ entry ∈ c.ledger.runs, entry.stack ≠ stack

/-- A frame of a thread that can come to hold an object. -/
structure Receptive (c : Crew A) (t : Thread) (env : Env) : Prop where
  known : env ∈ c.ledger.envs
  owned : c.owner env.stack = t
  active : (c.calls.frame env.frame).state = .active

/-- What a thread with work in a scope relies on. -/
def reliesInScope (c : Crew A) (t : Thread) : ScopedWork → Prop
  | .operate action _ => c.ledger.permits action ∧ ∀ env ∈ action.envs, c.owner env.stack = t
  | .check env => env ∈ c.ledger.envs ∧ c.owner env.stack = t
  | .enterRun stack _ _ => c.Vacant t stack ∧ stack ∈ c.calls.registered
  | .leaveRun entry _ => entry ∈ c.ledger.runs ∧ c.owner entry.stack = t

/-- What a thread with a task for the allocator relies on. -/
def reliesForTask (c : Crew A) (t : Thread) : AllocatorTask → Prop
  | .object env => c.Receptive t env
  | .collection => True

/-- What a thread at a stage relies on. -/
def relies (c : Crew A) (t : Thread) : Stage (Staged.ControlPoint A) → Prop
  | .entering scopedWork | .inside scopedWork => c.reliesInScope t scopedWork
  | .leaving .nothing => True
  | .leaving (.allocate env) | .receiving env _ => c.Receptive t env
  | .leaving (.unregister entry) | .unregistering entry => c.Vacant t entry.stack
  | .locking task | .working task _ | .stopping (.allocator task _)
  | .draining (.allocator task _) =>
    c.reliesForTask t task
  | .idle | .stopping .program | .draining .program | .unlocking => True

/-- Every thread has what it relies on, and the ledger tallies with the stacks of its runs. -/
structure StackOwnership (c : Crew A) : Prop where
  tallies : c.ledger.Tallies (c.calls.enrolled (c.ledger.runs.map Env.stack))
  unbroken : c.ledger.broken = []
  registered : ∀ entry ∈ c.ledger.runs, entry.stack ∈ c.calls.registered
  relied : ∀ t, c.relies t (c.stage t)

/-- A change that has nothing to do with the stacks of thread `u`. -/
structure Elsewhere (c : Crew A) (u : Thread) (c' : Crew A) : Prop where
  size : c.calls.known.size ≤ c'.calls.known.size
  owner : ∀ k < c.calls.known.size, c'.owner k = c.owner k
  envs : ∀ env ∈ c.ledger.envs, env ∈ c'.ledger.envs
  calls : ∀ p ∈ c.ledger.calls, c.owner p.2.stack = u → p ∈ c'.ledger.calls
  runs : ∀ entry, c.owner entry.stack = u → entry.stack < c.calls.known.size →
    (entry ∈ c'.ledger.runs ↔ entry ∈ c.ledger.runs)
  registered : ∀ k < c.calls.known.size, c.owner k = u → k ∈ c.calls.registered →
    k ∈ c'.calls.registered
  active : ∀ env ∈ c.ledger.envs, c.owner env.stack = u →
    (c.calls.frame env.frame).state = .active → (c'.calls.frame env.frame).state = .active

namespace Elsewhere

theorem of_same (hcalls : c'.calls = c.calls) (hledger : c'.ledger = c.ledger)
    (howner : c'.owner = c.owner) : c.Elsewhere u c' where
  size := Nat.le_of_eq (by rw [hcalls])
  owner k _ := by rw [howner]
  envs env henv := hledger ▸ henv
  calls p hp _ := hledger ▸ hp
  runs entry _ _ := by rw [hledger]
  registered k _ _ hk := hcalls ▸ hk
  active env _ _ hactive := hcalls ▸ hactive

variable {env : Env} {stack : StackRef} {scopedWork : ScopedWork}
  {stage : Stage (Staged.ControlPoint A)}

theorem vacant (h : c.Elsewhere u c') (hstack : c.Vacant u stack) : c'.Vacant u stack where
  known := Nat.lt_of_lt_of_le hstack.known h.size
  owned := (h.owner stack hstack.known).trans hstack.owned
  free entry hentry heq := by
    subst heq
    exact hstack.free entry ((h.runs entry hstack.owned hstack.known).1 hentry) rfl

theorem receptive (h : c.Elsewhere u c') (hc : c.StackOwnership) (henv : c.Receptive u env) :
    c'.Receptive u env where
  known := h.envs env henv.known
  owned := (h.owner _ (hc.tallies.known env henv.known)).trans henv.owned
  active := h.active env henv.known henv.owned henv.active

/-- An operation that a thread may do it may still do. -/
theorem permits (h : c.Elsewhere u c') (hc : c.StackOwnership) {action : Action}
    (hfits : action.operates = true) (hpermits : c.ledger.permits action)
    (hown : ∀ env ∈ action.envs, c.owner env.stack = u) :
    c'.ledger.permits action ∧ ∀ env ∈ action.envs, c'.owner env.stack = u := by
  have hone (env : Env) (henv : env ∈ c.ledger.envs) (howned : c.owner env.stack = u) :
      env ∈ c'.ledger.envs ∧ ∀ e ∈ [env], c'.owner e.stack = u := by
    refine ⟨h.envs env henv, fun e he => ?_⟩
    obtain rfl := List.mem_singleton.1 he
    exact (h.owner _ (hc.tallies.known e henv)).trans howned
  cases action with
  | endCall caller callee outcome =>
    have hcallee : c.owner callee.stack = u := hown callee (by simp [Action.envs])
    obtain ⟨hknown, hstack, -, -⟩ := hc.tallies.nested caller callee hpermits
    refine ⟨h.calls _ hpermits hcallee, fun env henv => ?_⟩
    have hsame : env.stack = callee.stack := by
      rcases List.mem_cons.1 henv with rfl | henv
      · exact hstack
      · rw [List.mem_singleton.1 henv]
    rw [hsame]
    exact (h.owner _ (hc.tallies.known callee hknown)).trans hcallee
  | getReference env object slot => exact hone env hpermits (hown env List.mem_cons_self)
  | getData env object slot => exact hone env hpermits (hown env List.mem_cons_self)
  | setReference env object slot target => exact hone env hpermits (hown env List.mem_cons_self)
  | setData env object slot word => exact hone env hpermits (hown env List.mem_cons_self)
  | release env object => exact hone env hpermits (hown env List.mem_cons_self)
  | beginCall env name args => exact hone env hpermits (hown env List.mem_cons_self)
  | _ => cases hfits

theorem reliesInScope (h : c.Elsewhere u c') (hc : c.StackOwnership)
    (hwork : c.reliesInScope u scopedWork) :
    c'.reliesInScope u scopedWork := by
  cases scopedWork with
  | operate action fits => exact h.permits hc fits hwork.1 hwork.2
  | check env =>
    exact ⟨h.envs env hwork.1,
      (h.owner _ (hc.tallies.known env hwork.1)).trans hwork.2⟩
  | enterRun stack name args =>
    exact ⟨h.vacant hwork.1, h.registered stack hwork.1.known hwork.1.owned hwork.2⟩
  | leaveRun entry outcome =>
    have hknown : entry.stack < c.calls.known.size :=
      hc.tallies.known entry (hc.tallies.entered entry (List.mem_append_left _ hwork.1)).1
    exact ⟨(h.runs entry hwork.2 hknown).2 hwork.1,
      (h.owner _ hknown).trans hwork.2⟩

theorem reliesForTask (h : c.Elsewhere u c') (hc : c.StackOwnership) {task : AllocatorTask}
    (htask : c.reliesForTask u task) :
    c'.reliesForTask u task := by
  cases task with
  | object env => exact h.receptive hc htask
  | collection => trivial

/-- What happens elsewhere takes nothing away that a thread relies on. -/
theorem relies (h : c.Elsewhere u c') (hc : c.StackOwnership) (hstage : c.relies u stage) :
    c'.relies u stage := by
  cases stage with
  | entering scopedWork => exact h.reliesInScope hc hstage
  | inside scopedWork => exact h.reliesInScope hc hstage
  | leaving following =>
    cases following with
    | nothing => trivial
    | allocate env => exact h.receptive hc hstage
    | unregister entry => exact h.vacant hstage
  | unregistering entry => exact h.vacant hstage
  | locking task => exact h.reliesForTask hc hstage
  | working task point => exact h.reliesForTask hc hstage
  | stopping cause =>
    cases cause with
    | program => trivial
    | allocator task next => exact h.reliesForTask hc hstage
  | draining cause =>
    cases cause with
    | program => trivial
    | allocator task next => exact h.reliesForTask hc hstage
  | receiving env o => exact h.receptive hc hstage
  | idle | unlocking => trivial

end Elsewhere

/-! ### Actions that are done in one step -/

section Perform

variable {action : Action}

/-- An orderly action that is done in one step begins and ends no run. -/
theorem runs_perform (hquick : action.operates = true ∨ action.atOnce = true)
    (horderly : action.orderly = true) :
    (c.perform t action).ledger.runs = c.ledger.runs ∧
      (c.perform t action).ledger.broken = c.ledger.broken := by
  have hrecord : (c.perform t action).ledger =
      c.ledger.record action (c.world.perform t action).1 := rfl
  rw [hrecord]
  cases action with
  | beginRun name args =>
    obtain ⟨h, hargs⟩ := Option.isSome_iff_exists.1 (hquick.resolve_left (nomatch ·))
    have hreply : (c.world.perform t (.beginRun name args)).1 = .error (.notHeld h) := by
      show (c.machine.beginRun t name args).1 = _
      rw [Machine.beginRun_refused hargs]
    rw [hreply]
    exact ⟨rfl, rfl⟩
  | beginCall caller name args => cases (c.world.perform t (.beginCall caller name args)).1 <;>
      exact ⟨rfl, rfl⟩
  | endRun entry outcome => rcases hquick with h | h <;> cases h
  | abandonRun entry => cases horderly
  | _ => exact ⟨rfl, rfl⟩

/-- What it takes out of the ledger are calls of its own. -/
theorem ledger_perform (action : Action) :
    (∀ env ∈ c.ledger.envs, env ∈ (c.perform t action).ledger.envs) ∧
      ∀ p ∈ c.ledger.calls, p.2 ∉ action.envs → p ∈ (c.perform t action).ledger.calls := by
  have hrecord : (c.perform t action).ledger =
      c.ledger.record action (c.world.perform t action).1 := rfl
  rw [hrecord]
  generalize (c.world.perform t action).1 = reply
  cases action with
  | beginCall caller name args =>
    cases reply with
    | error fault => exact ⟨fun _ => id, fun _ hp _ => hp⟩
    | ok callee =>
      exact ⟨fun _ => List.mem_append_left _, fun _ hp _ => List.mem_cons_of_mem _ hp⟩
  | endCall caller callee outcome =>
    refine ⟨fun _ => id, fun p hp hne => (List.mem_erase_of_ne ?_).2 hp⟩
    rintro rfl
    exact hne (by simp [Action.envs])
  | abandonCall callee =>
    refine ⟨fun _ => id, fun p hp hne => List.mem_filter.2 ⟨hp, decide_eq_true ?_⟩⟩
    rintro rfl
    exact hne List.mem_cons_self
  | beginRun name args =>
    cases reply with
    | error fault => exact ⟨fun _ => id, fun _ hp _ => hp⟩
    | ok entry => exact ⟨fun _ => List.mem_append_left _, fun _ hp _ => hp⟩
  | _ => exact ⟨fun _ => id, fun _ hp _ => hp⟩

/-- Frames on other stacks stay active. -/
theorem active_perform (hc : c.StackOwnership)
    (hquick : action.operates = true ∨ action.atOnce = true)
    (hpermits : c.ledger.permits action) {env : Env} (henv : env ∈ c.ledger.envs)
    (hactive : (c.calls.frame env.frame).state = .active)
    (hother : ∀ e ∈ action.envs, env.stack ≠ e.stack) :
    ((c.perform t action).calls.frame env.frame).state = .active := by
  have hpop (s : StackRef) (f : FrameRef) (hs : env.stack ≠ s) :
      ((c.calls.pop s f).frame env.frame).state = .active := by
    have hpopped := hc.tallies.active_pop (f := f) henv hactive hs
    rwa [CallStacks.enrolled_pop] at hpopped
  let P : Machine A → Prop := fun m => (m.calls.frame env.frame).state = .active
  have hP : P c.machine := hactive
  cases action with
  | getReference e object slot =>
    show P (c.machine.getReference t e object slot).2
    rw [Machine.getReference_eq]
    refine Machine.decided_keeps hP fun h _ => ?_
    split
    · exact hP
    · exact (CallStacks.state_change fun _ => Frame.state_insert).trans hactive
  | getData e object slot =>
    show P (c.machine.getData t e object slot).2
    rw [Machine.getData_eq]
    exact Machine.decided_keeps hP fun _ _ => hP
  | setReference e object slot target =>
    show P (c.machine.setReference t e object slot target).2
    rw [Machine.setReference_eq]
    exact Machine.decided_keeps hP fun _ _ => hP
  | setData e object slot word =>
    show P (c.machine.setData t e object slot word).2
    rw [Machine.setData_eq]
    exact Machine.decided_keeps hP fun _ _ => hP
  | release e object =>
    show P (c.machine.release t e object).2
    rw [Machine.release_eq]
    exact Machine.decided_keeps hP fun _ _ =>
      (CallStacks.state_change fun _ => Frame.state_remove).trans hactive
  | beginCall caller name args =>
    show P (c.machine.beginCall t caller name args).2
    obtain ⟨text, heq⟩ := Machine.beginCall_eq c.machine t caller name args
    rw [heq]
    refine Machine.decided_keeps hP fun objects _ => ?_
    show ((Machine.traced _ t text).calls.frame env.frame).state = .active
    rw [Machine.calls_traced]
    exact EnvsAgree.active_opened.2 (.inr hactive)
  | endCall caller callee outcome =>
    show P (c.machine.endCall t caller callee outcome).2
    obtain ⟨text, heq⟩ := Machine.endCall_eq c.machine t caller callee outcome
    rw [heq]
    show ((Machine.traced _ t text).calls.frame env.frame).state = .active
    rw [Machine.calls_traced]
    have halike := hc.tallies.alike_settled hpermits fun word o hok htarget =>
      Machine.held_of_checkResult_eq_ok
        (show c.machine.checkResult callee outcome = .ok word from hok) htarget
    have hsettled := (halike.active env.frame).2 (by
      rw [CallStacks.enrolled_pop]
      exact hpop _ _ (hother callee (by simp [Action.envs])))
    rwa [CallStacks.enrolled_settled, CallStacks.enrolled_pop] at hsettled
  | abandonCall callee => exact hpop _ _ (hother callee List.mem_cons_self)
  | beginRun name args =>
    obtain ⟨h, hargs⟩ := Option.isSome_iff_exists.1 (hquick.resolve_left (nomatch ·))
    show P (c.machine.beginRun t name args).2
    rw [Machine.beginRun_refused hargs]
    exact hP
  | cell h command =>
    have hcalls : (c.perform t (.cell h command)).calls = c.calls :=
      Session.calls_cell (s := c.session) (t := t)
    rw [hcalls]
    exact hactive
  | newObject env => rcases hquick with h | h <;> cases h
  | endRun entry outcome => rcases hquick with h | h <;> cases h
  | collect => rcases hquick with h | h <;> cases h
  | _ => exact hactive

/-- An action of a thread on its own stacks happens elsewhere for the others. -/
theorem elsewhere_perform (hc : c.StackOwnership)
    (hquick : action.operates = true ∨ action.atOnce = true)
    (horderly : action.orderly = true) (hpermits : c.ledger.permits action)
    (hown : ∀ env ∈ action.envs, c.owner env.stack = t) (hu : u ≠ t) :
    c.Elsewhere u (c.perform t action) := by
  obtain ⟨henvs, hcalls⟩ := ledger_perform (c := c) (t := t) action
  obtain ⟨hruns, -⟩ := runs_perform (c := c) (t := t) hquick horderly
  obtain ⟨hregistered, hsize⟩ :=
    (Session.ledger_step (s := c.session) (t := t) hpermits).registered hruns
  refine ⟨Nat.le_of_eq hsize.symm, fun _ _ => rfl, henvs, fun p hp howned => hcalls p hp ?_,
    fun entry _ _ => by rw [hruns], fun k _ _ hk => hregistered ▸ hk,
    fun env henv howned hactive => active_perform hc hquick hpermits henv hactive ?_⟩
  · exact fun hmem => hu (howned.symm.trans (hown _ hmem))
  · exact fun e he heq => hu (howned.symm.trans (heq ▸ hown e he))

/-- The ledger goes on to tally. -/
theorem tallies_perform (hc : c.StackOwnership)
    (hquick : action.operates = true ∨ action.atOnce = true) (horderly : action.orderly = true)
    (hpermits : c.ledger.permits action) :
    (c.perform t action).ledger.Tallies
      ((c.perform t action).calls.enrolled ((c.perform t action).ledger.runs.map Env.stack)) := by
  obtain ⟨hruns, -⟩ := runs_perform (c := c) (t := t) hquick horderly
  rw [hruns]
  exact hc.tallies.step ((Session.ledger_step (s := c.session) (t := t) hpermits).enrolled _ hruns)

end Perform

namespace StackOwnership

variable {stage : Stage (Staged.ControlPoint A)}

/-- What a frame holds is a root. -/
theorem mem_roots (hc : c.StackOwnership) {f : FrameRef} {h : Handle}
    (hh : h ∈ (c.calls.frame f).handles) : h ∈ c.calls.roots := by
  obtain ⟨s, hs, hrest⟩ := CallStacks.mem_roots_iff.1 (hc.tallies.mem_roots hc.unbroken hh)
  obtain ⟨entry, hentry, rfl⟩ := List.mem_map.1 hs
  exact CallStacks.mem_roots_iff.2 ⟨entry.stack, hc.registered entry hentry, hrest⟩

/-- A stack of a run has been made. -/
theorem lt_size (hc : c.StackOwnership) {entry : Env} (hentry : entry ∈ c.ledger.runs) :
    entry.stack < c.calls.known.size :=
  hc.tallies.known entry (hc.tallies.entered entry (List.mem_append_left _ hentry)).1

/-- A step of one thread keeps who owns what if it does so for that thread and is elsewhere for the
others. -/
theorem update (h : c.StackOwnership)
    (htallies : c'.ledger.Tallies (c'.calls.enrolled (c'.ledger.runs.map Env.stack)))
    (hunbroken : c'.ledger.broken = [])
    (hregistered : ∀ entry ∈ c'.ledger.runs, entry.stack ∈ c'.calls.registered)
    (hstage : c'.stage = Function.update c.stage t stage)
    (helsewhere : ∀ u ≠ t, c.Elsewhere u c') (hrelies : c'.relies t stage) : c'.StackOwnership where
  tallies := htallies
  unbroken := hunbroken
  registered := hregistered
  relied u := by
    by_cases hu : u = t
    · subst hu
      rwa [hstage, Function.update_self]
    · rw [hstage, Function.update_of_ne hu]
      exact (helsewhere u hu).relies h (h.relied u)

/-- A step that leaves ledger, tables and owners alone. -/
theorem put (h : c.StackOwnership) (hcalls : c'.calls = c.calls) (hledger : c'.ledger = c.ledger)
    (howner : c'.owner = c.owner) (hstage : c'.stage = Function.update c.stage t stage)
    (hrelies : c.relies t stage) : c'.StackOwnership := by
  have hsame (u : Thread) : c.Elsewhere u c' := .of_same hcalls hledger howner
  refine h.update ?_ (hledger ▸ h.unbroken) (by rw [hledger, hcalls]; exact h.registered) hstage
    (fun u _ => hsame u) ((hsame t).relies h hrelies)
  rw [hledger, hcalls]
  exact h.tallies

/-- What a thread relies on that begins an action. -/
theorem relies_first {action : Action} (horderly : action.orderly = true)
    (hpermits : c.ledger.permits action) (hown : ∀ env ∈ action.envs, c.owner env.stack = t)
    (hfirst : action.first = some stage) : c.relies t stage := by
  cases action with
  | newObject env =>
    obtain rfl := Option.some.inj hfirst
    exact ⟨hpermits, hown env List.mem_cons_self⟩
  | endRun entry outcome =>
    obtain rfl := Option.some.inj hfirst
    exact ⟨hpermits, hown entry List.mem_cons_self⟩
  | collect =>
    obtain rfl := Option.some.inj hfirst
    trivial
  | stop => cases horderly
  | _ =>
    first
    | (obtain rfl := Option.some.inj hfirst
       exact ⟨hpermits, hown⟩)
    | cases hfirst

/-- A thread registers a stack for a run. -/
theorem register (h : c.StackOwnership) (hcalls : c'.calls = c.calls.register.2)
    (hledger : c'.ledger = c.ledger)
    (howner : c'.owner = Function.update c.owner c.calls.known.size t)
    (hstage : c'.stage = Function.update c.stage t stage)
    (hrelies : c'.Vacant t c.calls.known.size → c.calls.known.size ∈ c'.calls.registered →
      c'.relies t stage) : c'.StackOwnership := by
  have hsize : c'.calls.known.size = c.calls.known.size + 1 := by
    rw [hcalls, CallStacks.known_size_register]
  have hmem : ∀ k, k ∈ c'.calls.registered ↔ k ∈ c.calls.registered ∨ k = c.calls.known.size := by
    intro k
    rw [hcalls, CallStacks.registered_register, List.mem_append, List.mem_singleton]
  refine h.update (t := t) ?_ (hledger ▸ h.unbroken) (fun entry hentry => ?_) hstage
    (fun u hu => ?_) (hrelies ?_ ?_)
  · rw [hledger, hcalls]
    exact h.tallies.addStack
  · exact (hmem _).2 (.inl (h.registered entry (hledger ▸ hentry)))
  · refine ⟨by omega, fun k hk => ?_, fun env henv => hledger ▸ henv, fun p hp _ => hledger ▸ hp,
      fun entry _ _ => by rw [hledger], fun k _ _ hk => (hmem k).2 (.inl hk),
      fun env _ _ hactive => ?_⟩
    · rw [howner, Function.update_of_ne (Nat.ne_of_lt hk)]
    · rw [hcalls]
      exact hactive
  · refine ⟨?_, by rw [howner, Function.update_self], fun entry hentry => ?_⟩
    · rw [hsize]
      exact Nat.lt_succ_self _
    · exact Nat.ne_of_lt (h.lt_size (hledger ▸ hentry))
  · exact (hmem _).2 (.inr rfl)

/-- A thread opens the entry frame of a run on a stack of its own. -/
theorem enterRun (h : c.StackOwnership) {stack : StackRef} (hvacant : c.Vacant t stack)
    (hin : stack ∈ c.calls.registered) (hcalls : c'.calls = c.calls.opened stack [])
    (hledger : c'.ledger =
      { c.ledger with
        envs := c.ledger.envs ++ [⟨stack, c.calls.frames.size⟩]
        runs := c.ledger.runs ++ [⟨stack, c.calls.frames.size⟩] })
    (howner : c'.owner = c.owner) (hstage : c'.stage = Function.update c.stage t stage)
    (hrelies : c'.relies t stage) : c'.StackOwnership := by
  refine h.update (t := t) ?_ (hledger ▸ h.unbroken) (fun entry hentry => ?_) hstage
    (fun u hu => ?_) hrelies
  · rw [hledger, hcalls, List.map_append]
    refine h.tallies.openRun hvacant.known fun entry hentry => ?_
    rw [Ledger.entries, h.unbroken, List.append_nil] at hentry
    exact hvacant.free entry hentry
  · rw [hledger] at hentry
    rw [hcalls, CallStacks.registered_opened]
    rcases List.mem_append.1 hentry with hentry | hentry
    · exact h.registered entry hentry
    · obtain rfl := List.mem_singleton.1 hentry
      exact hin
  · refine ⟨?_, fun k _ => by rw [howner], fun env henv => ?_, fun p hp _ => ?_,
      fun entry howned _ => ?_, fun k _ _ hk => ?_, fun env _ _ hactive => ?_⟩
    · exact Nat.le_of_eq (by rw [hcalls, CallStacks.known_size_opened])
    · rw [hledger]
      exact List.mem_append_left _ henv
    · rw [hledger]
      exact hp
    · rw [hledger]
      refine List.mem_append.trans (or_iff_left fun hnew => ?_)
      obtain rfl := List.mem_singleton.1 hnew
      exact hu (howned.symm.trans hvacant.owned)
    · rw [hcalls, CallStacks.registered_opened]
      exact hk
    · rw [hcalls]
      exact EnvsAgree.active_opened.2 (.inr hactive)

/-- A thread closes the entry frame of its run. -/
theorem leaveRun (h : c.StackOwnership) {entry : Env} (hbegun : entry ∈ c.ledger.runs)
    (howned : c.owner entry.stack = t)
    (hcalls : c'.calls = c.calls.pop entry.stack entry.frame)
    (hledger : c'.ledger = { c.ledger with runs := c.ledger.runs.erase entry })
    (howner : c'.owner = c.owner) (hstage : c'.stage = Function.update c.stage t stage)
    (hrelies : c'.Vacant t entry.stack → c'.relies t stage) : c'.StackOwnership := by
  have hsize : c'.calls.known.size = c.calls.known.size := by
    rw [hcalls, CallStacks.known_size_pop]
  have hother : ∀ e, e ∈ c'.ledger.runs ↔ e ≠ entry ∧ e ∈ c.ledger.runs := by
    intro e
    have hmem : e ∈ c.ledger.runs.erase entry ++ c.ledger.broken ↔
        e ≠ entry ∧ e ∈ c.ledger.entries := h.tallies.mem_erase_entry hbegun
    rw [Ledger.entries, h.unbroken, List.append_nil, List.append_nil] at hmem
    rw [hledger]
    exact hmem
  refine h.update (t := t) ?_ (hledger ▸ h.unbroken) (fun e he => ?_) hstage (fun u hu => ?_)
    (hrelies ⟨?_, howner ▸ howned, fun e he heq => ?_⟩)
  · rw [hledger, hcalls]
    have hstacks : ∀ k, k ∈ (c.ledger.runs.erase entry).map Env.stack ↔
        ∃ e ∈ c.ledger.runs.erase entry, e.stack = k := fun _ => List.mem_map
    have hclosed := h.tallies.closeRun hbegun hstacks
    rwa [CallStacks.enrolled_pop] at hclosed
  · rw [hcalls, CallStacks.registered_pop]
    exact h.registered e ((hother e).1 he).2
  · refine ⟨Nat.le_of_eq hsize.symm, fun k _ => by rw [howner], fun env henv => hledger ▸ henv,
      fun p hp _ => hledger ▸ hp, fun e he _ => ?_, fun k _ _ hk => ?_,
      fun env henv hown hactive => ?_⟩
    · rw [hother]
      refine and_iff_right ?_
      rintro rfl
      exact hu (he.symm.trans howned)
    · rw [hcalls, CallStacks.registered_pop]
      exact hk
    · have hpopped := h.tallies.active_pop (s := entry.stack) (f := entry.frame) henv hactive
        fun heq => hu (hown.symm.trans (heq ▸ howned))
      rw [hcalls]
      rwa [CallStacks.enrolled_pop] at hpopped
  · rw [hsize]
    exact h.lt_size hbegun
  · obtain ⟨hne, he⟩ := (hother e).1 he
    exact hne (h.tallies.entry_eq (List.mem_append_left _ he) (List.mem_append_left _ hbegun) heq)

/-- A thread has a stack of its own forgotten that no run is on. -/
theorem unregister (h : c.StackOwnership) {k : StackRef} (hvacant : c.Vacant t k)
    (hcalls : c'.calls = c.calls.unregister (c.calls.stack k).id) (hledger : c'.ledger = c.ledger)
    (howner : c'.owner = c.owner) (hstage : c'.stage = Function.update c.stage t stage)
    (hrelies : c'.relies t stage) : c'.StackOwnership := by
  have hkept : ∀ s < c.calls.known.size, s ≠ k → s ∈ c.calls.registered →
      s ∈ c'.calls.registered := by
    intro s hs hne hin
    rw [hcalls]
    refine CallStacks.mem_registered_unregister.2 ⟨hin, fun hid => hne ?_⟩
    exact (h.tallies.ids s hs).symm.trans (hid.trans (h.tallies.ids k hvacant.known))
  refine h.update (t := t) ?_ (hledger ▸ h.unbroken) (fun e he => ?_) hstage (fun u hu => ?_)
    hrelies
  · rw [hledger, hcalls]
    exact h.tallies
  · rw [hledger] at he
    exact hkept _ (h.lt_size he) (hvacant.free e he) (h.registered e he)
  · refine ⟨Nat.le_of_eq (by rw [hcalls, CallStacks.known_unregister]), fun s _ => by rw [howner],
      fun env henv => hledger ▸ henv, fun p hp _ => hledger ▸ hp, fun e _ _ => by rw [hledger],
      fun s hs hown => hkept s hs ?_, fun env _ _ hactive => ?_⟩
    · rintro rfl
      exact hu (hown.symm.trans hvacant.owned)
    · rw [hcalls]
      exact hactive

/-- A frame of a thread comes to hold the cell that the thread got for it. -/
theorem receive (h : c.StackOwnership) {env : Env} {o : Handle} (henv : c.Receptive t env)
    (hstage : c'.stage = Function.update c.stage t stage) (hcalls : c'.calls = c.calls ∨
      c'.calls = c.calls.change env.frame (·.insert o)) (hledger : c'.ledger = c.ledger)
    (howner : c'.owner = c.owner) (hrelies : c.relies t stage) : c'.StackOwnership := by
  rcases hcalls with hsame | hheld
  · exact h.put hsame hledger howner hstage hrelies
  · have hedit : ∀ frame : Frame, (frame.insert o).state = frame.state := fun _ =>
      Frame.state_insert
    have helsewhere (u : Thread) : c.Elsewhere u c' := by
      refine ⟨Nat.le_of_eq (by rw [hheld, CallStacks.known_change]), fun k _ => by rw [howner],
        fun e he => hledger ▸ he, fun p hp _ => hledger ▸ hp, fun e _ _ => by rw [hledger],
        fun k _ _ hk => ?_, fun e _ _ hactive => ?_⟩
      · rw [hheld]
        exact hk
      · rw [hheld]
        exact (CallStacks.state_change hedit).trans hactive
    refine h.update ?_ (hledger ▸ h.unbroken) (fun e he => ?_) hstage (fun u _ => helsewhere u)
      ((helsewhere t).relies h hrelies)
    · rw [hledger, hheld]
      exact h.tallies.alike (h.tallies.alike_change hedit henv.active)
    · rw [hheld]
      exact h.registered e (hledger ▸ he)

/-- A thread does an action in one step. -/
theorem perform (h : c.StackOwnership) {action : Action} {c₁ : Crew A}
    (hquick : action.operates = true ∨ action.atOnce = true) (horderly : action.orderly = true)
    (hpermits : c.ledger.permits action) (hown : ∀ env ∈ action.envs, c.owner env.stack = t)
    (hcalls : c₁.calls = (c.perform t action).calls)
    (hledger : c₁.ledger = (c.perform t action).ledger) (howner : c₁.owner = c.owner)
    (hstage : c₁.stage = Function.update c.stage t stage) (hrelies : c₁.relies t stage) :
    c₁.StackOwnership := by
  obtain ⟨hruns, hbroken⟩ := runs_perform (c := c) (t := t) hquick horderly
  have hstep := Session.ledger_step (s := c.session) (t := t) hpermits
  refine h.update (t := t) ?_ ?_ (fun entry hentry => ?_) hstage (fun u hu => ?_) hrelies
  · rw [hledger, hcalls]
    exact tallies_perform h hquick horderly hpermits
  · rw [hledger, hbroken]
    exact h.unbroken
  · rw [hledger, hruns] at hentry
    have hregistered : (c.perform t action).calls.registered = c.calls.registered :=
      (hstep.registered hruns).1
    rw [hcalls, hregistered]
    exact h.registered entry hentry
  · have helse := elsewhere_perform h hquick horderly hpermits hown hu
    exact ⟨hcalls ▸ helse.size, fun k _ => by rw [howner], hledger ▸ helse.envs,
      hledger ▸ helse.calls, hledger ▸ helse.runs, hcalls ▸ helse.registered,
      hcalls ▸ helse.active⟩

/-- Steps of threads that behave keep who owns what. -/
theorem step (h : c.StackOwnership) (hbehaves : c.behaves t) (hstep : c.Step t c') :
    c'.StackOwnership := by
  have hown := h.relied t
  cases hstep with
  | begin idle next first =>
    obtain ⟨hpermits, horderly, henvs⟩ := hbehaves idle _ (by rw [next]; rfl)
    exact h.put rfl rfl rfl rfl (relies_first horderly hpermits henvs first)
  | register idle next plain =>
    exact h.register rfl rfl rfl rfl fun hvacant hin => ⟨hvacant, hin⟩
  | atOnce idle next simple free =>
    obtain ⟨hpermits, horderly, henvs⟩ := hbehaves idle _ (by rw [next]; rfl)
    have hidle : c.stage = Function.update c.stage t .idle :=
      (Function.update_eq_self_iff.2 idle.symm).symm
    exact h.perform (.inr simple) horderly hpermits henvs rfl rfl rfl hidle trivial
  | sleep awake barred =>
    exact h.put rfl rfl rfl (Function.update_eq_self t c.stage).symm hown
  | enter entering awake admitted =>
    rw [entering] at hown
    exact h.put rfl rfl rfl rfl hown
  | @operate action fits inside =>
    rw [inside] at hown
    exact h.perform (.inl fits) (Action.orderly_of_operates fits) hown.1 hown.2 rfl rfl rfl rfl
      trivial
  | @check env inside =>
    rw [inside] at hown
    unfold Crew.check
    split
    · rename_i hactive
      exact h.put rfl rfl rfl rfl ⟨hown.1, hown.2, Machine.checkActive_eq_ok.1 hactive⟩
    · exact h.put rfl rfl rfl rfl trivial
  | enterRun inside =>
    rw [inside] at hown
    exact h.enterRun hown.1 hown.2 rfl rfl rfl rfl trivial
  | leaveRun inside =>
    rw [inside] at hown
    exact h.leaveRun hown.1 hown.2 rfl rfl rfl rfl id
  | @leave following leaving =>
    rw [leaving] at hown
    refine h.put rfl rfl rfl rfl ?_
    cases following with
    | nothing => trivial
    | allocate env => exact hown
    | unregister entry => exact hown
  | unregister unregistering =>
    rw [unregistering] at hown
    exact h.unregister hown rfl rfl rfl rfl trivial
  | lock locking free =>
    rw [locking] at hown
    exact h.put rfl rfl rfl rfl hown
  | work working nextStep =>
    rw [working] at hown
    exact h.put rfl rfl rfl rfl hown
  | callStop working nextStep =>
    rw [working] at hown
    exact h.put rfl rfl rfl rfl hown
  | scan working nextStep =>
    rw [working] at hown
    exact h.put rfl rfl rfl rfl hown
  | resume working nextStep =>
    rw [working] at hown
    exact h.put rfl rfl rfl rfl hown
  | deliver working nextStep =>
    rw [working] at hown
    exact h.put rfl rfl rfl rfl hown
  | deny working nextStep => exact h.put rfl rfl rfl rfl trivial
  | finish working nextStep => exact h.put rfl rfl rfl rfl trivial
  | @close cause stopping awake admitted still =>
    rw [stopping] at hown
    cases cause with
    | program => exact h.put rfl rfl rfl rfl trivial
    | allocator task next => exact h.put rfl rfl rfl rfl hown
  | @claim cause stopping awake unheld loud =>
    rw [stopping] at hown
    refine h.put rfl rfl rfl rfl ?_
    cases cause with
    | program => trivial
    | allocator task next => exact hown
  | @drained cause draining awake still =>
    rw [draining] at hown
    cases cause with
    | program => exact h.put rfl rfl rfl rfl trivial
    | allocator task next => exact h.put rfl rfl rfl rfl hown
  | @receive env o receiving =>
    rw [receiving] at hown
    exact h.receive hown (congrArg (Function.update · t _) stage_receive) calls_receive
      ledger_receive owner_receive trivial
  | unlock unlocking => exact h.put rfl rfl rfl rfl trivial

end StackOwnership

/-- On a machine without frames every crew of threads that behave keeps who owns what. -/
theorem Ran.stackOwnership {rule : Crew A → Thread → Prop} {start : Machine A}
    {todo : Thread → List Action} (hcalls : start.calls = .empty)
    (hrule : ∀ c t, rule c t → c.behaves t) (hran : Ran rule (.opening start todo) c) :
    c.StackOwnership := by
  induction hran with
  | start =>
    have hempty : (opening start todo).calls = .empty := hcalls
    refine ⟨?_, rfl, fun _ hentry => (nomatch hentry), fun _ => trivial⟩
    rw [hempty]
    exact Ledger.tallies_empty
  | step _ kept hstep ih => exact ih.step (hrule _ _ kept) hstep

end Crew

end RootedHeap
