import RootedHeap.Proofs.StackReach

/-!
What the past leaves behind does not show. `CallStacks.retirePast` empties the stacks, and retires
the frames, that came before given ones. `Machine.RetiresPast` relates a machine to one with the
same tables but for that, whatever the allocators of the two, what is in their logs and how often
their gates were passed. An action that names nothing of the past is answered by both machines
alike, and leaves them so related.
-/

namespace RootedHeap

theorem mapIdx_modify {α : Type} (xs : Array α) {i : Nat} {φ : Nat → α → α} {edit : α → α}
    (hcommute : ∀ x, φ i (edit x) = edit (φ i x)) :
    (xs.modify i edit).mapIdx φ = (xs.mapIdx φ).modify i edit := by
  refine Array.ext_getElem? fun j => ?_
  rw [Array.getElem?_mapIdx, Array.getElem?_modify, Array.getElem?_modify, Array.getElem?_mapIdx]
  by_cases hij : i = j
  · subst hij
    rw [if_pos rfl, if_pos rfl, Option.map_map, Option.map_map]
    congr 1
    exact funext hcommute
  · rw [if_neg hij, if_neg hij]

namespace CallStacks

variable {t : CallStacks} {k s : StackRef} {f g : FrameRef} {edit : Frame → Frame}

/-- The tables in which the stacks before one are empty and the frames before one have retired. -/
def retirePast (t : CallStacks) (k : StackRef) (f : FrameRef) : CallStacks where
  frames := t.frames.mapIdx fun g frame => if g < f then frame.retire else frame
  known := t.known.mapIdx fun s stack => if s < k then { stack with frames := [] } else stack
  registered := t.registered
  nextId := t.nextId

/-! ### What is found where the past is retired -/

theorem frame_retirePast :
    (t.retirePast k f).frame g = if g < f then (t.frame g).retire else t.frame g := by
  rw [frame, retirePast, Array.getElem?_mapIdx, frame]
  cases t.frames[g]? with
  | none =>
    show (Frame.fresh 0).retire = _
    split <;> rfl
  | some frame => rfl

theorem stack_retirePast :
    (t.retirePast k f).stack s = if s < k then { t.stack s with frames := [] } else t.stack s := by
  rw [stack, retirePast, Array.getElem?_mapIdx, stack]
  cases t.known[s]? with
  | none =>
    show (⟨0, []⟩ : Stack) = _
    split <;> rfl
  | some stack => rfl

@[simp] theorem size_retirePast : (t.retirePast k f).frames.size = t.frames.size :=
  Array.size_mapIdx

@[simp] theorem known_size_retirePast : (t.retirePast k f).known.size = t.known.size :=
  Array.size_mapIdx

@[simp] theorem registered_retirePast : (t.retirePast k f).registered = t.registered := rfl

theorem frame_retirePast_of_le (hg : f ≤ g) : (t.retirePast k f).frame g = t.frame g := by
  rw [frame_retirePast, if_neg (Nat.not_lt.2 hg)]

theorem stack_retirePast_of_le (hs : k ≤ s) : (t.retirePast k f).stack s = t.stack s := by
  rw [stack_retirePast, if_neg (Nat.not_lt.2 hs)]

theorem depth_retirePast (hs : k ≤ s) : (t.retirePast k f).depth s = t.depth s := by
  rw [depth, stack_retirePast_of_le hs, depth]

theorem id_retirePast : ((t.retirePast k f).stack s).id = (t.stack s).id := by
  rw [stack_retirePast]
  split <;> rfl

theorem retirePast_zero : t.retirePast 0 0 = t := by
  have hframes : (t.retirePast 0 0).frames = t.frames := by
    refine Array.ext_getElem? fun g => ?_
    rw [retirePast, Array.getElem?_mapIdx]
    cases t.frames[g]? <;> rfl
  have hknown : (t.retirePast 0 0).known = t.known := by
    refine Array.ext_getElem? fun s => ?_
    rw [retirePast, Array.getElem?_mapIdx]
    cases t.known[s]? <;> rfl
  show CallStacks.mk (t.retirePast 0 0).frames (t.retirePast 0 0).known t.registered t.nextId = t
  rw [hframes, hknown]

/-! ### What changes where the past is retired -/

theorem retirePast_change (hg : f ≤ g) :
    (t.change g edit).retirePast k f = (t.retirePast k f).change g edit := by
  have hcommute : ∀ frame : Frame, (if g < f then (edit frame).retire else edit frame) =
      edit (if g < f then frame.retire else frame) := fun frame => by
    rw [if_neg (Nat.not_lt.2 hg), if_neg (Nat.not_lt.2 hg)]
  rw [retirePast, change, mapIdx_modify t.frames hcommute]
  rfl

/-- A frame that retires has retired already, if it is of the past. -/
theorem retirePast_retire :
    (t.change g Frame.retire).retirePast k f = (t.retirePast k f).change g Frame.retire := by
  have hcommute : ∀ frame : Frame, (if g < f then frame.retire.retire else frame.retire) =
      (if g < f then frame.retire else frame).retire := fun frame => by
    split <;> rfl
  rw [retirePast, change, mapIdx_modify t.frames hcommute]
  rfl

theorem retirePast_retireAll {gs : List FrameRef} :
    (t.retireAll gs).retirePast k f = (t.retirePast k f).retireAll gs := by
  induction gs generalizing t with
  | nil => rfl
  | cons g gs ih => rw [retireAll, retireAll, ih, retirePast_retire]

/-- The frames of a stack of which none is of the past are written anew. -/
theorem retirePast_known {edit : Stack → Stack} (hs : k ≤ s) :
    retirePast { t with known := t.known.modify s edit } k f =
      { t.retirePast k f with known := (t.retirePast k f).known.modify s edit } := by
  have hcommute : ∀ stack : Stack,
      (if s < k then { edit stack with frames := [] } else edit stack) =
        edit (if s < k then { stack with frames := [] } else stack) := fun stack => by
    rw [if_neg (Nat.not_lt.2 hs), if_neg (Nat.not_lt.2 hs)]
  rw [retirePast, mapIdx_modify t.known hcommute]
  rfl

theorem retirePast_pop (hs : k ≤ s) : (t.pop s g).retirePast k f = (t.retirePast k f).pop s g := by
  rw [pop, retirePast_retireAll, retirePast_known hs, pop, stack_retirePast_of_le hs]

theorem retirePast_addFrame {frame : Frame} (hf : f ≤ t.frames.size) :
    (t.addFrame frame).2.retirePast k f = ((t.retirePast k f).addFrame frame).2 := by
  rw [addFrame, retirePast, Array.mapIdx_push, if_neg (Nat.not_lt.2 hf)]
  rfl

theorem retirePast_addStack {id : Nat} (hk : k ≤ t.known.size) :
    (t.addStack id).2.retirePast k f = ((t.retirePast k f).addStack id).2 := by
  rw [addStack, retirePast, Array.mapIdx_push, if_neg (Nat.not_lt.2 hk)]
  rfl

theorem retirePast_push (hs : k ≤ s) (hf : f ≤ t.frames.size) :
    (t.push s).2.retirePast k f = ((t.retirePast k f).push s).2 := by
  have hpush : ∀ u : CallStacks, (u.push s).2 =
      { (u.addFrame (Frame.fresh (u.depth s))).2 with
        known := (u.addFrame (Frame.fresh (u.depth s))).2.known.modify s fun stack =>
          { stack with frames := stack.frames ++ [u.frames.size] } } := fun _ => rfl
  rw [hpush, hpush, retirePast_known hs, retirePast_addFrame hf, depth_retirePast hs,
    size_retirePast]

theorem retirePast_register (hk : k ≤ t.known.size) :
    t.register.2.retirePast k f = (t.retirePast k f).register.2 := by
  have hregister : ∀ u : CallStacks, u.register.2 =
      { (u.addStack u.nextId).2 with
        registered := u.registered ++ [u.known.size], nextId := u.nextId + 1 } := fun _ => rfl
  have hold : t.register.2.retirePast k f =
      { (t.addStack t.nextId).2.retirePast k f with
        registered := t.registered ++ [t.known.size], nextId := t.nextId + 1 } := rfl
  rw [hold, hregister, retirePast_addStack hk, known_size_retirePast]
  rfl

theorem retirePast_opened {objects : List Handle} (hs : k ≤ s) (hf : f ≤ t.frames.size) :
    (t.opened s objects).retirePast k f = (t.retirePast k f).opened s objects := by
  rw [opened, retirePast_change hf, retirePast_push hs hf, opened, size_retirePast]

theorem retirePast_settled {caller callee : FrameRef} {result : Answer Word} (hcaller : f ≤ caller)
    (hcallee : f ≤ callee) :
    (t.settled caller callee result).retirePast k f =
    (t.retirePast k f).settled caller callee result := by
  rcases result with fault | word
  · rfl
  · cases hword : word.target? with
    | none => rw [settled_data hword, settled_data hword, retirePast_change hcallee]
    | some h =>
      rw [settled_object hword, settled_object hword, retirePast_change hcallee,
        retirePast_change hcaller]

theorem retirePast_unregister {id : Nat} :
    (t.unregister id).retirePast k f = (t.retirePast k f).unregister id := by
  have hids : (t.registered.filter fun s => ((t.retirePast k f).stack s).id ≠ id) =
      t.registered.filter fun s => (t.stack s).id ≠ id :=
    List.filter_congr fun s _ => by rw [id_retirePast]
  have hold : (t.unregister id).retirePast k f =
      { t.retirePast k f with registered := t.registered.filter fun s => (t.stack s).id ≠ id } :=
      rfl
  rw [hold, ← hids]
  rfl

/-! ### The roots where the past is retired -/

/-- Whether the registered stacks and their frames are not of the past. -/
def Recent (t : CallStacks) (k : StackRef) (f : FrameRef) : Prop :=
  ∀ s ∈ t.registered, k ≤ s ∧ ∀ g ∈ (t.stack s).frames, f ≤ g

theorem Recent.roots_retirePast (h : t.Recent k f) : (t.retirePast k f).roots = t.roots := by
  refine List.flatMap_congr fun s hs => ?_
  obtain ⟨hstack, hframes⟩ := h s hs
  rw [stackRoots, stack_retirePast_of_le hstack]
  exact List.flatMap_congr fun g hg => by rw [frame_retirePast_of_le (hframes g hg)]

end CallStacks

/-- Whether an environment is on a stack that came no earlier than one, and so is its frame. -/
structure Env.Since (k : StackRef) (f : FrameRef) (env : Env) : Prop where
  stack : k ≤ env.stack
  frame : f ≤ env.frame

/-- Whether all environments that an action works with came later than the past. -/
def Action.Since (k : StackRef) (f : FrameRef) : Action → Prop
  | .newObject env | .getReference env _ _ | .getData env _ _ | .setReference env _ _ _
  | .setData env _ _ _ | .release env _ | .beginCall env _ _ | .abandonCall env | .endRun env _
  | .frame env | .envLayout env => env.Since k f
  | .endCall caller callee _ => caller.Since k f ∧ callee.Since k f
  | _ => True

/-! ### Machines with their past retired -/

namespace Machine

variable {A B α : Type} {k : StackRef} {f : FrameRef}

/-- Machines with the same cells and settings, whose gates nobody holds, and of which one has the
tables of the other with the past retired. -/
structure RetiresPast (k : StackRef) (f : FrameRef) (m : Machine A) (m' : Machine B) : Prop where
  heap : m'.heap = m.heap
  calls : m'.calls = m.calls.retirePast k f
  config : m'.config = m.config
  unheld : m.gate.holder = none
  unheld' : m'.gate.holder = none

/-- What two operations come to when they answer alike and leave machines that differ in the past.
-/
structure Accords (k : StackRef) (f : FrameRef) (r : α × Machine A) (r' : α × Machine B) :
    Prop where
  answer : r'.1 = r.1
  machine : r.2.RetiresPast k f r'.2

namespace RetiresPast

variable {m : Machine A} {m' : Machine B} {t : Thread} {env callee : Env} {object target : Handle}
  {slot : Nat} {word : Word} {args : List Word} {outcome : Answer Word} {name text : String}

theorem withCalls {calls calls' : CallStacks} (h : m.RetiresPast k f m')
    (hcalls : calls.retirePast k f = calls') :
    RetiresPast k f { m with calls } { m' with calls := calls' } :=
  ⟨h.heap, hcalls.symm, h.config, h.unheld, h.unheld'⟩

theorem known_size (h : m.RetiresPast k f m') : m'.calls.known.size = m.calls.known.size := by
  rw [h.calls, CallStacks.known_size_retirePast]

theorem frames_size (h : m.RetiresPast k f m') : m'.calls.frames.size = m.calls.frames.size := by
  rw [h.calls, CallStacks.size_retirePast]

theorem note (h : m.RetiresPast k f m') {text' : String} {level level' : Level} :
    RetiresPast k f (m.note t level text) (m'.note t level' text') :=
  ⟨h.heap, h.calls, h.config, h.unheld, h.unheld'⟩

theorem traced (h : m.RetiresPast k f m') {text' : String} :
    RetiresPast k f (m.traced t text) (m'.traced t text') := by
  refine ⟨?_, ?_, ?_, ?_, ?_⟩
  · rw [heap_traced, heap_traced, h.heap]
  · rw [calls_traced, calls_traced, h.calls]
  · rw [config_traced, config_traced, h.config]
  · rw [gate_traced, h.unheld]
  · rw [gate_traced, h.unheld']

theorem putWord (h : m.RetiresPast k f m') : (m.putWord object slot word).RetiresPast k f
    (m'.putWord object slot word) :=
  ⟨congrArg (·.putWord object slot word) h.heap, h.calls, h.config, h.unheld, h.unheld'⟩

theorem changeFrame (h : m.RetiresPast k f m') (henv : env.Since k f) {edit : Frame → Frame} :
    (m.changeFrame env edit).RetiresPast k f (m'.changeFrame env edit) := by
  refine h.withCalls ?_
  rw [CallStacks.retirePast_change henv.frame, h.calls]

theorem frame (h : m.RetiresPast k f m') (henv : env.Since k f) : m'.frame env = m.frame env := by
  rw [Machine.frame, h.calls, CallStacks.frame_retirePast_of_le henv.frame]
  rfl

theorem checkActive (h : m.RetiresPast k f m') (henv : env.Since k f) :
    m'.checkActive env = m.checkActive env := by
  rw [Machine.checkActive, Machine.checkActive, h.frame henv]

theorem checkHeld (h : m.RetiresPast k f m') (henv : env.Since k f) :
    m'.checkHeld env object = m.checkHeld env object := by
  rw [Machine.checkHeld, Machine.checkHeld, h.frame henv]

/-- Operations with the same check answer alike, if what they do keeps the past all that differs. -/
theorem decided {γ : Type} (h : m.RetiresPast k f m') {check check' : Answer γ}
    {answer answer' : γ → α}
    {effect : γ → Machine A} {effect' : γ → Machine B} (hcheck : check' = check)
    (hanswer : answer' = answer) (heffect : ∀ c, (effect c).RetiresPast k f (effect' c)) :
    Accords k f (m.decided check answer effect) (m'.decided check' answer' effect') := by
  subst hcheck hanswer
  cases check' with
  | error fault => exact ⟨rfl, h⟩
  | ok c => exact ⟨rfl, heffect c⟩

theorem getReference (h : m.RetiresPast k f m') (henv : env.Since k f) :
    Accords k f (m.getReference t env object slot) (m'.getReference t env object slot) := by
  rw [getReference_eq, getReference_eq]
  refine h.decided ?_ rfl fun o => ?_
  · simp only [referenceAt, h.checkActive henv, h.checkHeld henv, h.heap]
  · split
    · exact h
    · exact h.changeFrame henv

theorem getData (h : m.RetiresPast k f m') (henv : env.Since k f) :
    Accords k f (m.getData t env object slot) (m'.getData t env object slot) := by
  rw [getData_eq, getData_eq]
  refine h.decided ?_ rfl fun _ => h
  simp only [dataAt, h.checkActive henv, h.checkHeld henv, h.heap]

theorem setReference (h : m.RetiresPast k f m') (henv : env.Since k f) :
    Accords k f (m.setReference t env object slot target)
      (m'.setReference t env object slot target) := by
  rw [setReference_eq, setReference_eq]
  refine h.decided ?_ rfl fun _ => h.putWord
  simp only [storableReference, checkTarget, h.checkActive henv, h.checkHeld henv, h.heap]

theorem setData (h : m.RetiresPast k f m') (henv : env.Since k f) :
    Accords k f (m.setData t env object slot word) (m'.setData t env object slot word) := by
  rw [setData_eq, setData_eq]
  refine h.decided ?_ rfl fun _ => h.putWord
  simp only [storableData, h.checkActive henv, h.checkHeld henv, h.heap]

theorem release (h : m.RetiresPast k f m') (henv : env.Since k f) :
    Accords k f (m.release t env object) (m'.release t env object) := by
  rw [release_eq, release_eq]
  refine h.decided ?_ rfl fun _ => h.changeFrame henv
  simp only [releasable, h.checkActive henv, h.checkHeld henv]

theorem beginCall (h : m.RetiresPast k f m') (henv : env.Since k f) (hf : f ≤ m.calls.frames.size) :
    Accords k f (m.beginCall t env name args) (m'.beginCall t env name args) := by
  obtain ⟨text, heq⟩ := beginCall_eq m t env name args
  obtain ⟨text', heq'⟩ := beginCall_eq m' t env name args
  rw [heq, heq']
  refine h.decided ?_ ?_ fun objects => (h.withCalls ?_).traced
  · simp only [callable, handedOver, h.checkActive henv, h.config, h.calls,
      CallStacks.depth_retirePast henv.stack, h.frame henv]
  · rw [h.frames_size]
  · rw [CallStacks.retirePast_opened henv.stack hf, h.calls]

theorem checkResult (h : m.RetiresPast k f m') (henv : env.Since k f) :
    m'.checkResult env outcome = m.checkResult env outcome := by
  simp only [Machine.checkResult, h.checkHeld henv]

theorem endCall (h : m.RetiresPast k f m') (henv : env.Since k f) (hcallee : callee.Since k f) :
    Accords k f (m.endCall t env callee outcome) (m'.endCall t env callee outcome) := by
  obtain ⟨text, heq⟩ := endCall_eq m t env callee outcome
  obtain ⟨text', heq'⟩ := endCall_eq m' t env callee outcome
  rw [heq, heq', h.checkResult hcallee]
  refine ⟨rfl, (h.withCalls ?_).traced⟩
  rw [CallStacks.retirePast_pop hcallee.stack,
    CallStacks.retirePast_settled henv.frame hcallee.frame,
    h.calls]

theorem beginRun (h : m.RetiresPast k f m') (hk : k ≤ m.calls.known.size)
    (hf : f ≤ m.calls.frames.size) :
    Accords k f (m.beginRun t name args) (m'.beginRun t name args) := by
  cases hargs : args.findSome? Word.target? with
  | some o =>
    rw [beginRun_refused hargs, beginRun_refused hargs]
    exact ⟨rfl, h⟩
  | none =>
    obtain ⟨text, heq⟩ := beginRun_eq m t name hargs
    obtain ⟨text', heq'⟩ := beginRun_eq m' t name hargs
    rw [heq, heq']
    refine ⟨?_, (h.withCalls ?_).note⟩
    · rw [h.known_size, h.frames_size]
    · rw [CallStacks.retirePast_opened (t := m.calls.register.2) hk hf,
        CallStacks.retirePast_register hk,
        h.calls, CallStacks.known_size_retirePast]

theorem endRun (h : m.RetiresPast k f m') (henv : env.Since k f) :
    Accords k f (m.endRun t env outcome) (m'.endRun t env outcome) := by
  obtain ⟨text, heq⟩ := endRun_eq m t env outcome
  obtain ⟨text', heq'⟩ := endRun_eq m' t env outcome
  rw [heq, heq', h.checkResult henv]
  refine ⟨rfl, (h.withCalls ?_).note⟩
  rw [CallStacks.retirePast_unregister, CallStacks.retirePast_pop henv.stack, h.calls,
    CallStacks.id_retirePast]

theorem abandonCall (h : m.RetiresPast k f m') (henv : env.Since k f) :
    (m.abandonCall env).RetiresPast k f (m'.abandonCall env) := by
  refine h.withCalls ?_
  rw [CallStacks.retirePast_pop henv.stack, h.calls]

theorem abandonRun (h : m.RetiresPast k f m') :
    (m.abandonRun env).RetiresPast k f (m'.abandonRun env) := by
  refine h.withCalls ?_
  rw [CallStacks.retirePast_unregister, h.calls, CallStacks.id_retirePast]

end RetiresPast

end Machine

/-! ### Actions that do not ask the allocator -/

/-- Whether an action is one on cells, frames, calls and runs, or a collection: it leaves the gate
to the strategies, and does not ask them what they have done so far. -/
def Action.common : Action → Bool
  | .stop | .resume | .stats | .pauses => false
  | _ => true

/-- Nothing came before everything. -/
theorem Action.since_zero (action : Action) : action.Since 0 0 := by
  have henv : ∀ env : Env, env.Since 0 0 := fun _ => ⟨Nat.zero_le _, Nat.zero_le _⟩
  cases action with
  | endCall caller callee outcome => exact ⟨henv caller, henv callee⟩
  | newObject env => exact henv env
  | getReference env object slot => exact henv env
  | getData env object slot => exact henv env
  | setReference env object slot target => exact henv env
  | setData env object slot word => exact henv env
  | release env object => exact henv env
  | beginCall env name args => exact henv env
  | abandonCall env => exact henv env
  | endRun env outcome => exact henv env
  | frame env => exact henv env
  | envLayout env => exact henv env
  | _ => exact trivial

namespace World

variable {A B : Type} [Allocator A] [Allocator B] {w : World A} {w' : World B} {k : StackRef}
  {f : FrameRef}

/-- An action that does not ask the allocator, and names nothing of the past, is answered alike by a
machine and the one with its past retired, and leaves them so. -/
theorem perform_since (h : w.machine.RetiresPast k f w'.machine) (hkept : w'.kept = w.kept)
    (hk : k ≤ w.machine.calls.known.size) (hf : f ≤ w.machine.calls.frames.size) (t : Thread)
    {action : Action} (hquiet : action.allocates = false) (hcommon : action.common = true)
    (hsince : action.Since k f) :
    (w'.perform t action).1 = (w.perform t action).1 ∧
      (w.perform t action).2.machine.RetiresPast k f (w'.perform t action).2.machine ∧
      (w'.perform t action).2.kept = (w.perform t action).2.kept := by
  cases action with
  | newObject env => cases hquiet
  | collect => cases hquiet
  | stop => cases hcommon
  | resume => cases hcommon
  | stats => cases hcommon
  | pauses => cases hcommon
  | getReference env object slot =>
    exact ⟨(h.getReference hsince).answer, (h.getReference hsince).machine, hkept⟩
  | getData env object slot => exact ⟨(h.getData hsince).answer, (h.getData hsince).machine, hkept⟩
  | setReference env object slot target =>
    exact ⟨(h.setReference hsince).answer, (h.setReference hsince).machine, hkept⟩
  | setData env object slot word =>
    exact ⟨(h.setData hsince).answer, (h.setData hsince).machine, hkept⟩
  | release env object => exact ⟨(h.release hsince).answer, (h.release hsince).machine, hkept⟩
  | beginCall caller name args =>
    exact ⟨(h.beginCall hsince hf).answer, (h.beginCall hsince hf).machine, hkept⟩
  | endCall caller callee outcome =>
    have hend : Machine.Accords k f (w.machine.endCall t caller callee outcome)
      (w'.machine.endCall t caller callee outcome) := h.endCall hsince.1 hsince.2
    exact ⟨hend.answer, hend.machine, hkept⟩
  | abandonCall callee => exact ⟨rfl, h.abandonCall hsince, hkept⟩
  | beginRun name args => exact ⟨(h.beginRun hk hf).answer, (h.beginRun hk hf).machine, hkept⟩
  | endRun entry outcome => exact ⟨(h.endRun hsince).answer, (h.endRun hsince).machine, hkept⟩
  | abandonRun entry => exact ⟨rfl, h.abandonRun, hkept⟩
  | roots =>
    refine ⟨?_, h, hkept⟩
    show w'.machine.toArena.enumerate t _ = w.machine.toArena.enumerate t _
    simp only [Arena.enumerate, Gate.heldBy, h.unheld, h.unheld', reduceCtorEq, decide_false,
      Bool.false_eq_true, ↓reduceIte]
  | frame env => exact ⟨h.frame hsince, h, hkept⟩
  | envLayout env =>
    refine ⟨?_, h, hkept⟩
    show w'.machine.envLayout env = w.machine.envLayout env
    simp only [Machine.envLayout, h.frame hsince, h.calls, CallStacks.id_retirePast]
  | threadCount =>
    refine ⟨?_, h, hkept⟩
    show w'.machine.calls.registered.length = w.machine.calls.registered.length
    rw [h.calls, CallStacks.registered_retirePast]
  | width => exact ⟨congrArg Heap.width h.heap, h, hkept⟩
  | handles => exact ⟨congrArg Heap.handles h.heap, h, hkept⟩
  | cell o command =>
    simp only [perform, onMachine, h.heap]
    cases w.machine.heap.perform o command with
    | error fault => exact ⟨rfl, h, hkept⟩
    | ok answered => exact ⟨rfl, ⟨rfl, h.calls, h.config, h.unheld, h.unheld'⟩, hkept⟩
  | note level text => exact ⟨rfl, h.note, hkept⟩
  | keep name env => exact ⟨rfl, h, congrArg (·.set name env) hkept⟩
  | kept name => exact ⟨congrArg (List.lookup name) hkept, h, hkept⟩
  | report event => exact ⟨rfl, h, hkept⟩
  | turn => exact ⟨rfl, h, hkept⟩

end World

end RootedHeap
