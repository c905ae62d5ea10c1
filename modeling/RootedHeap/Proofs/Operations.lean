import RootedHeap.Machine.Calls
import RootedHeap.Machine.Objects
import RootedHeap.Proofs.Collectors
import RootedHeap.Proofs.Tables

/-!
Each frame operation as a check and an effect. A check looks at the frame and the heap and answers
with a fault or with what the operation is to do; a refused operation leaves the machine as it is.
The equations here are all that later proofs know of the operations: the scope around an operation
opens and closes the gate's book again and is gone.
-/

namespace RootedHeap.CallStacks

variable {t : CallStacks} {s k : StackRef} {g : FrameRef} {objects : List Handle} {h : Handle}

/-- The tables with one more active frame on a stack, which holds the given objects. -/
def opened (t : CallStacks) (s : StackRef) (objects : List Handle) : CallStacks :=
  (t.push s).2.change t.frames.size fun frame => (objects.foldl Frame.insert frame).enter .active

/-- The tables after the result of a call is known: the caller holds an object that is returned, and
the callee is about to leave. -/
def settled (t : CallStacks) (caller callee : FrameRef) : Answer Word → CallStacks
  | .error _ => t
  | .ok word =>
    let handed := match Word.target? word with
      | some h => t.change caller (·.insert h)
      | none => t
    handed.change callee (·.enter .returning)

theorem frame_opened :
    (t.opened s objects).frame g =
      if g = t.frames.size then
        (objects.foldl Frame.insert (Frame.fresh (t.depth s))).enter .active
      else t.frame g := by
  rw [opened, frame_change (by rw [size_push]; exact Nat.lt_succ_self _), frame_push]
  by_cases hg : g = t.frames.size
  · simp only [hg, ↓reduceIte]
  · simp only [hg, Ne.symm hg, ↓reduceIte]

theorem stack_opened :
    (t.opened s objects).stack k =
      if s = k ∧ s < t.known.size then
        { t.stack k with frames := (t.stack k).frames ++ [t.frames.size] }
      else t.stack k := by
  rw [opened, stack_change, stack_push]

@[simp] theorem size_opened : (t.opened s objects).frames.size = t.frames.size + 1 := by
  rw [opened, size_change, size_push]

@[simp] theorem known_size_opened : (t.opened s objects).known.size = t.known.size := by
  rw [opened, known_change, known_size_push]

@[simp] theorem registered_opened : (t.opened s objects).registered = t.registered := rfl

@[simp] theorem nextId_opened : (t.opened s objects).nextId = t.nextId := rfl

/-! ### A call is about to end -/

variable {caller callee : FrameRef} {word : Word} {fault : Fault} {result : Answer Word}

theorem settled_data (hword : word.target? = none) :
    t.settled caller callee (.ok word) = t.change callee (·.enter .returning) := by
  simp only [settled, hword]

theorem settled_object (hword : word.target? = some h) :
    t.settled caller callee (.ok word) =
      (t.change caller (·.insert h)).change callee (·.enter .returning) := by
  simp only [settled, hword]

@[simp] theorem known_settled : (t.settled caller callee result).known = t.known := by
  rcases result with fault | word
  · rfl
  · cases hword : word.target? with
    | none => rw [settled_data hword, known_change]
    | some h => rw [settled_object hword, known_change, known_change]

@[simp] theorem stack_settled : (t.settled caller callee result).stack k = t.stack k := by
  rw [stack, known_settled]
  rfl

@[simp] theorem registered_settled :
    (t.settled caller callee result).registered = t.registered := by
  rcases result with fault | word
  · rfl
  · cases hword : word.target? with
    | none => rw [settled_data hword, registered_change]
    | some h => rw [settled_object hword, registered_change, registered_change]

@[simp] theorem nextId_settled : (t.settled caller callee result).nextId = t.nextId := by
  rcases result with fault | word
  · rfl
  · cases hword : word.target? with
    | none => rw [settled_data hword, nextId_change]
    | some h => rw [settled_object hword, nextId_change, nextId_change]

@[simp] theorem size_settled :
    (t.settled caller callee result).frames.size = t.frames.size := by
  rcases result with fault | word
  · rfl
  · cases hword : word.target? with
    | none => rw [settled_data hword, size_change]
    | some h => rw [settled_object hword, size_change, size_change]

/-- What is found of a frame when a call is about to end. -/
theorem frame_settled (hcaller : caller < t.frames.size) (hcallee : callee < t.frames.size)
    (hne : caller ≠ callee) :
    (t.settled caller callee (.ok word)).frame g =
      if g = callee then (t.frame g).enter .returning
      else if g = caller then
        match word.target? with
        | some h => (t.frame g).insert h
        | none => t.frame g
      else t.frame g := by
  cases hword : word.target? with
  | none =>
    rw [settled_data hword, frame_change hcallee]
    simp only [eq_comm, ite_self]
  | some h =>
    rw [settled_object hword, frame_change (by rw [size_change]; exact hcallee),
      frame_change hcaller]
    simp only [@eq_comm _ g]
    by_cases hg : callee = g
    · subst hg
      simp only [↓reduceIte, hne]
    · simp only [hg, ↓reduceIte]

end RootedHeap.CallStacks

/-- A check in two parts passes if both do. -/
theorem RootedHeap.Answer.bind_eq_ok {α β : Type} {x : Answer α} {f : α → Answer β} {b : β} :
    x >>= f = .ok b ↔ ∃ a, x = .ok a ∧ f a = .ok b := by
  cases x with
  | error fault =>
    exact ⟨(nomatch ·), fun ⟨_, ha, _⟩ => nomatch ha⟩
  | ok a => exact ⟨fun hb => ⟨a, rfl, hb⟩, fun ⟨_, ha, hb⟩ => Except.ok.inj ha ▸ hb⟩

namespace RootedHeap.Machine

variable {A : Type} {α : Type} {m : Machine A} {t : Thread} {env : Env}

/-! ### Checks -/

/-- The handle that a frame finds in a reference slot. -/
def referenceAt (m : Machine A) (env : Env) (object : Handle) (slot : Nat) : Answer Handle := do
  m.checkActive env
  m.checkHeld env object
  let word ← m.heap.read object slot
  match Word.target? word with
  | some target => do
    let _ ← m.heap.cell target
    return target
  | none =>
    if word < 0 then .error (.illegalReference (.otherKind object slot word))
    else return Handle.null

/-- The data that a frame finds in a slot. -/
def dataAt (m : Machine A) (env : Env) (object : Handle) (slot : Nat) : Answer Word := do
  m.checkActive env
  m.checkHeld env object
  let word ← m.heap.read object slot
  if word < 0 then return word
  else .error (.illegalReference (.otherKind object slot word))

/-- Refuses a handle that a frame may not store: it is neither null nor held. -/
def checkTarget (m : Machine A) (env : Env) (target : Handle) : Answer Unit :=
  if target = Handle.null then .ok () else m.checkHeld env target

/-- The word that a frame may store for a handle. -/
def storableReference (m : Machine A) (env : Env) (object : Handle) (slot : Nat)
    (target : Handle) : Answer Word := do
  m.checkActive env
  m.checkHeld env object
  m.checkTarget env target
  m.heap.referenceWord object slot target

/-- The word that a frame may store as data. -/
def storableData (m : Machine A) (env : Env) (object : Handle) (slot : Nat) (word : Word) :
    Answer Word := do
  m.checkActive env
  m.checkHeld env object
  if word < 0 then do
    m.heap.checkSlot object slot
    return word
  else .error (.illegalReference (.notData word))

/-- The object that a frame may let go of. -/
def releasable (m : Machine A) (env : Env) (object : Handle) : Answer Unit := do
  m.checkActive env
  m.checkHeld env object

/-- The objects that a call may hand over. -/
def callable (m : Machine A) (caller : Env) (args : List Word) : Answer (List Handle) := do
  m.checkActive caller
  if m.config.maxCallDepth ≤ m.calls.depth caller.stack then .error .callStackOverflow
  else m.handedOver caller args

section Passed

variable {object target h : Handle} {slot : Nat} {word w : Word} {args : List Word}
  {objects : List Handle}

theorem checkActive_eq_ok {u : Unit} :
    m.checkActive env = .ok u ↔ (m.frame env).state = .active := by
  unfold checkActive
  dsimp only
  split
  · rename_i hactive
    exact ⟨fun _ => hactive, fun _ => rfl⟩
  · rename_i hactive
    exact ⟨(nomatch ·), fun hh => absurd hh hactive⟩

theorem checkHeld_eq : m.checkHeld env object =
    if object ∈ (m.frame env).handles then .ok () else .error (.notHeld object) := by
  simp only [checkHeld, Frame.holds_iff]

theorem checkHeld_eq_ok {u : Unit} :
    m.checkHeld env object = .ok u ↔ object ∈ (m.frame env).handles := by
  rw [checkHeld_eq]
  split
  · rename_i hheld
    exact ⟨fun _ => hheld, fun _ => rfl⟩
  · rename_i hheld
    exact ⟨(nomatch ·), fun hh => absurd hh hheld⟩

theorem releasable_eq_ok {u : Unit} : m.releasable env object = .ok u ↔
    (m.frame env).state = .active ∧ object ∈ (m.frame env).handles := by
  rw [releasable, Answer.bind_eq_ok]
  simp only [checkActive_eq_ok, checkHeld_eq_ok, exists_const]

/-- What a reference that is read comes from. -/
theorem of_referenceAt_eq_ok (hok : m.referenceAt env object slot = .ok h) :
    (m.frame env).state = .active ∧ object ∈ (m.frame env).handles ∧
      (h ≠ Handle.null → h ∈ m.heap.references object) := by
  obtain ⟨_, hactive, hok⟩ := Answer.bind_eq_ok.1 hok
  obtain ⟨_, hheld, hok⟩ := Answer.bind_eq_ok.1 hok
  obtain ⟨word, hread, hok⟩ := Answer.bind_eq_ok.1 hok
  refine ⟨checkActive_eq_ok.1 hactive, checkHeld_eq_ok.1 hheld, fun h0 => ?_⟩
  cases htarget : word.target? with
  | none =>
    rw [htarget] at hok
    dsimp only at hok
    split at hok
    · cases hok
    · exact absurd (Except.ok.inj hok).symm h0
  | some target =>
    rw [htarget] at hok
    obtain ⟨_, -, hok⟩ := Answer.bind_eq_ok.1 hok
    obtain rfl := Except.ok.inj hok
    exact Heap.mem_references_of_read hread htarget

/-- A reference that is stored is null or to an object that the frame holds. -/
theorem of_storableReference_eq_ok (hok : m.storableReference env object slot target = .ok w) :
    (m.frame env).state = .active ∧ object ∈ (m.frame env).handles ∧
      (target ≠ Handle.null → target ∈ (m.frame env).handles) ∧
      target ≤ Handle.greatest ∧ w = Handle.toWord target := by
  obtain ⟨_, hactive, hok⟩ := Answer.bind_eq_ok.1 hok
  obtain ⟨_, hheld, hok⟩ := Answer.bind_eq_ok.1 hok
  obtain ⟨_, htarget, hok⟩ := Answer.bind_eq_ok.1 hok
  refine ⟨checkActive_eq_ok.1 hactive, checkHeld_eq_ok.1 hheld, fun h0 => ?_, ?_⟩
  · rw [checkTarget, if_neg h0] at htarget
    exact checkHeld_eq_ok.1 htarget
  · obtain ⟨cell, -, hok⟩ := Answer.bind_eq_ok.1 hok
    unfold Cell.referenceWord at hok
    cases hstore : target.store? with
    | none => rw [hstore] at hok; cases hok
    | some word =>
      rw [hstore] at hok
      obtain ⟨_, -, hok⟩ := Answer.bind_eq_ok.1 hok
      obtain rfl := Except.ok.inj hok
      exact Handle.store?_eq_some_iff.1 hstore

theorem of_storableData_eq_ok (hok : m.storableData env object slot word = .ok w) :
    (m.frame env).state = .active ∧ object ∈ (m.frame env).handles ∧ word < 0 ∧ w = word := by
  obtain ⟨_, hactive, hok⟩ := Answer.bind_eq_ok.1 hok
  obtain ⟨_, hheld, hok⟩ := Answer.bind_eq_ok.1 hok
  refine ⟨checkActive_eq_ok.1 hactive, checkHeld_eq_ok.1 hheld, ?_⟩
  split at hok
  · rename_i hword
    obtain ⟨_, -, hok⟩ := Answer.bind_eq_ok.1 hok
    exact ⟨hword, (Except.ok.inj hok).symm⟩
  · cases hok

/-- What a call hands over is held by its caller. -/
theorem of_callable_eq_ok (hok : m.callable env args = .ok objects) :
    (m.frame env).state = .active ∧ objects = args.filterMap Word.target? ∧
      ∀ h ∈ objects, h ∈ (m.frame env).handles := by
  obtain ⟨_, hactive, hok⟩ := Answer.bind_eq_ok.1 hok
  refine ⟨checkActive_eq_ok.1 hactive, ?_⟩
  split at hok
  · cases hok
  · unfold handedOver at hok
    dsimp only at hok
    split at hok
    · cases hok
    · rename_i hall
      obtain rfl := Except.ok.inj hok
      refine ⟨rfl, fun h hmem => ?_⟩
      have hheld := List.find?_eq_none.1 hall h hmem
      simpa only [Bool.not_eq_true', Bool.not_eq_false, Frame.holds_iff] using hheld

/-- An object that a call or run returns is held by its frame. -/
theorem held_of_checkResult_eq_ok {outcome : Answer Word}
    (hok : m.checkResult env outcome = .ok word) (htarget : word.target? = some h) :
    h ∈ (m.frame env).handles := by
  obtain ⟨w, -, hok⟩ := Answer.bind_eq_ok.1 hok
  cases hw : w.target? with
  | none =>
    rw [hw] at hok
    obtain rfl := Except.ok.inj hok
    rw [hw] at htarget
    cases htarget
  | some k =>
    rw [hw] at hok
    obtain ⟨_, hheld, hok⟩ := Answer.bind_eq_ok.1 hok
    obtain rfl := Except.ok.inj hok
    obtain rfl := Option.some.inj (hw.symm.trans htarget)
    exact checkHeld_eq_ok.1 hheld

end Passed

/-! ### Checks and effects put together -/

/-- What becomes of a machine when a check decides: refused, it stays; accepted, it answers and
changes. -/
def decided {γ : Type} (m : Machine A) (check : Answer γ) (answer : γ → α)
    (effect : γ → Machine A) : Answer α × Machine A :=
  match check with
  | .error fault => (.error fault, m)
  | .ok c => (.ok (answer c), effect c)

@[simp] theorem decided_error {γ : Type} {fault : Fault} {answer : γ → α} {effect : γ → Machine A} :
    m.decided (.error fault) answer effect = (.error fault, m) := rfl

@[simp] theorem decided_ok {γ : Type} {c : γ} {answer : γ → α} {effect : γ → Machine A} :
    m.decided (.ok c) answer effect = (.ok (answer c), effect c) := rfl

/-- What holds of the machine as it is and after every accepted change holds afterwards. -/
theorem decided_keeps {γ : Type} {P : Machine A → Prop} {check : Answer γ} {answer : γ → α}
    {effect : γ → Machine A} (hm : P m) (heffect : ∀ c, check = .ok c → P (effect c)) :
    P (m.decided check answer effect).2 := by
  cases check with
  | error fault => exact hm
  | ok c => exact heffect c rfl

theorem leave_enter (g : Gate) : (g.enter t).leave t = g := by
  simp only [Gate.enter, Gate.leave, List.erase_cons_head]

/-- An operation in a scope, when neither its check nor what it carries out looks at the gate: the
scope is gone from the gate's book when it is over. -/
theorem act_eq {γ : Type} {plan : Machine A → Answer (Machine A → α × Machine A)}
    (check : Answer γ) (carry : γ → Machine A → α × Machine A)
    (hplan : ∀ g, plan { m with gate := g } = check.map carry)
    (hcarry : ∀ c g, carry c { m with gate := g } =
      ((carry c m).1, { (carry c m).2 with gate := g })) :
    m.act t env plan =
      m.decided (do m.checkActive env; check) (fun c => (carry c m).1) fun c => (carry c m).2 := by
  have hactive : checkActive { m with gate := m.gate.enter t } env = m.checkActive env := rfl
  unfold act inScope
  dsimp only
  rw [hplan, hactive]
  cases m.checkActive env with
  | error fault => simp only [bind, Except.bind, leave_enter, decided_error]
  | ok _ =>
    cases check with
    | error fault => simp only [bind, Except.bind, Except.map, leave_enter, decided_error]
    | ok c =>
      have hkept : { (carry c m).2 with gate := m.gate } = (carry c m).2 :=
        congrArg Prod.snd (hcarry c m.gate).symm
      simp only [bind, Except.bind, Except.map, decided_ok]
      rw [hcarry]
      simp only [leave_enter]
      rw [hkept]

/-! ### Frame operations -/

variable {object target : Handle} {slot : Nat} {word : Word}

theorem getReference_eq :
    m.getReference t env object slot =
      m.decided (m.referenceAt env object slot) id
        fun h => if h = Handle.null then m else m.hold env h := by
  refine act_eq _ (fun h m => (h, if h = Handle.null then m else m.hold env h)) (fun g => ?_)
    (fun c g => ?_)
  · have hheld : checkHeld { m with gate := g } env object = m.checkHeld env object := rfl
    rw [hheld]
    cases m.checkHeld env object with
    | error fault => rfl
    | ok _ =>
      cases m.heap.read object slot with
      | error fault => rfl
      | ok word =>
        simp only [bind, Except.bind]
        cases htarget : word.target? with
        | none => dsimp only; split <;> rfl
        | some target =>
          have h0 : target ≠ Handle.null := Word.target?_ne_zero htarget
          dsimp only
          cases m.heap.cell target with
          | error fault => rfl
          | ok cell => simp only [pure, Except.pure, Except.map, h0, ↓reduceIte]
  · dsimp only
    split <;> rfl

theorem getData_eq :
    m.getData t env object slot = m.decided (m.dataAt env object slot) id fun _ => m := by
  refine act_eq _ (fun word m => (word, m)) (fun g => ?_) (fun c g => rfl)
  have hheld : checkHeld { m with gate := g } env object = m.checkHeld env object := rfl
  rw [hheld]
  cases m.checkHeld env object with
  | error fault => rfl
  | ok _ =>
    cases m.heap.read object slot with
    | error fault => rfl
    | ok word =>
      simp only [bind, Except.bind]
      split <;> rfl

theorem setReference_eq :
    m.setReference t env object slot target =
      m.decided (m.storableReference env object slot target) (fun _ => ())
        fun word => m.putWord object slot word := by
  refine act_eq _ (fun word m => ((), m.putWord object slot word)) (fun g => ?_) (fun c g => rfl)
  have hheld : ∀ h, checkHeld { m with gate := g } env h = m.checkHeld env h := fun _ => rfl
  rw [hheld, hheld]
  cases m.checkHeld env object with
  | error fault => rfl
  | ok _ =>
    unfold checkTarget
    by_cases h0 : target = Handle.null
    · simp only [h0, ↓reduceIte, bind, Except.bind]
      cases m.heap.referenceWord object slot Handle.null <;> rfl
    · simp only [h0, ↓reduceIte, bind, Except.bind]
      cases m.checkHeld env target with
      | error fault => rfl
      | ok _ => dsimp only; cases m.heap.referenceWord object slot target <;> rfl

theorem setData_eq :
    m.setData t env object slot word =
      m.decided (m.storableData env object slot word) (fun _ => ())
        fun word => m.putWord object slot word := by
  refine act_eq _ (fun word m => ((), m.putWord object slot word)) (fun g => ?_) (fun c g => rfl)
  have hheld : checkHeld { m with gate := g } env object = m.checkHeld env object := rfl
  rw [hheld]
  cases m.checkHeld env object with
  | error fault => rfl
  | ok _ =>
    by_cases hword : word < 0
    · simp only [hword, ↓reduceIte, bind, Except.bind]
      cases m.heap.checkSlot object slot <;> rfl
    · simp only [hword, ↓reduceIte, bind, Except.bind]
      rfl

theorem release_eq :
    m.release t env object =
      m.decided (m.releasable env object) id
        fun _ => m.changeFrame env (·.remove object) := by
  refine act_eq _ (fun _ m => ((), m.changeFrame env (·.remove object))) (fun g => ?_)
    (fun c g => rfl)
  have hheld : checkHeld { m with gate := g } env object = m.checkHeld env object := rfl
  rw [hheld]
  cases m.checkHeld env object <;> rfl

/-! ### Calls and runs -/

theorem openFrame_eq {stack : StackRef} {objects : List Handle} :
    m.openFrame stack objects =
      (⟨stack, m.calls.frames.size⟩, { m with calls := m.calls.opened stack objects }) := rfl

/-- What a call does in its scope. -/
theorem act_openFrame {caller : Env} {args : List Word} :
    m.act t caller (fun m =>
      if m.config.maxCallDepth ≤ m.calls.depth caller.stack then .error .callStackOverflow
      else do
        let objects ← m.handedOver caller args
        return (·.openFrame caller.stack objects)) =
      m.decided (m.callable caller args) (fun _ => ⟨caller.stack, m.calls.frames.size⟩)
        fun objects => { m with calls := m.calls.opened caller.stack objects } := by
  refine act_eq _ (fun objects m => m.openFrame caller.stack objects) (fun g => ?_) fun c g => rfl
  have hobjects : handedOver { m with gate := g } caller args = m.handedOver caller args := rfl
  rw [hobjects]
  dsimp only
  split
  · rfl
  · cases m.handedOver caller args <;> rfl

theorem beginCall_eq (m : Machine A) (t : Thread) (caller : Env) (name : String)
    (args : List Word) :
    ∃ text, m.beginCall t caller name args =
      m.decided (m.callable caller args) (fun _ => ⟨caller.stack, m.calls.frames.size⟩)
        fun objects => { m with calls := m.calls.opened caller.stack objects }.traced t text := by
  unfold beginCall
  rw [act_openFrame]
  cases m.callable caller args with
  | error fault => exact ⟨"", rfl⟩
  | ok objects => exact ⟨_, rfl⟩

/-- A line in the log and a scope do not meet. -/
theorem leave_traced {calls : CallStacks} {text : String} :
    let after := { m with gate := m.gate.enter t, calls }.traced t text
    { after with gate := after.gate.leave t } = { m with calls }.traced t text := by
  unfold traced
  cases m.config.trace <;>
    simp only [note, Arena.note, leave_enter, ↓reduceIte, Bool.false_eq_true]

theorem endCall_eq (m : Machine A) (t : Thread) (caller callee : Env) (outcome : Answer Word) :
    ∃ text, m.endCall t caller callee outcome =
      (m.checkResult callee outcome,
        { m with
          calls := (m.calls.settled caller.frame callee.frame (m.checkResult callee outcome)).pop
            callee.stack callee.frame }.traced t text) := by
  have hcheck : checkResult { m with gate := m.gate.enter t } callee outcome =
      m.checkResult callee outcome := rfl
  unfold endCall
  cases hresult : m.checkResult callee outcome with
  | error fault =>
    rw [inScope, hcheck, hresult]
    exact ⟨_, Prod.ext rfl leave_traced⟩
  | ok word =>
    rw [inScope, hcheck, hresult]
    cases htarget : word.target? with
    | none =>
      simp only [CallStacks.settled, htarget]
      exact ⟨_, Prod.ext rfl leave_traced⟩
    | some h =>
      simp only [CallStacks.settled, htarget]
      exact ⟨_, Prod.ext rfl leave_traced⟩

theorem beginRun_refused {name : String} {args : List Word} {h : Handle}
    (hargs : args.findSome? Word.target? = some h) :
    m.beginRun t name args = (.error (.notHeld h), m) := by
  rw [beginRun, hargs]

theorem beginRun_eq (m : Machine A) (t : Thread) (name : String) {args : List Word}
    (hargs : args.findSome? Word.target? = none) :
    ∃ text, m.beginRun t name args =
      (.ok ⟨m.calls.known.size, m.calls.frames.size⟩,
        { m with
          calls := m.calls.register.2.opened m.calls.known.size [] }.note t .debug text) := by
  unfold beginRun
  rw [hargs]
  dsimp only [inScope, openFrame_eq]
  rw [leave_enter]
  exact ⟨_, rfl⟩

theorem endRun_eq (m : Machine A) (t : Thread) (entry : Env) (outcome : Answer Word) :
    ∃ text, m.endRun t entry outcome =
      (m.checkResult entry outcome,
        { m with
          calls := (m.calls.pop entry.stack entry.frame).unregister
            (m.calls.stack entry.stack).id }.note t .debug text) := by
  have hid : ((m.calls.pop entry.stack entry.frame).stack entry.stack).id =
      (m.calls.stack entry.stack).id := by
    rw [CallStacks.stack_pop, if_pos rfl]
  unfold endRun unregister
  dsimp only [inScope, note, Arena.note]
  rw [leave_enter, hid]
  exact ⟨_, rfl⟩

/-! ### Objects and collections -/

/-- A request of an active frame for an object is one of the allocator, outside of any scope. -/
theorem newObject_eq [Allocator A] :
    m.newObject t env =
      match m.checkActive env with
      | .error fault => (.error fault, m)
      | .ok _ =>
        match Allocator.allocate t m.calls m.toArena with
        | (.error fault, arena) => (.error fault, { m with toArena := arena })
        | (.ok h, arena) =>
          let m' := { m with toArena := arena }
          if (m.frame env).holds h then (.error (.invalidState (.alreadyHeld h)), m')
          else
            (.ok h, (m'.hold env h).traced t s!"frame {(m.frame env).depth}: new object {h}") := by
  have hactive : checkActive { m with gate := m.gate.enter t } env = m.checkActive env := rfl
  unfold newObject inScope
  dsimp only
  rw [hactive, leave_enter]
  cases m.checkActive env with
  | error fault => rfl
  | ok _ =>
    dsimp only
    rcases Allocator.allocate t m.calls m.toArena with ⟨fault | h, arena⟩ <;> rfl

/-! ### What a line in the log leaves alone -/

section Traced

variable {level : Level} {text : String}

@[simp] theorem calls_note : (m.note t level text).calls = m.calls := rfl

@[simp] theorem allocator_traced : (m.traced t text).allocator = m.allocator := by
  unfold traced
  split <;> rfl

@[simp] theorem gate_traced : (m.traced t text).gate = m.gate := by
  unfold traced
  split <;> rfl

@[simp] theorem heap_traced : (m.traced t text).heap = m.heap := by
  unfold traced
  split <;> rfl

@[simp] theorem calls_traced : (m.traced t text).calls = m.calls := by
  unfold traced
  split <;> rfl

@[simp] theorem config_traced : (m.traced t text).config = m.config := by
  unfold traced
  split <;> rfl

end Traced

/-! ### Operations that leave the arena alone -/

/-- Machines with the same allocator, heap and gate. -/
structure SameArena (m m' : Machine A) : Prop where
  allocator : m'.allocator = m.allocator
  heap : m'.heap = m.heap
  gate : m'.gate = m.gate

namespace SameArena

theorem refl : m.SameArena m := ⟨rfl, rfl, rfl⟩

theorem traced {calls : CallStacks} {text : String} :
    m.SameArena ({ m with calls }.traced t text) :=
  ⟨allocator_traced, heap_traced, gate_traced⟩

theorem getReference : m.SameArena (m.getReference t env object slot).2 := by
  rw [getReference_eq]
  refine decided_keeps refl fun h _ => ?_
  split
  · exact refl
  · exact ⟨rfl, rfl, rfl⟩

theorem getData : m.SameArena (m.getData t env object slot).2 := by
  rw [getData_eq]
  exact decided_keeps refl fun _ _ => refl

theorem release : m.SameArena (m.release t env object).2 := by
  rw [release_eq]
  exact decided_keeps refl fun _ _ => ⟨rfl, rfl, rfl⟩

theorem beginCall {name : String} {args : List Word} :
    m.SameArena (m.beginCall t env name args).2 := by
  obtain ⟨text, heq⟩ := beginCall_eq m t env name args
  rw [heq]
  exact decided_keeps refl fun _ _ => traced

theorem endCall {callee : Env} {outcome : Answer Word} :
    m.SameArena (m.endCall t env callee outcome).2 := by
  obtain ⟨text, heq⟩ := endCall_eq m t env callee outcome
  rw [heq]
  exact traced

theorem beginRun {name : String} {args : List Word} :
    m.SameArena (m.beginRun t name args).2 := by
  cases hargs : args.findSome? Word.target? with
  | some h =>
    rw [beginRun_refused hargs]
    exact refl
  | none =>
    obtain ⟨text, heq⟩ := beginRun_eq m t name hargs
    rw [heq]
    exact ⟨rfl, rfl, rfl⟩

theorem endRun {outcome : Answer Word} : m.SameArena (m.endRun t env outcome).2 := by
  obtain ⟨text, heq⟩ := endRun_eq m t env outcome
  rw [heq]
  exact ⟨rfl, rfl, rfl⟩

end SameArena

end RootedHeap.Machine
