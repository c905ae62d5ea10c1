import RootedHeap.Program.Basic
import RootedHeap.Proofs.Courses
import RootedHeap.Proofs.Rooting
import RootedHeap.Proofs.Turns

/-!
What a refused request leaves behind. An operation of a frame looks at several things before it does
anything, and a call is let in piece by piece: its frame is pushed, objects are handed over to it
one by one, and it is popped again if one of them is not the caller's to give. `CallStacks.letIn` is
the call told in this way; a refused one leaves the tables as they were, with one more retired frame
that is on no stack. `Session.RefusesCleanly` says of a session that whatever it refuses, it is the
same session afterwards, and that the code of a method that is refused never runs.
-/

namespace RootedHeap

/-! ### A call let in piece by piece -/

namespace CallStacks

/-- Hands objects from one frame to another, in order, up to the first that the giver does not
hold. -/
def handOver (giver taker : FrameRef) : List Handle → CallStacks → Option Handle × CallStacks
  | [], t => (none, t)
  | h :: rest, t =>
    if (t.frame giver).holds h then handOver giver taker rest (t.change taker (·.insert h))
    else (some h, t)

/-- Pushes a frame and hands objects of the caller over to it. It starts to run if the caller held
them all, and is popped again if not. -/
def letIn (t : CallStacks) (caller : Env) (objects : List Handle) : Answer FrameRef × CallStacks :=
  let (f, pushed) := t.push caller.stack
  match handOver caller.frame f objects pushed with
  | (some missing, t) => (.error (.notHeld missing), t.pop caller.stack f)
  | (none, t) => (.ok f, t.change f (·.enter .active))

variable {t : CallStacks} {s : StackRef} {frame : Frame} {giver : FrameRef}
  {objects : List Handle}

def pushed (t : CallStacks) (s : StackRef) (frame : Frame) : CallStacks :=
  { (t.push s).2 with frames := t.frames.push frame }

/-- The last frame of a table is changed. -/
theorem modify_push (frames : Array Frame) {edit : Frame → Frame} :
    (frames.push frame).modify frames.size edit = frames.push (edit frame) := by
  refine Array.ext_getElem? fun i => ?_
  rw [Array.getElem?_modify, Array.getElem?_push, Array.getElem?_push]
  by_cases hi : i = frames.size
  · simp only [hi, ↓reduceIte, Option.map_some]
  · simp only [hi, Ne.symm hi, ↓reduceIte]

@[simp] theorem change_pushed {edit : Frame → Frame} :
    (t.pushed s frame).change t.frames.size edit = t.pushed s (edit frame) :=
  congrArg (fun frames => { (t.push s).2 with frames }) (modify_push t.frames)

theorem frame_pushed (hgiver : giver < t.frames.size) :
    (t.pushed s frame).frame giver = t.frame giver := by
  simp only [CallStacks.frame, pushed, Array.getElem?_push, Nat.ne_of_lt hgiver, ↓reduceIte]

/-- What is handed over to a frame that was just pushed: everything, or all before the first object
that the giver does not hold. -/
theorem handOver_pushed (hgiver : giver < t.frames.size) (s : StackRef) (frame : Frame)
    (objects : List Handle) :
    ∃ given : List Handle, handOver giver t.frames.size objects (t.pushed s frame) =
        (objects.find? fun h => !(t.frame giver).holds h,
          t.pushed s (given.foldl Frame.insert frame)) ∧
      ((objects.find? fun h => !(t.frame giver).holds h) = none → given = objects) := by
  induction objects generalizing frame with
  | nil => exact ⟨[], rfl, fun _ => rfl⟩
  | cons h objects ih =>
    rw [handOver, frame_pushed hgiver]
    by_cases hheld : (t.frame giver).holds h = true
    · obtain ⟨given, heq, hall⟩ := ih (frame.insert h)
      refine ⟨h :: given, ?_, ?_⟩
      · simpa only [hheld, ↓reduceIte, change_pushed, List.find?_cons, Bool.not_true,
          List.foldl_cons] using heq
      · simpa only [hheld, List.find?_cons, Bool.not_true, List.cons.injEq, true_and] using hall
    · refine ⟨[], ?_, ?_⟩
      · simp only [hheld, ↓reduceIte, List.find?_cons, Bool.not_false, Bool.false_eq_true,
          List.foldl_nil]
      · simp only [hheld, List.find?_cons, Bool.not_false, reduceCtorEq, false_implies]

/-- A frame that was just pushed is popped alone, and the stack is what it was. -/
theorem pop_pushed (hs : s < t.known.size) (hnew : t.frames.size ∉ (t.stack s).frames) :
    (t.pushed s frame).pop s t.frames.size = (t.addFrame frame.retire).2 := by
  have hstack : ((t.pushed s frame).stack s).frames = (t.stack s).frames ++ [t.frames.size] := by
    have hpush : (t.push s).2.stack s = _ := stack_push
    rw [if_pos ⟨rfl, hs⟩] at hpush
    exact congrArg Stack.frames hpush
  have hold : ∀ f ∈ (t.stack s).frames, decide (f ≠ t.frames.size) = true := fun f hf =>
    decide_eq_true fun heq => hnew (heq ▸ hf)
  have hbelow : ((t.stack s).frames ++ [t.frames.size]).takeWhile (· ≠ t.frames.size) =
      (t.stack s).frames := by
    rw [List.takeWhile_append_of_pos hold]
    simp
  have habove : ((t.stack s).frames ++ [t.frames.size]).dropWhile (· ≠ t.frames.size) =
      [t.frames.size] := by
    rw [List.dropWhile_append_of_pos hold]
    simp
  -- the stack is given back the frames that it had
  have hknown : (t.pushed s frame).known.modify s
      (fun k => { k with frames := (t.stack s).frames }) = t.known := by
    refine Array.ext_getElem? fun i => ?_
    simp only [pushed, push, addFrame, Array.getElem?_modify]
    by_cases hi : s = i
    · subst hi
      simp only [↓reduceIte, Array.getElem?_eq_getElem hs, Option.map_some, stack,
        Option.getD_some]
    · simp only [hi, ↓reduceIte]
  rw [pop, hstack, hbelow, habove, hknown]
  exact congrArg (fun frames => { t with frames }) (modify_push t.frames)

/-- A call let in piece by piece is opened, or leaves nothing but a retired frame on no stack. -/
theorem letIn_eq {envs : List Env} (h : EnvsAgree envs t) {caller : Env} (hcaller : caller ∈ envs) :
    t.letIn caller objects =
      match objects.find? fun o => !(t.frame caller.frame).holds o with
      | some missing =>
        (.error (.notHeld missing), (t.addFrame (Frame.fresh (t.depth caller.stack)).retire).2)
      | none => (.ok t.frames.size, t.opened caller.stack objects) := by
  have hnew : t.frames.size ∉ (t.stack caller.stack).frames := fun hmem =>
    Nat.lt_irrefl _ (h.lt_size (h.listed _ _ hmem).1)
  obtain ⟨given, hgiven, hall⟩ := handOver_pushed (h.lt_size hcaller) caller.stack
    (Frame.fresh (t.depth caller.stack)) objects
  have hpushed : t.push caller.stack =
      (t.frames.size, t.pushed caller.stack (Frame.fresh (t.depth caller.stack))) := rfl
  rw [letIn, hpushed]
  dsimp only
  rw [hgiven]
  cases hfind : objects.find? fun o => !(t.frame caller.frame).holds o with
  | some missing =>
    dsimp only
    rw [pop_pushed (h.known caller hcaller) hnew, Frame.retire_foldl_insert]
  | none =>
    dsimp only
    rw [hall hfind, change_pushed, opened, hpushed, change_pushed]

end CallStacks

/-! ### Refused requests -/

def Answer.fault? {α : Type} : Answer α → Option Fault
  | .error fault => some fault
  | .ok _ => none

theorem Answer.fault?_eq_some {α : Type} {answer : Answer α} {fault : Fault} :
    answer.fault? = some fault ↔ answer = .error fault := by
  cases answer <;> simp only [fault?, Option.some.injEq, Except.error.injEq, reduceCtorEq]

/-- The fault with which a read, a write, a release, a call or a run was refused. -/
def Action.refusal : (action : Action) → action.Reply → Option Fault
  | .getReference .., reply | .getData .., reply | .setReference .., reply | .setData .., reply
  | .release .., reply | .beginCall .., reply | .beginRun .., reply => Answer.fault? reply
  | _, _ => none

namespace Machine

variable {A : Type} {m : Machine A} {t : Thread} {caller : Env} {args : List Word} {fault : Fault}

/-- Why a call is not let in: its caller is not running, or the stack is full, or an object among
the arguments is not the caller's to give; the first of these in that order. -/
def callFault? (m : Machine A) (caller : Env) (args : List Word) : Option Fault :=
  if (m.frame caller).state ≠ .active then some (.inactiveFrame (m.frame caller).depth)
  else if m.config.maxCallDepth ≤ m.calls.depth caller.stack then some .callStackOverflow
  else ((args.filterMap Word.target?).find? fun h => !(m.frame caller).holds h).map .notHeld

theorem callable_eq (m : Machine A) (caller : Env) (args : List Word) :
    m.callable caller args =
      match m.callFault? caller args with
      | some fault => .error fault
      | none => .ok (args.filterMap Word.target?) := by
  unfold callable callFault? checkActive handedOver
  by_cases hactive : (m.frame caller).state = .active
  · by_cases hdepth : m.config.maxCallDepth ≤ m.calls.depth caller.stack
    · simp only [hactive, hdepth, ↓reduceIte, ne_eq, not_true_eq_false]
      rfl
    · simp only [hactive, hdepth, ↓reduceIte, ne_eq, not_true_eq_false]
      cases (args.filterMap Word.target?).find? fun h => !(m.frame caller).holds h <;> rfl
  · simp only [hactive, ↓reduceIte, ne_eq, not_false_eq_true]
    rfl

/-- What a check refuses changes nothing. -/
theorem decided_unchanged {α γ : Type} {check : Answer γ} {answer : γ → α}
    {effect : γ → Machine A} (hrefused : (m.decided check answer effect).1 = .error fault) :
    (m.decided check answer effect).2 = m := by
  cases check with
  | error _ => rfl
  | ok c => cases hrefused

end Machine

namespace Session

variable {A : Type} {s : Session A} {t : Thread} {fault : Fault}

/-- An operation that its check refuses leaves the world as it is. -/
theorem onMachine_unchanged {α γ : Type} {operation : Machine A → Answer α × Machine A}
    {check : Answer γ} {answer : γ → α} {effect : γ → Machine A}
    (heq : operation s.machine = s.machine.decided check answer effect)
    (hrefused : (s.world.onMachine operation).1 = .error fault) :
    (s.world.onMachine operation).2 = s.world := by
  have hanswer : (operation s.machine).1 = .error fault := hrefused
  have hsame : (operation s.machine).2 = s.machine := by
    rw [heq] at hanswer ⊢
    exact Machine.decided_unchanged hanswer
  exact congrArg (fun machine => { s.world with machine }) hsame

variable [Allocator A] {start : Machine A} {past : List Move}

theorem after_unchanged {action : Action} (hworld : (s.world.perform t action).2 = s.world)
    (hledger : s.ledger.record action (s.reply t action) = s.ledger) : s.after t action = s := by
  rw [after, hworld, hledger]

/-- Whatever was refused, the session is the same afterwards. -/
theorem after_refused {action : Action}
    (hrefused : action.refusal (s.reply t action) = some fault) : s.after t action = s := by
  cases action with
  | getReference env object slot =>
    exact after_unchanged
      (onMachine_unchanged Machine.getReference_eq (Answer.fault?_eq_some.1 hrefused)) rfl
  | getData env object slot =>
    exact after_unchanged
      (onMachine_unchanged Machine.getData_eq (Answer.fault?_eq_some.1 hrefused)) rfl
  | setReference env object slot target =>
    exact after_unchanged
      (onMachine_unchanged Machine.setReference_eq (Answer.fault?_eq_some.1 hrefused)) rfl
  | setData env object slot word =>
    exact after_unchanged
      (onMachine_unchanged Machine.setData_eq (Answer.fault?_eq_some.1 hrefused)) rfl
  | release env object =>
    exact after_unchanged
      (onMachine_unchanged Machine.release_eq (Answer.fault?_eq_some.1 hrefused)) rfl
  | beginCall caller name args =>
    have herror : s.reply t (.beginCall caller name args) = .error fault :=
      Answer.fault?_eq_some.1 hrefused
    obtain ⟨text, heq⟩ := Machine.beginCall_eq s.machine t caller name args
    exact after_unchanged (onMachine_unchanged heq herror) (by rw [herror]; rfl)
  | beginRun name args =>
    have herror : (s.machine.beginRun t name args).1 = .error fault :=
      Answer.fault?_eq_some.1 hrefused
    cases hargs : args.findSome? Word.target? with
    | some h =>
      have heq : s.machine.beginRun t name args = (.error (.notHeld h), s.machine) :=
        Machine.beginRun_refused hargs
      refine after_unchanged (congrArg (fun machine => { s.world with machine })
        (congrArg Prod.snd heq)) ?_
      have hreply : s.reply t (.beginRun name args) = .error (.notHeld h) := congrArg Prod.fst heq
      rw [hreply]
      rfl
    | none =>
      obtain ⟨text, heq⟩ := Machine.beginRun_eq s.machine t name hargs
      rw [heq] at herror
      cases herror
  | _ => cases hrefused

/-- Exactly which calls are let in, and what the others answer. -/
theorem reply_beginCall (s : Session A) (t : Thread) (caller : Env) (name : String)
    (args : List Word) :
    s.reply t (.beginCall caller name args) =
      match s.machine.callFault? caller args with
      | some fault => .error fault
      | none => .ok ⟨caller.stack, s.calls.frames.size⟩ := by
  obtain ⟨text, heq⟩ := Machine.beginCall_eq s.machine t caller name args
  refine (congrArg Prod.fst heq).trans ?_
  rw [Machine.callable_eq]
  cases s.machine.callFault? caller args <;> rfl

/-- Exactly which runs begin, and what the others answer. -/
theorem reply_beginRun (s : Session A) (t : Thread) (name : String) (args : List Word) :
    s.reply t (.beginRun name args) =
      match args.findSome? Word.target? with
      | some h => .error (.notHeld h)
      | none => .ok ⟨s.calls.known.size, s.calls.frames.size⟩ := by
  cases hargs : args.findSome? Word.target? with
  | some h => exact congrArg Prod.fst (Machine.beginRun_refused hargs)
  | none =>
    obtain ⟨text, heq⟩ := Machine.beginRun_eq s.machine t name hargs
    exact congrArg Prod.fst heq

/-- A run that begins is given the next stack and the next frame. -/
theorem entry_of_begun {name : String} {args : List Word} {entry : Env}
    (hbegun : s.reply t (.beginRun name args) = .ok entry) :
    entry = ⟨s.calls.known.size, s.calls.frames.size⟩ := by
  rw [reply_beginRun] at hbegun
  split at hbegun
  · cases hbegun
  · exact (Except.ok.inj hbegun).symm

/-- Whatever a session refuses, it is the same session afterwards. -/
structure RefusesCleanly (s : Session A) : Prop where
  unchanged : ∀ t action fault, action.refusal (s.reply t action) = some fault →
    s.after t action = s
  /-- Whoever is not running is refused for that, before anything else is looked at. -/
  inactive : ∀ env, (s.machine.frame env).state ≠ .active → s.machine.Refuses env
  call : ∀ t caller name args, s.reply t (.beginCall caller name args) =
    match s.machine.callFault? caller args with
    | some fault => .error fault
    | none => .ok ⟨caller.stack, s.calls.frames.size⟩
  run : ∀ t name args, s.reply t (.beginRun name args) =
    match args.findSome? Word.target? with
    | some h => .error (.notHeld h)
    | none => .ok ⟨s.calls.known.size, s.calls.frames.size⟩
  call_not_invoked : ∀ t caller method args fault, s.machine.callFault? caller args = some fault →
    (Code.call caller method args).ended.run t s.world = (.error (.fault fault), s.world)
  run_not_invoked : ∀ t method args h, args.findSome? Word.target? = some h →
    (Code.runMethod method args).ended.run t s.world = (.error (.fault (.notHeld h)), s.world)
  /-- Pushing the frame first makes no difference. -/
  pushed_first : ∀ caller ∈ s.ledger.envs, ∀ args,
    s.calls.letIn caller (args.filterMap Word.target?) =
      match s.machine.handedOver caller args with
      | .error fault => (.error fault, (s.calls.addFrame
          (Frame.fresh (s.calls.depth caller.stack)).retire).2)
      | .ok objects => (.ok s.calls.frames.size, s.calls.opened caller.stack objects)

theorem call_not_invoked {caller : Env} {method : Method} {args : List Word}
    (hfault : s.machine.callFault? caller args = some fault) :
    (Code.call caller method args).ended.run t s.world = (.error (.fault fault), s.world) := by
  have hreply := s.reply_beginCall t caller method.name args
  rw [hfault] at hreply
  have hafter : s.after t (.beginCall caller method.name args) = s :=
    after_refused (Answer.fault?_eq_some.2 hreply)
  have hworld : (s.world.perform t (.beginCall caller method.name args)).2 = s.world :=
    congrArg Session.world hafter
  have heq : s.world.perform t (.beginCall caller method.name args) = (.error fault, s.world) :=
    Prod.ext hreply hworld
  show (Program.act (.beginCall caller method.name args) _).run t s.world = _
  rw [Program.run, heq]
  rfl

theorem run_not_invoked {method : Method} {args : List Word} {h : Handle}
    (hargs : args.findSome? Word.target? = some h) :
    (Code.runMethod method args).ended.run t s.world = (.error (.fault (.notHeld h)), s.world) := by
  have hrefused : s.machine.beginRun t method.name args = (.error (.notHeld h), s.machine) :=
    Machine.beginRun_refused hargs
  have heq : s.world.perform t (.beginRun method.name args) = (.error (.notHeld h), s.world) :=
    congrArg (fun answered => (answered.1, { s.world with machine := answered.2 })) hrefused
  show (Program.act (.beginRun method.name args) _).run t s.world = _
  rw [Program.run, heq]
  rfl

/-- In every session, whatever the allocator, a refused request leaves everything as it was. -/
theorem Ran.refuses_cleanly (first : Thread) (heap : Heap) (allocator : A) (config : MachineConfig)
    (hbuild : Machine.build first heap allocator config = .ok start) (hran : Ran start past s) :
    s.RefusesCleanly where
  unchanged _ _ _ := after_refused
  inactive _ := Machine.refuses_iff.2
  call := s.reply_beginCall
  run := s.reply_beginRun
  call_not_invoked _ _ _ _ _ := call_not_invoked
  run_not_invoked _ _ _ _ := run_not_invoked
  pushed_first caller hcaller args := by
    have h := hran.tallies (calls_of_build hbuild)
    rw [CallStacks.letIn_eq h.toEnvsAgree hcaller, Machine.handedOver]
    change (match (args.filterMap Word.target?).find?
        fun o => !(s.machine.frame caller).holds o with
      | some missing => _
      | none => _) = _
    cases (args.filterMap Word.target?).find? fun o => !(s.machine.frame caller).holds o <;> rfl

/-- What is said of all sessions, said of one that refuses calls for every reason there is: before a
call ended its stack was full, and after that its frame is not running and its caller does not hold
the object that it is to give. -/
theorem refuses_cleanly_of_one_call :
    ∃ (start : Machine MarkSweep) (past : List Move) (s s' : Session MarkSweep)
      (moves : List Move),
      Machine.build Thread.first (.ofSize 3 1) (MarkSweep.fresh .zero) ⟨2, false⟩ = .ok start ∧
        Ran start past s ∧ Course s moves s' ∧
        s.machine.callFault? ⟨0, 0⟩ [1] = some .callStackOverflow ∧
        s'.machine.callFault? ⟨0, 0⟩ [1, -5, 2] = some (.notHeld 2) ∧
        s'.machine.callFault? ⟨0, 1⟩ [1] = some (.inactiveFrame 1) ∧
        s.RefusesCleanly ∧ s'.RefusesCleanly := by
  have hseen : watched ⟨2, false⟩ (.ofSize 3 1) (MarkSweep.fresh .zero)
      [(0, .beginRun "entry" []), (0, .newObject ⟨0, 0⟩), (0, .beginCall ⟨0, 0⟩ "one" [1])]
      [(0, .endCall ⟨0, 0⟩ ⟨0, 1⟩ (.ok 1))]
      (fun (_, s) (_, s') => (s.machine.callFault? ⟨0, 0⟩ [1],
        s'.machine.callFault? ⟨0, 0⟩ [1, -5, 2], s'.machine.callFault? ⟨0, 1⟩ [1])) =
        some (some .callStackOverflow, some (.notHeld 2), some (.inactiveFrame 1)) := by
    decide +kernel
  obtain ⟨start, past, s, moves, s', hbuild, hran, hcourse, hsight⟩ :=
    exists_course_of_watched hseen
  obtain ⟨hfull, hmissing, hover⟩ := by simpa only [Prod.mk.injEq] using hsight
  exact ⟨start, past, s, s', moves, hbuild, hran, hcourse, hfull, hmissing, hover,
    Ran.refuses_cleanly Thread.first (.ofSize 3 1) (MarkSweep.fresh .zero) ⟨2, false⟩ hbuild hran,
    Ran.refuses_cleanly Thread.first (.ofSize 3 1) (MarkSweep.fresh .zero) ⟨2, false⟩ hbuild
      (hran.course hcourse)⟩

end Session

end RootedHeap
