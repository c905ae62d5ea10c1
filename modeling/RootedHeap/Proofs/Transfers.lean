import RootedHeap.Proofs.Nesting

/-!
What a call takes from its caller and what it brings back. The callee starts with the objects among
its arguments, and whatever its method does through its own frame and through frames that it pushes
itself, nothing below it on the stack is touched: `Session.During` is what holds of every session
within a call, and each move within the call keeps it. So when the call is over, by a result, a
fault or a panic, all that was pushed is popped, and the caller holds what it held before and at
most the object that was returned.
-/

namespace RootedHeap

/-! ### What is done within a call -/

/-- Whether an action, as far as it is about the stack of a callee, works through the callee or
through frames that were pushed after it. On other stacks it is free. -/
def Action.inside (callee : Env) : Action → Prop
  | .newObject env | .getReference env _ _ | .getData env _ _ | .setReference env _ _ _
  | .setData env _ _ _ | .release env _ | .beginCall env _ _ | .endCall env _ _ | .endRun env _
  | .abandonRun env => env.stack = callee.stack → callee.frame ≤ env.frame
  | .abandonCall env => env.stack = callee.stack → callee.frame < env.frame
  | _ => True

instance (callee : Env) : (action : Action) → Decidable (action.inside callee)
  | .newObject env | .getReference env _ _ | .getData env _ _ | .setReference env _ _ _
  | .setData env _ _ _ | .release env _ | .beginCall env _ _ | .endCall env _ _ | .endRun env _
  | .abandonRun env =>
    inferInstanceAs (Decidable (env.stack = callee.stack → callee.frame ≤ env.frame))
  | .abandonCall env =>
    inferInstanceAs (Decidable (env.stack = callee.stack → callee.frame < env.frame))
  | .beginRun .. | .collect | .stop | .resume | .roots | .frame _ | .envLayout _ | .stats
  | .threadCount | .pauses | .width | .handles | .cell .. | .note .. | .keep .. | .kept _
  | .report _ | .turn => isTrue trivial

namespace CallStacks

variable {t : CallStacks} {k : StackRef} {f g caller callee : FrameRef} {result : Answer Word}

/-- What leaves an ascending stack with a frame is not below it. -/
theorem frame_pop_of_lt (hascending : (t.stack k).frames.Pairwise (· < ·)) (hlt : f < g) :
    (t.pop k g).frame f = t.frame f := by
  rw [frame_pop, if_neg fun hmem => ?_]
  exact Nat.not_le.2 hlt ((mem_dropWhile_ne_iff hascending).1 hmem).2.2

/-- Of the frames that stay, only the caller's gains by the result of a call. -/
theorem frame_settled_of_ne (hcaller : caller < t.frames.size) (hcallee : callee < t.frames.size)
    (hne : caller ≠ callee) (hf : f ≠ callee) :
    (t.settled caller callee result).frame f =
      if f = caller then
        (result.toOption.bind Word.target?).elim (t.frame f) (t.frame f).insert
      else t.frame f := by
  cases result with
  | error fault => exact (ite_self _).symm
  | ok word =>
    rw [frame_settled hcaller hcallee hne, if_neg hf]
    change _ = if f = caller then word.target?.elim _ _ else _
    cases word.target? <;> rfl

end CallStacks

namespace Frame

variable {f : Frame} {objects : List Handle}

/-- Objects that are handed over come after those that were held, in order, each one once. -/
theorem handles_foldl_insert :
    (objects.foldl insert f).handles =
      f.handles ++ (objects.filter (· ∉ f.handles)).eraseDups := by
  induction objects generalizing f with
  | nil => simp
  | cons h objects ih =>
    rw [List.foldl_cons, ih, handles_insert]
    by_cases hheld : h ∈ f.handles
    · simp [hheld]
    · have hrest : ∀ o, decide (o ∉ f.handles ++ [h]) = (!o == h && decide (o ∉ f.handles)) := by
        intro o
        by_cases ho : o = h <;> simp [ho]
      have hfirst : (h :: objects).filter (fun o => decide (o ∉ f.handles)) =
          h :: objects.filter fun o => decide (o ∉ f.handles) :=
        List.filter_cons_of_pos (decide_eq_true hheld)
      rw [if_neg hheld, hfirst, List.eraseDups_cons, List.filter_filter, List.append_assoc,
        List.singleton_append]
      simp only [hrest]

end Frame

namespace Machine

variable {A : Type} {m : Machine A} {t : Thread} {env : Env} {object : Handle} {slot : Nat}
  {f : FrameRef}

/-! ### An operation leaves the records of other frames -/

theorem frame_newObject_of_ne [Allocator A] (hne : env.frame ≠ f) :
    (m.newObject t env).2.calls.frame f = m.calls.frame f := by
  rw [newObject_eq]
  cases m.checkActive env with
  | error fault => rfl
  | ok _ =>
    dsimp only
    rcases Allocator.allocate t m.calls m.toArena with ⟨fault | o, arena⟩
    · rfl
    · dsimp only
      split
      · rfl
      · rw [calls_traced]
        exact CallStacks.frame_change_of_ne hne

theorem frame_getReference_of_ne (hne : env.frame ≠ f) :
    (m.getReference t env object slot).2.calls.frame f = m.calls.frame f := by
  rw [getReference_eq]
  cases m.referenceAt env object slot with
  | error fault => rfl
  | ok o =>
    rw [decided_ok]
    split
    · rfl
    · exact CallStacks.frame_change_of_ne hne

theorem frame_release_of_ne (hne : env.frame ≠ f) :
    (m.release t env object).2.calls.frame f = m.calls.frame f := by
  rw [release_eq]
  cases m.releasable env object with
  | error fault => rfl
  | ok _ => exact CallStacks.frame_change_of_ne hne

end Machine

/-- A list that an ascending one begins with is what stands before the next element. -/
theorem takeWhile_ne_eq {below above : List FrameRef} {f : FrameRef}
    (hascending : (below ++ f :: above).Pairwise (· < ·)) :
    (below ++ f :: above).takeWhile (· ≠ f) = below :=
  CallStacks.takeWhile_ne_append fun hf =>
    Nat.lt_irrefl f ((List.pairwise_append.1 hascending).2.2 f hf f List.mem_cons_self)

/-- What stands before an element that is greater still begins with it. -/
theorem exists_takeWhile_ne_eq {below above : List FrameRef} {f g : FrameRef}
    (hascending : (below ++ f :: above).Pairwise (· < ·)) (hg : f < g) :
    ∃ above', (below ++ f :: above).takeWhile (· ≠ g) = below ++ f :: above' := by
  have hne : ∀ x ∈ below, decide (x ≠ g) = true := by
    intro x hx
    have hlt := (List.pairwise_append.1 hascending).2.2 x hx f List.mem_cons_self
    exact decide_eq_true (Nat.ne_of_lt (Nat.lt_trans hlt hg))
  refine ⟨above.takeWhile (· ≠ g), ?_⟩
  rw [List.takeWhile_append_of_pos hne,
    List.takeWhile_cons_of_pos (p := fun x => decide (x ≠ g))
      (decide_eq_true (Nat.ne_of_lt hg))]

namespace Session

variable {A : Type} [Allocator A] {s₀ s s' : Session A} {t : Thread} {action : Action}
  {caller callee env : Env} {f : FrameRef}

/-- Whether an action may be taken within a call: the rules permit it, it leaves what is below the
callee alone, and it ends calls on that stack in the reverse of the order in which they began. -/
structure Within (s : Session A) (callee : Env) (action : Action) : Prop where
  permitted : s.ledger.permits action
  inside : action.inside callee
  nests : action.ends = some callee.stack → s.ledger.nests action = true

instance : Decidable (s.Within callee action) :=
  decidable_of_iff (s.ledger.permits action ∧ action.inside callee ∧
      (action.ends = some callee.stack → s.ledger.nests action = true))
    ⟨fun ⟨permitted, inside, nests⟩ => ⟨permitted, inside, nests⟩,
      fun h => ⟨h.permitted, h.inside, h.nests⟩⟩

/-- Moves, by any threads, within a call. -/
inductive Inner (callee : Env) (s : Session A) : Session A → Prop
  | start : Inner callee s s
  | move {s' : Session A} (inner : Inner callee s s') (t : Thread) (action : Action)
      (within : s'.Within callee action) : Inner callee s (s'.after t action)

theorem Inner.course (hinner : Inner callee s s') : ∃ moves, Course s moves s' := by
  induction hinner with
  | start => exact ⟨[], .start⟩
  | move _ t action within ih =>
    obtain ⟨moves, hcourse⟩ := ih
    exact ⟨_, hcourse.move t action within.permitted⟩

/-! ### What a move within a call leaves alone -/

/-- An action that works through a later frame of a stack leaves the record of an earlier one. -/
theorem frame_after_of_inside (h : s.ledger.Tallies s.calls) (hpermits : s.ledger.permits action)
    (hinside : action.inside callee) (hon : f ∈ (s.calls.stack callee.stack).frames)
    (hf : f < callee.frame) : (s.after t action).calls.frame f = s.calls.frame f := by
  by_cases haside : callee.stack = action.stack s.calls
  swap
  · have henv := (h.listed _ f hon).1
    exact (tablesStep h.toEnvsAgree h.nested hpermits).frame ⟨callee.stack, f⟩ henv haside
  have hnew : callee.stack ≠ s.calls.known.size :=
    Nat.ne_of_lt (h.known ⟨callee.stack, f⟩ (h.listed _ f hon).1)
  have hother : ∀ {env : Env}, callee.frame ≤ env.frame → env.frame ≠ f := fun hle =>
    Nat.ne_of_gt (Nat.lt_of_lt_of_le hf hle)
  cases action with
  | newObject env => exact Machine.frame_newObject_of_ne (hother (hinside haside.symm))
  | getReference env object slot =>
    exact Machine.frame_getReference_of_ne (hother (hinside haside.symm))
  | release env object => exact Machine.frame_release_of_ne (hother (hinside haside.symm))
  | getData env object slot =>
    change (s.machine.getData t env object slot).2.calls.frame f = _
    rw [Machine.getData_eq]
    cases s.machine.dataAt env object slot <;> rfl
  | setReference env object slot target =>
    change (s.machine.setReference t env object slot target).2.calls.frame f = _
    rw [Machine.setReference_eq]
    cases s.machine.storableReference env object slot target <;> rfl
  | setData env object slot word =>
    change (s.machine.setData t env object slot word).2.calls.frame f = _
    rw [Machine.setData_eq]
    cases s.machine.storableData env object slot word <;> rfl
  | beginCall env name args =>
    obtain ⟨text, heq⟩ := Machine.beginCall_eq s.machine t env name args
    change (s.machine.beginCall t env name args).2.calls.frame f = _
    rw [heq]
    cases s.machine.callable env args with
    | error fault => rfl
    | ok objects =>
      rw [Machine.decided_ok, Machine.calls_traced]
      exact CallStacks.frame_opened.trans
        (if_neg (Nat.ne_of_lt (h.lt_size (h.listed _ f hon).1)))
  | endCall c e outcome =>
    obtain ⟨hcallee, hstack, hlt, -⟩ := h.nested c e hpermits
    have hc : f < c.frame := Nat.lt_of_lt_of_le hf (hinside (hstack.trans haside.symm))
    have he : f < e.frame := Nat.lt_trans hc hlt
    have hsize := h.lt_size hcallee
    have hascending : ((s.calls.settled c.frame e.frame
        (s.machine.checkResult e outcome)).stack e.stack).frames.Pairwise (· < ·) := by
      rw [CallStacks.stack_settled]
      exact h.ascending _
    rw [(after_endCall s t c e outcome).2, CallStacks.frame_pop_of_lt hascending he,
      CallStacks.frame_settled_of_ne (Nat.lt_trans hlt hsize) hsize (Nat.ne_of_lt hlt)
        (Nat.ne_of_lt he), if_neg (Nat.ne_of_lt hc)]
  | abandonCall env =>
    exact CallStacks.frame_pop_of_lt (h.ascending _) (Nat.lt_trans hf (hinside haside.symm))
  | endRun entry outcome =>
    rw [calls_after_endRun]
    exact CallStacks.frame_pop_of_lt (h.ascending _)
      (Nat.lt_of_lt_of_le hf (hinside haside.symm))
  | abandonRun entry => rfl
  | _ => exact absurd haside hnew

/-- A call goes on through a move within it. -/
theorem pending_after (h : s.ledger.Tallies s.calls) (hwithin : s.Within callee action)
    (hpending : (caller, callee) ∈ s.ledger.calls) :
    (caller, callee) ∈ (s.after t action).ledger.calls := by
  obtain ⟨-, hstack, hlt, -⟩ := h.nested caller callee hpending
  cases action with
  | endCall c e outcome =>
    refine (List.mem_erase_of_ne fun heq => ?_).2 hpending
    obtain ⟨rfl, rfl⟩ := Prod.mk.inj heq
    exact Nat.not_le.2 hlt (hwithin.inside hstack)
  | abandonCall e =>
    refine List.mem_filter.2 ⟨hpending, decide_eq_true fun heq => ?_⟩
    have heq : callee = e := heq
    subst heq
    exact Nat.lt_irrefl _ (hwithin.inside rfl)
  | beginCall c name args =>
    change (caller, callee) ∈ (s.ledger.record (.beginCall c name args) _).calls
    cases s.reply t (.beginCall c name args) with
    | error fault => exact hpending
    | ok e => exact List.mem_cons_of_mem _ hpending
  | beginRun name args =>
    rw [show (s.after t (.beginRun name args)).ledger.calls = s.ledger.calls from
      Ledger.calls_beginRun]
    exact hpending
  | _ => exact hpending

/-- What stands up to the callee on its stack still stands there after a move within the call. -/
theorem exists_stack_after (h : s.ledger.Tallies s.calls) (hwithin : s.Within callee action)
    (hpending : (caller, callee) ∈ s.ledger.calls) {old newer : List FrameRef}
    (hstack : (s.calls.stack callee.stack).frames = old ++ callee.frame :: newer) :
    ∃ newer', ((s.after t action).calls.stack callee.stack).frames =
      old ++ callee.frame :: newer' := by
  have hascending := h.ascending callee.stack
  rw [hstack] at hascending
  obtain ⟨-, hbeneath, hbelow, hon⟩ := h.nested caller callee hpending
  by_cases hends : action.ends = some callee.stack
  · cases action with
    | endCall c e outcome =>
      have he : e.stack = callee.stack := Option.some.inj hends
      obtain ⟨-, hsame, hlt, -⟩ := h.nested c e hwithin.permitted
      have hle := hwithin.inside (hsame.trans he)
      rw [(after_endCall s t c e outcome).2, CallStacks.stack_pop, if_pos he,
        CallStacks.stack_settled, hstack]
      exact exists_takeWhile_ne_eq hascending (Nat.lt_of_le_of_lt hle hlt)
    | abandonCall e =>
      have he : e.stack = callee.stack := Option.some.inj hends
      change ∃ newer', ((s.calls.pop e.stack e.frame).stack callee.stack).frames = _
      rw [CallStacks.stack_pop, if_pos he, hstack]
      exact exists_takeWhile_ne_eq hascending (hwithin.inside he)
    | endRun entry outcome =>
      -- the entry of the stack is not above the caller
      have hentry : entry.stack = callee.stack := Option.some.inj hends
      have hmem : callee.frame ∈ (s.calls.stack callee.stack).frames := by
        rw [hstack]
        exact List.mem_append_right _ List.mem_cons_self
      have hle := h.entry_le (List.mem_append_left _ hwithin.permitted) (hentry ▸ hon hmem)
      exact absurd (hwithin.inside hentry) (Nat.not_le.2 (Nat.lt_of_le_of_lt hle hbelow))
    | abandonRun entry => exact ⟨newer, hstack⟩
    | _ => cases hends
  · rcases pushed_or_same_after (t := t) h hwithin.permitted hends with hpushed | hsame
    · refine ⟨newer ++ [s.calls.frames.size], ?_⟩
      rw [hpushed.frames, hstack, List.append_assoc, List.cons_append]
    · exact ⟨newer, hsame.trans hstack⟩

/-! ### Sessions within a call -/

/-- What holds of a session within a call that began in another, where the callee is the frame that
was made next. -/
structure During (s₀ : Session A) (caller callee : Env) (s : Session A) : Prop
    extends Grows s₀ s where
  pending : (caller, callee) ∈ s.ledger.calls
  stack : ∃ newer, (s.calls.stack callee.stack).frames =
    (s₀.calls.stack callee.stack).frames ++ callee.frame :: newer
  frame : ∀ f ∈ (s₀.calls.stack callee.stack).frames, s.calls.frame f = s₀.calls.frame f
  /-- The frames of the calls that it made itself are on the stack until these calls end. -/
  above : ∀ c e, (c, e) ∈ s.ledger.calls → e.stack = callee.stack → callee.frame ≤ e.frame →
    e.frame ∈ (s.calls.stack e.stack).frames
  popped : ∀ env ∈ s.ledger.envs, env.stack = callee.stack → callee.frame ≤ env.frame →
    (s.calls.frame env.frame).state ≠ .active → (s.calls.frame env.frame).state = .popped

omit [Allocator A] in
/-- A frame from the callee on, to which a call is pending, is on the stack. -/
theorem During.on_stack (hduring : During s₀ caller callee s) (h : s.ledger.Tallies s.calls)
    (henv : env ∈ s.ledger.envs) (hstack : env.stack = callee.stack)
    (hle : callee.frame ≤ env.frame) {c e : Env} (hcall : (c, e) ∈ s.ledger.calls)
    (heq : e.frame = env.frame) : env.frame ∈ (s.calls.stack e.stack).frames := by
  obtain rfl := h.env_eq (h.nested c e hcall).1 henv heq
  exact hduring.above c e hcall hstack hle

/-- A move within a call leads to a session within it. -/
theorem During.after (hduring : During s₀ caller callee s) (h₀ : s₀.ledger.Tallies s₀.calls)
    (h : s.ledger.Tallies s.calls) (hdated : s.ledger.Dated) (hwithin : s.Within callee action)
    (hcallee : callee.frame = s₀.calls.frames.size) :
    During s₀ caller callee (s.after t action) := by
  have hpermits := hwithin.permitted
  have h' := h.step (ledger_step (t := t) hpermits)
  obtain ⟨newer, hstack⟩ := hduring.stack
  refine
    { toGrows := hduring.toGrows.trans (grows_after hpermits)
      pending := pending_after h hwithin hduring.pending
      stack := exists_stack_after h hwithin hduring.pending hstack
      frame := fun f hf => ?_
      above := fun c e hcall he hle => ?_
      popped := fun env henv hk hle hinactive => ?_ }
  · have hon : f ∈ (s.calls.stack callee.stack).frames := by
      rw [hstack]
      exact List.mem_append_left _ hf
    have hlt : f < callee.frame := hcallee ▸ h₀.lt_size (h₀.listed _ f hf).1
    rw [frame_after_of_inside h hpermits hwithin.inside hon hlt, hduring.frame f hf]
  · refine mem_stack_after_of_pending h hdated hpermits (fun hends => ?_) (fun hold => ?_) hcall
    · exact hwithin.nests (he ▸ hends)
    · exact hduring.above c e hold he hle
  · rcases Ledger.Tallies.known_or_begun (ledger_step (t := t) hpermits) henv with hold | hactive
    · exact popped_after h hpermits
        (fun c e hcall heq => hduring.on_stack h hold hk hle hcall heq)
        (fun _ => hduring.popped env hold hk hle) (h'.lt_size henv) hinactive
    · exact absurd hactive hinactive

/-! ### The beginning of a call -/

def next (s : Session A) (caller : Env) : Env := ⟨caller.stack, s.calls.frames.size⟩

/-- The first object among the arguments of a call that its caller does not hold. -/
def missing? (s : Session A) (caller : Env) (args : List Word) : Option Handle :=
  (args.filterMap Word.target?).find? fun h => !(s.machine.frame caller).holds h

variable {name : String} {args : List Word}

omit [Allocator A] in
/-- A frame that is running, with room above it, is refused a call only for want of an object. -/
theorem callFault?_eq (hactive : (s.machine.frame caller).state = .active)
    (hroom : s.calls.depth caller.stack < s.machine.config.maxCallDepth) :
    s.machine.callFault? caller args = (s.missing? caller args).map .notHeld := by
  have hroom : ¬ s.machine.config.maxCallDepth ≤ s.machine.calls.depth caller.stack :=
    Nat.not_le.2 hroom
  rw [Machine.callFault?, if_neg (not_not.2 hactive), if_neg hroom, missing?]

/-- A call that is let in opens a frame with the objects among its arguments. -/
theorem calls_after_beginCall (hfault : s.machine.callFault? caller args = none) :
    (s.after t (.beginCall caller name args)).calls =
      s.calls.opened caller.stack (args.filterMap Word.target?) := by
  obtain ⟨text, heq⟩ := Machine.beginCall_eq s.machine t caller name args
  have hcallable := s.machine.callable_eq caller args
  rw [hfault] at hcallable
  change (s.machine.beginCall t caller name args).2.calls = _
  rw [heq, hcallable, Machine.decided_ok, Machine.calls_traced]
  rfl

/-- When a call has begun, the session is within it. -/
theorem during_of_begun (h : s.ledger.Tallies s.calls) (hcaller : caller ∈ s.ledger.envs)
    (hfault : s.machine.callFault? caller args = none) :
    During s caller (s.next caller) (s.after t (.beginCall caller name args)) := by
  have hpermits : s.ledger.permits (.beginCall caller name args) := hcaller
  have hstep := ledger_step (t := t) hpermits
  have h' := h.step hstep
  have hcalls : (s.after t (.beginCall caller name args)).calls =
      s.calls.opened caller.stack (args.filterMap Word.target?) := calls_after_beginCall hfault
  have hreply := s.reply_beginCall t caller name args
  rw [hfault] at hreply
  refine
    { toGrows := grows_after hpermits
      pending := ?_
      stack := ⟨[], ?_⟩
      frame := fun f hf => ?_
      above := fun c e hcall he hle => ?_
      popped := fun env henv hk hle hinactive => ?_ }
  · rw [after, hreply]
    exact List.mem_cons_self
  · rw [hcalls, CallStacks.stack_opened, if_pos ⟨rfl, h.known caller hcaller⟩]
    rfl
  · rw [hcalls, CallStacks.frame_opened, if_neg (Nat.ne_of_lt (h.lt_size (h.listed _ f hf).1))]
  · rcases Ledger.Tallies.pending_or_begun hstep hcall with hold | hactive
    · exact absurd hle (Nat.not_le.2 (h.lt_size (h.nested c e hold).1))
    · exact h'.onStack e (h'.nested c e hcall).1 hactive
  · rcases Ledger.Tallies.known_or_begun hstep henv with hold | hactive
    · exact absurd hle (Nat.not_le.2 (h.lt_size hold))
    · exact absurd hactive hinactive

/-- A callee starts with the objects among the arguments, in order, each one once. -/
theorem frame_of_begun (hfault : s.machine.callFault? caller args = none) :
    ((s.after t (.beginCall caller name args)).machine.frame (s.next caller)).state = .active ∧
      ((s.after t (.beginCall caller name args)).machine.frame (s.next caller)).handles =
        (args.filterMap Word.target?).eraseDups := by
  have hframe : (s.after t (.beginCall caller name args)).machine.frame (s.next caller) =
      ((args.filterMap Word.target?).foldl Frame.insert
        (Frame.fresh (s.calls.depth caller.stack))).enter .active := by
    change (s.after t (.beginCall caller name args)).calls.frame _ = _
    rw [calls_after_beginCall hfault, CallStacks.frame_opened]
    exact if_pos rfl
  rw [hframe]
  refine ⟨rfl, ?_⟩
  change ((args.filterMap Word.target?).foldl Frame.insert (Frame.fresh _)).handles = _
  rw [Frame.handles_foldl_insert, Frame.handles_fresh, List.nil_append]
  simp

/-! ### The end of a call -/

/-- What the end of a call answers to how its method ended, and the object that the caller comes to
hold by it. -/
def delivers (s : Session A) (callee : Env) : Answer Word → Answer Word × Option Handle
  | .error fault => (.error fault, none)
  | .ok word =>
    match word.target? with
    | none => (.ok word, none)
    | some h =>
      if h ∈ (s.machine.frame callee).handles then (.ok word, some h)
      else (.error (.notHeld h), none)

omit [Allocator A] in
theorem delivers_eq (s : Session A) (callee : Env) (outcome : Answer Word) :
    s.delivers callee outcome = (s.machine.checkResult callee outcome,
      (s.machine.checkResult callee outcome).toOption.bind Word.target?) := by
  rcases outcome with fault | word
  · rfl
  · unfold delivers Machine.checkResult
    cases htarget : word.target? with
    | none => simp [bind, Except.bind, htarget, pure, Except.pure, Except.toOption]
    | some h =>
      simp only [bind, Except.bind, htarget, Machine.checkHeld_eq]
      by_cases hheld : h ∈ (s.machine.frame callee).handles
      · simp [hheld, htarget, pure, Except.pure, Except.toOption]
      · simp [hheld, Except.toOption]

/-- How a call leaves the stack of its caller: as it was, but for an object that the caller has
gained. -/
structure CallOver (s s' : Session A) (caller : Env) (gained : Option Handle) : Prop where
  stack : (s'.calls.stack caller.stack).frames = (s.calls.stack caller.stack).frames
  others : ∀ f ∈ (s.calls.stack caller.stack).frames, f ≠ caller.frame →
    s'.calls.frame f = s.calls.frame f
  state : (s'.machine.frame caller).state = (s.machine.frame caller).state
  handles : (s'.machine.frame caller).handles = (s.machine.frame caller).handles ++
    (gained.filter (· ∉ (s.machine.frame caller).handles)).toList
  pushed : ∀ env ∈ s'.ledger.envs, env ∉ s.ledger.envs → env.stack = caller.stack →
    (s'.machine.frame env).state = .popped ∧ (s'.machine.frame env).handles = []

omit [Allocator A] in
/-- An environment that a session had not given out has a later frame than all it had. -/
theorem Grows.size_le (hgrows : Grows s s') (h : s.ledger.Tallies s.calls)
    (h' : s'.ledger.Tallies s'.calls) (henv : env ∈ s'.ledger.envs) (hnew : env ∉ s.ledger.envs) :
    s.calls.frames.size ≤ env.frame := by
  by_contra hlt
  have hmem : env.frame ∈ s.ledger.envs.map Env.frame :=
    h.numbered ▸ List.mem_range.2 (Nat.lt_of_not_le hlt)
  obtain ⟨env', henv', heq⟩ := List.mem_map.1 hmem
  exact hnew (h'.env_eq (hgrows.envs.subset henv') henv heq ▸ henv')

/-- Taking the callee off the stack ends the call, whether its result was settled before or not. -/
theorem callOver_of_popped (h : s.ledger.Tallies s.calls)
    (hon : caller.frame ∈ (s.calls.stack caller.stack).frames)
    {s₁ : Session A} (h₁ : s₁.ledger.Tallies s₁.calls)
    (hduring : During s caller (s.next caller) s₁) (hpermits : s₁.ledger.permits action)
    {result : Answer Word}
    (hcalls : (s₁.after t action).calls =
      (s₁.calls.settled caller.frame (s.next caller).frame result).pop caller.stack
        (s.next caller).frame)
    (henvs : (s₁.after t action).ledger.envs = s₁.ledger.envs) :
    CallOver s (s₁.after t action) caller (result.toOption.bind Word.target?) := by
  have h' := h₁.step (ledger_step (t := t) hpermits)
  obtain ⟨newer, hstack⟩ : ∃ newer, (s₁.calls.stack caller.stack).frames =
      (s.calls.stack caller.stack).frames ++ (s.next caller).frame :: newer := hduring.stack
  have hascending := h₁.ascending caller.stack
  have hsize := h₁.lt_size (h₁.nested _ _ hduring.pending).1
  have hlt : ∀ f ∈ (s.calls.stack caller.stack).frames, f < (s.next caller).frame := fun f hf =>
    h.lt_size (h.listed _ f hf).1
  have hframes : ((s₁.after t action).calls.stack caller.stack).frames =
      (s.calls.stack caller.stack).frames := by
    rw [hcalls, CallStacks.stack_pop, if_pos rfl, CallStacks.stack_settled]
    rw [hstack] at hascending ⊢
    exact takeWhile_ne_eq hascending
  have hsettled : ∀ f ∈ (s.calls.stack caller.stack).frames, (s₁.after t action).calls.frame f =
      if f = caller.frame then
        (result.toOption.bind Word.target?).elim (s.calls.frame f) (s.calls.frame f).insert
      else s.calls.frame f := by
    intro f hf
    rw [hcalls, CallStacks.frame_pop_of_lt (by rw [CallStacks.stack_settled]; exact hascending)
        (hlt f hf), CallStacks.frame_settled_of_ne (Nat.lt_trans (hlt _ hon) hsize) hsize
        (Nat.ne_of_lt (hlt _ hon)) (Nat.ne_of_lt (hlt f hf)), hduring.frame f hf]
  have hheld : (s₁.after t action).machine.frame caller =
      (result.toOption.bind Word.target?).elim (s.machine.frame caller)
        (s.machine.frame caller).insert := (hsettled _ hon).trans (if_pos rfl)
  refine ⟨hframes, fun f hf hne => (hsettled f hf).trans (if_neg hne), ?_, ?_,
    fun env henv hnew hk => ?_⟩
  · rw [hheld]
    cases result.toOption.bind Word.target? with
    | none => rfl
    | some h => exact Frame.state_insert
  · rw [hheld]
    cases result.toOption.bind Word.target? with
    | none => exact (List.append_nil _).symm
    | some h =>
      refine Frame.handles_insert.trans ?_
      by_cases hmem : h ∈ (s.machine.frame caller).handles
      · simp [hmem]
      · simp [hmem, Option.filter]
  · have hle := hduring.toGrows.size_le h h₁ (henvs ▸ henv) hnew
    have hinactive : ((s₁.after t action).calls.frame env.frame).state ≠ .active := by
      intro hactive
      have hmem := h'.onStack env henv hactive
      rw [hk, hframes] at hmem
      exact Nat.not_le.2 (hlt _ hmem) hle
    have hold : env ∈ s₁.ledger.envs := henvs ▸ henv
    refine ⟨popped_after h₁ hpermits
      (fun c e hcall heq => hduring.on_stack h₁ hold hk hle hcall heq)
      (fun _ => hduring.popped env hold hk hle) (h'.lt_size henv) hinactive, h'.emptied _ hinactive⟩

/-! ### From beginning to end -/

section Ran

variable {start : Machine A} {past : List Move} {s₁ : Session A}

/-- A session that moves within a call lead to is within the call. -/
theorem Inner.during (hstart : start.calls = .empty) (hran : Ran start past s)
    (hcaller : caller ∈ s.ledger.envs) (hfault : s.machine.callFault? caller args = none)
    (hinner : Inner (s.next caller) (s.after t (.beginCall caller name args)) s₁) :
    During s caller (s.next caller) s₁ ∧ ∃ past', Ran start past' s₁ := by
  have h := hran.tallies hstart
  have hbegun := hran.move t (.beginCall caller name args) hcaller
  induction hinner with
  | start => exact ⟨during_of_begun h hcaller hfault, _, hbegun⟩
  | move _ u action within ih =>
    obtain ⟨hduring, past', hran'⟩ := ih
    exact ⟨hduring.after h (hran'.tallies hstart) (hran'.dated hstart) within rfl, _,
      hran'.move u action within.permitted⟩

end Ran

end Session

end RootedHeap
