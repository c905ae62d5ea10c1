import RootedHeap.Proofs.Refusals
import RootedHeap.Proofs.Retirement
import RootedHeap.Proofs.StackReach

/-!
The discipline of call stacks. Whatever programs do, a frame is pushed at the depth that its stack
has, and a call is let in only below the greatest depth, so the frames of a stack are numbered from
its bottom and are not too many. If moreover calls nest, each one ending before those that began
earlier on its stack, then a callee is on its stack until its call ends, and a frame that has left
is popped, however it left.
-/

namespace RootedHeap

/-- The greatest number of frames on one stack; the entry frame always has room. -/
def MachineConfig.capacity (c : MachineConfig) : Nat := max 1 c.maxCallDepth

/-! ### Calls that nest -/

namespace Ledger

/-- The pending call that began last on a stack. -/
def latest (l : Ledger) (k : StackRef) : Option (Env × Env) := l.calls.find? (·.2.stack = k)

/-- Whether an action ends no call but the one that began last on its stack, and no run while a call
is pending on its stack. -/
def nests (l : Ledger) : Action → Bool
  | .endCall caller callee _ => l.latest callee.stack = some (caller, callee)
  | .abandonCall callee => (l.latest callee.stack).map Prod.snd = some callee
  | .endRun entry _ | .abandonRun entry => l.latest entry.stack = none
  | _ => true

end Ledger

/-- The stack on which an action ends a call or a run. -/
def Action.ends : Action → Option StackRef
  | .endCall _ callee _ | .abandonCall callee => some callee.stack
  | .endRun entry _ | .abandonRun entry => some entry.stack
  | _ => none

/-- Whether the calls of a history nest, on each stack by itself. -/
def nested : List Move → Bool
  | [] => true
  | move :: past => (Ledger.of past).nests move.action && nested past

/-! ### What a step does to a stack and to the records on it -/

namespace Ledger

variable {l l' : Ledger} {t t' : CallStacks} {gain : List Handle} {k : StackRef} {f : FrameRef}
  {env : Env}

/-- Tables in which a frame was pushed on a stack, and its environment given out. -/
structure Pushed (l l' : Ledger) (t t' : CallStacks) (k : StackRef) : Prop where
  frames : (t'.stack k).frames = (t.stack k).frames ++ [t.frames.size]
  depth : (t'.frame t.frames.size).depth = (t.stack k).frames.length
  envs : l'.envs = l.envs ++ [⟨k, t.frames.size⟩]

/-- A frame that is opened on top of a stack. -/
theorem Pushed.of_opened {t₀ : CallStacks} {s : StackRef} {objects : List Handle}
    (hs : s < t₀.known.size) (hframes : t₀.frames = t.frames)
    (hstack : (t₀.stack s).frames = (t.stack s).frames)
    (henvs : l'.envs = l.envs ++ [⟨s, t.frames.size⟩]) :
    Pushed l l' t (t₀.opened s objects) s where
  frames := by rw [CallStacks.stack_opened, if_pos ⟨rfl, hs⟩, ← hstack, ← hframes]
  depth := by
    rw [CallStacks.frame_opened, hframes, if_pos rfl]
    exact Frame.depth_foldl_insert.trans (congrArg List.length hstack)
  envs := henvs

namespace Tallies

/-- What a step does to a stack: it pushes a frame, leaves it alone, or leaves of it what is below
some frame. The last of these only if a call or a run ends. -/
theorem pushed_or_left (h : l.Tallies t) (hstep : l.Step t gain l' t') (k : StackRef) :
    Pushed l l' t t' k ∨ (t'.stack k).frames = (t.stack k).frames ∨
      (t'.stack k).frames <+: (t.stack k).frames ∧
        (l'.calls.length < l.calls.length ∨ l'.runs.length < l.runs.length) := by
  have hpop : ∀ {t₀ : CallStacks} {s : StackRef} {g : FrameRef},
      (t₀.stack k).frames = (t.stack k).frames →
        ((t₀.pop s g).stack k).frames <+: (t.stack k).frames := by
    intro t₀ s g hsame
    rw [← hsame]
    exact CallStacks.prefix_pop
  have hopened : ∀ {t₀ : CallStacks} {s : StackRef} {objects : List Handle}, s < t₀.known.size →
      t₀.frames = t.frames → (∀ k, (t₀.stack k).frames = (t.stack k).frames) →
        l'.envs = l.envs ++ [⟨s, t.frames.size⟩] →
          Pushed l l' t (t₀.opened s objects) k ∨
            ((t₀.opened s objects).stack k).frames = (t.stack k).frames := by
    intro t₀ s objects hs hframes hstack henvs
    by_cases hk : s = k
    · subst hk
      exact .inl (.of_opened hs hframes (hstack s) henvs)
    · rw [CallStacks.stack_opened, if_neg fun hh => hk hh.1, hstack]
      exact .inr rfl
  cases hstep with
  | idle => exact .inr (.inl rfl)
  | hold known active => exact .inr (.inl rfl)
  | release known active => exact .inr (.inl rfl)
  | beginCall known active handed =>
    exact (hopened (h.known _ known) rfl (fun _ => rfl) rfl).imp_right .inl
  | endCall pending returned =>
    exact .inr (.inr ⟨hpop (congrArg Stack.frames CallStacks.stack_settled),
      .inl (length_erase_lt pending)⟩)
  | abandonCall pending =>
    exact .inr (.inr ⟨hpop rfl, .inl (List.length_filter_lt_length_iff_exists.2
      ⟨_, pending, by simp only [ne_eq, not_true_eq_false, decide_false, Bool.false_eq_true,
        not_false_eq_true]⟩)⟩)
  | beginRun =>
    have hknown : t.known.size < t.register.2.known.size := by
      rw [CallStacks.known_size_register]
      exact Nat.lt_succ_self _
    exact (hopened hknown rfl (fun _ => CallStacks.frames_register) rfl).imp_right .inl
  | endRun begun => exact .inr (.inr ⟨hpop rfl, .inr (length_erase_lt begun)⟩)
  | abandonRun begun => exact .inr (.inl rfl)

theorem pushed_or_cut (h : l.Tallies t) (hstep : l.Step t gain l' t') (k : StackRef) :
    Pushed l l' t t' k ∨ (t'.stack k).frames <+: (t.stack k).frames := by
  rcases h.pushed_or_left hstep k with hpushed | hsame | ⟨hcut, -⟩
  · exact .inl hpushed
  · exact .inr (hsame ▸ List.prefix_rfl)
  · exact .inr hcut

/-- A step that ends neither a call nor a run leaves all frames on a stack. -/
theorem pushed_or_same (h : l.Tallies t) (hstep : l.Step t gain l' t')
    (hcalls : l.calls.length ≤ l'.calls.length) (hruns : l.runs.length ≤ l'.runs.length)
    (k : StackRef) : Pushed l l' t t' k ∨ (t'.stack k).frames = (t.stack k).frames := by
  rcases h.pushed_or_left hstep k with hpushed | hsame | ⟨-, hends⟩
  · exact .inl hpushed
  · exact .inr hsame
  · exact absurd hends (not_or.2 ⟨Nat.not_lt.2 hcalls, Nat.not_lt.2 hruns⟩)

end Tallies

/-! ### Pending calls -/

/-- Whether calls that began later have later frames. -/
def Dated (l : Ledger) : Prop := l.calls.Pairwise fun later earlier =>
  earlier.2.frame < later.2.frame

/-- The latest call on a stack is above the others that are pending there. -/
theorem Dated.latest_top (h : l.Dated) {call other : Env × Env} (hlatest : l.latest k = some call)
    (hother : other ∈ l.calls) (hk : other.2.stack = k) :
    other = call ∨ other.2.frame < call.2.frame := by
  obtain ⟨-, above, below, hcalls, habove⟩ := List.find?_eq_some_iff_append.1 hlatest
  rw [Dated, hcalls] at h
  rw [hcalls] at hother
  rcases List.mem_append.1 hother with hin | hin
  · have hnot := habove other hin
    simp only [hk, decide_true, Bool.not_true, Bool.false_eq_true] at hnot
  · rcases List.mem_cons.1 hin with rfl | hin
    · exact .inl rfl
    · exact .inr (List.rel_of_pairwise_cons (List.pairwise_append.1 h).2.1 hin)

theorem Dated.step (h : l.Dated) (htallies : l.Tallies t) (hstep : l.Step t gain l' t') :
    l'.Dated := by
  cases hstep with
  | beginCall known active handed =>
    refine List.pairwise_cons.2 ⟨fun call hcall => ?_, h⟩
    exact htallies.lt_size (htallies.nested call.1 call.2 hcall).1
  | endCall pending returned => exact h.sublist List.erase_sublist
  | abandonCall pending => exact h.sublist List.filter_sublist
  | _ => exact h

end Ledger

namespace Machine

variable {A : Type} {m : Machine A} {caller : Env} {args : List Word}

/-- A call is let in if its caller is running, there is room for one more frame, and the caller
holds all objects that it is to give. -/
theorem callFault?_eq_none : m.callFault? caller args = none ↔
    (m.frame caller).state = .active ∧ m.calls.depth caller.stack < m.config.maxCallDepth ∧
      ∀ h ∈ args.filterMap Word.target?, h ∈ (m.frame caller).handles := by
  unfold callFault?
  by_cases hactive : (m.frame caller).state = .active
  · by_cases hdepth : m.config.maxCallDepth ≤ m.calls.depth caller.stack
    · simp only [hactive, hdepth, ↓reduceIte, ne_eq, not_true_eq_false, reduceCtorEq, true_and,
        Nat.not_lt.2 hdepth, false_and]
    · simp only [hactive, hdepth, ↓reduceIte, ne_eq, not_true_eq_false, Option.map_eq_none_iff,
        List.find?_eq_none, Bool.not_eq_true', Bool.not_eq_false, Frame.holds_iff, true_and,
        Nat.lt_of_not_le hdepth]
  · simp only [hactive, ↓reduceIte, ne_eq, not_false_eq_true, reduceCtorEq, false_and]

end Machine

namespace Session

variable {A : Type} [Allocator A] {start : Machine A} {past : List Move} {s : Session A}
  {t : Thread} {action : Action} {k : StackRef} {f : FrameRef}

/-- A frame is pushed by a call that is let in, or by a run that begins, on a stack of its own. -/
theorem of_pushed (hpushed : s.ledger.Pushed (s.after t action).ledger s.calls
    (s.after t action).calls k) :
    (∃ caller name args, action = .beginCall caller name args ∧ caller.stack = k ∧
      s.machine.callFault? caller args = none) ∨
    ∃ name args, action = .beginRun name args ∧ k = s.calls.known.size := by
  have henvs := hpushed.envs
  have hsame : (s.after t action).ledger.envs ≠ s.ledger.envs := fun heq => by
    rw [heq] at henvs
    exact absurd (congrArg List.length henvs) (by simp)
  cases action with
  | beginCall caller name args =>
    have hreply := s.reply_beginCall t caller name args
    cases hfault : s.machine.callFault? caller args with
    | some fault =>
      rw [hfault] at hreply
      exact absurd (by rw [after, hreply]; rfl) hsame
    | none =>
      rw [hfault] at hreply
      rw [after, hreply] at henvs
      have henv := List.cons.inj (List.append_cancel_left henvs)
      exact .inl ⟨caller, name, args, rfl, congrArg Env.stack henv.1, hfault⟩
  | beginRun name args =>
    refine .inr ⟨name, args, rfl, ?_⟩
    have hreply := s.reply_beginRun t name args
    cases hargs : args.findSome? Word.target? with
    | some h =>
      rw [hargs] at hreply
      exact absurd (by rw [after, hreply]; rfl) hsame
    | none =>
      rw [hargs] at hreply
      rw [after, hreply] at henvs
      have henv := List.cons.inj (List.append_cancel_left henvs)
      exact (congrArg Env.stack henv.1).symm
  | _ => exact absurd rfl hsame

/-! ### Depths and lengths -/

/-- The frames of a stack are numbered from its bottom. -/
theorem Ran.depth_eq (hstart : start.calls = .empty) (hran : Ran start past s) {i : Nat}
    (hf : (s.calls.stack k).frames[i]? = some f) : (s.calls.frame f).depth = i := by
  induction hran generalizing k f i with
  | opening =>
    have hcalls : (Session.opening start).calls = .empty := hstart
    rw [hcalls] at hf
    cases hf
  | @move past s ran t action permitted ih =>
    have h := ran.tallies hstart
    have hstep := ledger_step (t := t) permitted
    have hold : (s.calls.stack k).frames[i]? = some f →
        ((s.after t action).calls.frame f).depth = i := fun hf => by
      rw [(h.turn hstep (h.lt_size (h.listed k f (List.mem_of_getElem? hf)).1)).depth_eq]
      exact ih hf
    rcases h.pushed_or_cut hstep k with hpushed | hcut
    · rw [hpushed.frames, List.getElem?_append] at hf
      split at hf
      · exact hold hf
      · -- the frame that was pushed
        rename_i hi
        rw [List.getElem?_singleton] at hf
        split at hf
        · rename_i hlast
          obtain rfl := Option.some.inj hf
          rw [hpushed.depth]
          omega
        · cases hf
    · obtain ⟨above, hframes⟩ := hcut
      refine hold ?_
      rw [← hframes, List.getElem?_append_left (List.getElem?_eq_some_iff.1 hf).1]
      exact hf

theorem Ran.config_eq (hran : Ran start past s) : s.machine.config = start.config := by
  induction hran with
  | opening => rfl
  | move _ _ _ _ ih => rw [config_after, ih]

theorem OrderlyOver.config_eq {allocator : A} {config : MachineConfig} {width : Nat}
    (hs : s.OrderlyOver allocator config width) : s.machine.config = config := by
  obtain ⟨⟨hbuild, -⟩, hran, -⟩ := hs
  exact hran.config_eq.trans (config_of_build hbuild)

/-- No stack is longer than its capacity. -/
theorem Ran.length_le (hstart : start.calls = .empty) (hran : Ran start past s) (k : StackRef) :
    (s.calls.stack k).frames.length ≤ start.config.capacity := by
  induction hran with
  | opening =>
    have hcalls : (Session.opening start).calls = .empty := hstart
    rw [hcalls]
    exact Nat.zero_le _
  | @move past s ran t action permitted ih =>
    have h := ran.tallies hstart
    rcases h.pushed_or_cut (ledger_step (t := t) permitted) k with hpushed | hcut
    · rw [hpushed.frames, List.length_append, List.length_singleton]
      rcases of_pushed hpushed with ⟨caller, name, args, -, rfl, hfault⟩ | ⟨name, args, -, rfl⟩
      · rw [← ran.config_eq]
        exact Nat.le_trans (Machine.callFault?_eq_none.1 hfault).2.1 (Nat.le_max_right _ _)
      · have hempty : (s.calls.stack s.calls.known.size).frames = [] := by
          rw [CallStacks.stack, Array.getElem?_eq_none (Nat.le_refl _)]
          rfl
        rw [hempty]
        exact Nat.le_max_left _ _
    · exact Nat.le_trans hcut.length_le ih

/-! ### Calls that nest -/

theorem Ran.dated (hstart : start.calls = .empty) (hran : Ran start past s) : s.ledger.Dated := by
  induction hran with
  | opening => exact List.Pairwise.nil
  | move ran t action permitted ih =>
    exact ih.step (ran.tallies hstart) (ledger_step permitted)

/-- An action that ends nothing on a stack leaves all frames on it. -/
theorem pushed_or_same_after (h : s.ledger.Tallies s.calls) (hpermits : s.ledger.permits action)
    (hk : action.ends ≠ some k) :
    s.ledger.Pushed (s.after t action).ledger s.calls (s.after t action).calls k ∨
      ((s.after t action).calls.stack k).frames = (s.calls.stack k).frames := by
  have hstep := ledger_step (t := t) hpermits
  have haside : action.stack s.calls ≠ k →
      ((s.after t action).calls.stack k).frames = (s.calls.stack k).frames := fun hne =>
    congrArg Stack.frames ((tablesStep h.toEnvsAgree h.nested hpermits).stack k (Ne.symm hne))
  cases action with
  | endCall caller callee outcome => exact .inr (haside fun heq => hk (congrArg some heq))
  | abandonCall callee => exact .inr (haside fun heq => hk (congrArg some heq))
  | endRun entry outcome => exact .inr (haside fun heq => hk (congrArg some heq))
  | abandonRun entry => exact .inr (haside fun heq => hk (congrArg some heq))
  | beginCall caller name args =>
    exact h.pushed_or_same hstep Ledger.length_calls_beginCall
      (Nat.le_of_eq (congrArg List.length Ledger.runs_beginCall.symm)) k
  | beginRun name args =>
    exact h.pushed_or_same hstep
      (Nat.le_of_eq (congrArg List.length Ledger.calls_beginRun.symm))
      Ledger.length_runs_beginRun k
  | _ => exact h.pushed_or_same hstep (Nat.le_refl _) (Nat.le_refl _) k

/-- A call that goes on when a later one on its stack ends keeps its frame there. -/
theorem mem_stack_after_of_ends (h : s.ledger.Tallies s.calls) (hdated : s.ledger.Dated)
    (hnests : s.ledger.nests action = true) {caller callee : Env}
    (hends : action.ends = some callee.stack) (hcall : (caller, callee) ∈ s.ledger.calls)
    (hleft : (caller, callee) ∈ (s.after t action).ledger.calls)
    (hon : callee.frame ∈ (s.calls.stack callee.stack).frames) :
    callee.frame ∈ ((s.after t action).calls.stack callee.stack).frames := by
  have hbelow : ∀ {g : FrameRef}, callee.frame < g →
      callee.frame ∈ (s.calls.stack callee.stack).frames.takeWhile (· ≠ g) := fun hlt =>
    (mem_takeWhile_ne_iff (h.ascending _)).2 ⟨hon, fun _ => hlt⟩
  have hnone : s.ledger.latest callee.stack ≠ none := fun hnone =>
    List.find?_eq_none.1 hnone _ hcall (decide_eq_true rfl)
  cases action with
  | endCall c e outcome =>
    have hstack : e.stack = callee.stack := Option.some.inj hends
    have hlatest : s.ledger.latest callee.stack = some (c, e) := hstack ▸ of_decide_eq_true hnests
    rcases hdated.latest_top hlatest hcall rfl with heq | hlt
    · obtain ⟨rfl, rfl⟩ := Prod.mk.inj heq
      have hnodup : s.ledger.calls.Nodup := hdated.imp fun hlt heq => by
        rw [heq] at hlt
        exact Nat.lt_irrefl _ hlt
      exact absurd hleft hnodup.not_mem_erase
    · rw [(after_endCall s t c e outcome).2, CallStacks.stack_pop, if_pos hstack,
        CallStacks.stack_settled]
      exact hbelow hlt
  | abandonCall e =>
    have hstack : e.stack = callee.stack := Option.some.inj hends
    have hlatest : (s.ledger.latest callee.stack).map Prod.snd = some e :=
      hstack ▸ of_decide_eq_true hnests
    obtain ⟨call, hcalled, rfl⟩ := Option.map_eq_some_iff.1 hlatest
    rcases hdated.latest_top hcalled hcall rfl with heq | hlt
    · subst heq
      exact absurd rfl (of_decide_eq_true (List.mem_filter.1 hleft).2)
    · show callee.frame ∈ ((s.calls.pop _ _).stack callee.stack).frames
      rw [CallStacks.stack_pop, if_pos hstack]
      exact hbelow hlt
  | endRun entry outcome =>
    have hstack : entry.stack = callee.stack := Option.some.inj hends
    exact absurd (hstack ▸ of_decide_eq_true hnests) hnone
  | abandonRun entry =>
    have hstack : entry.stack = callee.stack := Option.some.inj hends
    exact absurd (hstack ▸ of_decide_eq_true hnests) hnone
  | _ => cases hends

/-- A callee whose call goes on after a move was on its stack before it, and still is, or has just
begun to run there. Calls on that stack have to nest. -/
theorem mem_stack_after_of_pending (h : s.ledger.Tallies s.calls) (hdated : s.ledger.Dated)
    (hpermits : s.ledger.permits action) {caller callee : Env}
    (hnests : action.ends = some callee.stack → s.ledger.nests action = true)
    (hon : (caller, callee) ∈ s.ledger.calls →
      callee.frame ∈ (s.calls.stack callee.stack).frames)
    (hleft : (caller, callee) ∈ (s.after t action).ledger.calls) :
    callee.frame ∈ ((s.after t action).calls.stack callee.stack).frames := by
  have hstep := ledger_step (t := t) hpermits
  have h' := h.step hstep
  rcases Ledger.Tallies.pending_or_begun hstep hleft with hold | hactive
  · by_cases hends : action.ends = some callee.stack
    · exact mem_stack_after_of_ends h hdated (hnests hends) hends hold hleft (hon hold)
    · rcases pushed_or_same_after h hpermits hends with hpushed | hsame
      · rw [hpushed.frames]
        exact List.mem_append_left _ (hon hold)
      · rw [hsame]
        exact hon hold
  · exact h'.onStack callee (h'.nested caller callee hleft).1 hactive

/-- A frame that is not active after a move is popped if it was so before, unless a call to it ended
that had lost its frame. -/
theorem popped_after (h : s.ledger.Tallies s.calls) (hpermits : s.ledger.permits action)
    (hon : ∀ caller callee, (caller, callee) ∈ s.ledger.calls → callee.frame = f →
      f ∈ (s.calls.stack callee.stack).frames)
    (hpopped : f < s.calls.frames.size → (s.calls.frame f).state ≠ .active →
      (s.calls.frame f).state = .popped)
    (hsize : f < (s.after t action).calls.frames.size)
    (hf : ((s.after t action).calls.frame f).state ≠ .active) :
    ((s.after t action).calls.frame f).state = .popped := by
  have hstep := ledger_step (t := t) hpermits
  by_cases hold : f < s.calls.frames.size
  · by_cases hactive : (s.calls.frame f).state = .active
    · exact (h.turn hstep hold).popped hactive hf
    · have haccepts : action.accepts f (s.reply t action) = false := by
        refine Bool.eq_false_iff.2 fun haccepts => hactive ?_
        -- the call that ends was pending, so its frame was active
        cases action with
        | endCall caller callee outcome =>
          have hframe := of_decide_eq_true (Bool.and_eq_true_iff.1 haccepts).1
          exact (h.listed _ _ (hon caller callee hpermits hframe)).2
        | _ => cases haccepts
      rw [frame_after_of_inactive h hpermits hold hactive, haccepts]
      exact hpopped hold hactive
  · exact absurd (h.active_of_made hstep (Nat.le_of_not_lt hold) hsize) hf

/-- As long as calls nest, the frame of a callee is on its stack until the call ends. -/
theorem Ran.pending (hstart : start.calls = .empty) (hran : Ran start past s)
    (hnested : nested past = true) {caller callee : Env}
    (hcall : (caller, callee) ∈ s.ledger.calls) :
    callee.frame ∈ (s.calls.stack callee.stack).frames := by
  induction hran generalizing caller callee with
  | opening => cases hcall
  | @move past s ran t action permitted ih =>
    obtain ⟨hnests, hpast⟩ := Bool.and_eq_true_iff.1 hnested
    rw [← ran.ledger_eq] at hnests
    exact mem_stack_after_of_pending (ran.tallies hstart) (ran.dated hstart) permitted
      (fun _ => hnests) (ih hpast) hcall

/-- As long as calls nest, frames that are not active are popped. -/
theorem Ran.popped (hstart : start.calls = .empty) (hran : Ran start past s)
    (hnested : nested past = true) (hsize : f < s.calls.frames.size)
    (hf : (s.calls.frame f).state ≠ .active) : (s.calls.frame f).state = .popped := by
  induction hran with
  | opening =>
    have hcalls : (Session.opening start).calls = .empty := hstart
    rw [hcalls] at hsize
    exact absurd hsize (Nat.not_lt_zero f)
  | @move past s ran t action permitted ih =>
    have hpast := (Bool.and_eq_true_iff.1 hnested).2
    refine popped_after (ran.tallies hstart) permitted (fun caller callee hcall heq => ?_)
      (ih hpast) hsize hf
    exact heq ▸ ran.pending hstart hpast hcall

/-- The discipline of call stacks in a session, where stacks have room for so many frames. -/
structure Disciplined (s : Session A) (capacity : Nat) : Prop where
  depth : ∀ k i f, (s.calls.stack k).frames[i]? = some f → (s.calls.frame f).depth = i
  length : ∀ k, (s.calls.stack k).frames.length ≤ capacity
  active : ∀ k, ∀ f ∈ (s.calls.stack k).frames, (s.calls.frame f).state = .active
  pending : ∀ caller callee, (caller, callee) ∈ s.ledger.calls →
    callee.frame ∈ (s.calls.stack callee.stack).frames
  /-- What is over has left its stack, unless it is the entry of a run that was cut off. -/
  ended : ∀ env, s.ledger.Over env → env ∉ s.ledger.broken →
    ∀ k, env.frame ∉ (s.calls.stack k).frames
  /-- A frame that has left its stack, however it left, is popped and holds nothing. -/
  left : ∀ env ∈ s.ledger.envs, env.frame ∉ (s.calls.stack env.stack).frames →
    (s.calls.frame env.frame).state = .popped ∧ (s.calls.frame env.frame).handles = []

theorem Ran.disciplined (hstart : start.calls = .empty) (hran : Ran start past s)
    (hnested : nested past = true) : s.Disciplined start.config.capacity := by
  have h := hran.tallies hstart
  refine ⟨fun k i f => hran.depth_eq hstart, hran.length_le hstart,
    fun k f hf => (h.listed k f hf).2, fun caller callee => hran.pending hstart hnested, ?_, ?_⟩
  · rintro env ⟨henv, hruns, hcalls⟩ hbroken k hon
    rcases h.begun env henv (h.listed k _ hon).2 with hentry | ⟨caller, hcall⟩
    · exact (List.mem_append.1 hentry).elim hruns hbroken
    · exact hcalls caller hcall
  · intro env henv hoff
    have hinactive : (s.calls.frame env.frame).state ≠ .active := fun hactive =>
      hoff (h.onStack env henv hactive)
    exact ⟨hran.popped hstart hnested (h.lt_size henv) hinactive, h.emptied _ hinactive⟩

end Session

end RootedHeap
