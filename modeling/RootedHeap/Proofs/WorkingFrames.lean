import RootedHeap.Proofs.GrantedOperations
import RootedHeap.Proofs.Transfers

/-!
The frame at work on a stack. It is on top of its stack and holds some objects, while the frame that
called it, if there is one, waits below and holds nothing: so all that the stack reaches is in reach
of the frame at work. A call without objects among its arguments hands the work to the callee, and
its end hands it back to the caller, which then holds what was returned and nothing else.
-/

namespace RootedHeap

namespace Session

variable {A : Type} {s s' : Session A} {t : Thread} {env who caller : Env} {host : Option Env}
  {held : List Handle} {width : Nat} {name : String} {args : List Word} {word : Word}

/-- Whether a frame is at work on the stack of another, called by a host that holds nothing or by
nobody, and holds just these objects. -/
structure WorkingFrame (env : Env) (host : Option Env) (who : Env) (held : List Handle)
    (s : Session A) :
    Prop where
  known : ∀ e ∈ host.toList ++ [who], e ∈ s.ledger.envs ∧ e.stack = env.stack
  frames : (s.calls.stack env.stack).frames = (host.toList ++ [who]).map Env.frame
  holds : (s.machine.frame who).handles = held
  idle : ∀ e ∈ host, (s.machine.frame e).handles = [] ∧ e.frame ≠ who.frame ∧
    (e, who) ∈ s.ledger.calls

namespace WorkingFrame

theorem who_known (h : s.WorkingFrame env host who held) :
    who ∈ s.ledger.envs ∧ who.stack = env.stack :=
  h.known who (List.mem_append_right _ (List.mem_singleton.2 rfl))

theorem host_known {e : Env} (h : s.WorkingFrame env (some e) who held) :
    e ∈ s.ledger.envs ∧ e.stack = env.stack :=
  h.known e List.mem_cons_self

theorem of_aloneHolding (h : s.AloneHolding env held) : s.WorkingFrame env none env held where
  known e he := by
    obtain rfl := List.mem_singleton.1 he
    exact ⟨h.known, rfl⟩
  frames := h.alone
  holds := h.holds
  idle _ := (nomatch ·)

/-- All that the frames of the stack hold is what the frame at work holds. -/
theorem stackRoots (h : s.WorkingFrame env host who held) :
    s.calls.stackRoots env.stack = held := by
  have hwho : (s.calls.frame who.frame).handles = held := h.holds
  rw [CallStacks.stackRoots, h.frames]
  cases host with
  | none => simp [hwho]
  | some e =>
    have he : (s.calls.frame e.frame).handles = [] := (h.idle e rfl).1
    simp [hwho, he]

/-- A frame is at work as before when nothing happens that its stack notices. -/
theorem unnoticed (h : s.WorkingFrame env host who held) (hun : s.Unnoticed env s') :
    s'.WorkingFrame env host who held where
  known e he := ⟨hun.known (h.known e he).1, (h.known e he).2⟩
  frames := (congrArg Stack.frames hun.stack).trans h.frames
  holds := (congrArg Frame.handles (hun.frame who h.who_known.1 h.who_known.2)).trans h.holds
  idle e he := by
    have hmem : e ∈ host.toList ++ [who] := List.mem_append_left _ (Option.mem_toList.2 he)
    obtain ⟨hknown, hstack⟩ := h.known e hmem
    obtain ⟨hempty, hne, hcall⟩ := h.idle e he
    rw [hun.frame e hknown hstack]
    exact ⟨hempty, hne, hun.pending _ hcall h.who_known.2⟩

theorem of_same (h : s.WorkingFrame env host who held) (hledger : s'.ledger = s.ledger)
    (hcalls : s'.calls = s.calls) : s'.WorkingFrame env host who held where
  known := hledger ▸ h.known
  frames := (congrArg (fun calls => (calls.stack env.stack).frames) hcalls).trans h.frames
  holds := (congrArg (fun calls => (calls.frame who.frame).handles) hcalls).trans h.holds
  idle e he := by
    have hframe : s'.machine.frame e = s.machine.frame e :=
      congrArg (fun calls => calls.frame e.frame) hcalls
    rw [hledger, hframe]
    exact h.idle e he

/-- The frame at work is edited. -/
theorem of_change (h : s.WorkingFrame env host who held) {edit : Frame → Frame}
    (hlt : who.frame < s.calls.frames.size) (hledger : s'.ledger = s.ledger)
    (hcalls : s'.calls = s.calls.change who.frame edit) :
    s'.WorkingFrame env host who (edit (s.machine.frame who)).handles where
  known := hledger ▸ h.known
  frames := by
    rw [hcalls, CallStacks.stack_change]
    exact h.frames
  holds := by
    have hframe : s'.machine.frame who = edit (s.machine.frame who) := by
      change s'.calls.frame who.frame = edit (s.calls.frame who.frame)
      rw [hcalls, CallStacks.frame_change hlt, if_pos rfl]
    rw [hframe]
  idle e he := by
    obtain ⟨hempty, hne, hcall⟩ := h.idle e he
    have hframe : s'.machine.frame e = s.machine.frame e := by
      change s'.calls.frame e.frame = s.calls.frame e.frame
      rw [hcalls, CallStacks.frame_change hlt, if_neg (Ne.symm hne)]
    rw [hframe, hledger]
    exact ⟨hempty, hne, hcall⟩

variable [Allocator A] [LawfulCollector A]

theorem active (h : s.WorkingFrame env host who held) (hs : s.WellFormed width) :
    (s.machine.frame who).state = .active := by
  have hmem : who.frame ∈ (s.calls.stack env.stack).frames := by
    rw [h.frames]
    exact List.mem_map_of_mem (List.mem_append_right _ (List.mem_singleton.2 rfl))
  exact (hs.tallies.listed env.stack who.frame hmem).2

theorem lt_size (h : s.WorkingFrame env host who held) (hs : s.WellFormed width) :
    who.frame < s.calls.frames.size :=
  hs.tallies.lt_size h.who_known.1

/-- The frame at work calls another, which starts with nothing. -/
theorem beginCall (h : s.WorkingFrame env none who []) (hs : s.WellFormed width) (t : Thread)
    (name : String) (hdepth : 2 ≤ s.machine.config.maxCallDepth)
    (hargs : args.filterMap Word.target? = []) :
    ∃ callee, s.reply t (.beginCall who name args) = .ok callee ∧
      (s.after t (.beginCall who name args)).WorkingFrame env (some who) callee [] := by
  obtain ⟨hknown, hstack⟩ := h.who_known
  have hframes : (s.calls.stack who.stack).frames = [who.frame] := hstack ▸ h.frames
  have hroom : s.calls.depth who.stack < s.machine.config.maxCallDepth := by
    rw [CallStacks.depth, hframes]
    exact hdepth
  have hfault : s.machine.callFault? who args = none := by
    rw [callFault?_eq (h.active hs) hroom, missing?, hargs]
    rfl
  have hreply : s.reply t (.beginCall who name args) = .ok (s.next who) := by
    rw [reply_beginCall, hfault]
    rfl
  have hcalls : (s.after t (.beginCall who name args)).calls = s.calls.opened who.stack [] := by
    rw [calls_after_beginCall hfault, hargs]
  have hledger : (s.after t (.beginCall who name args)).ledger =
      { s.ledger with
        envs := s.ledger.envs ++ [s.next who]
        calls := (who, s.next who) :: s.ledger.calls } := by
    rw [after, hreply]
    rfl
  have hne : who.frame ≠ s.calls.frames.size := Nat.ne_of_lt (h.lt_size hs)
  refine ⟨s.next who, hreply, fun e he => ?_, ?_, ?_, fun e he => ?_⟩
  · rw [hledger]
    rcases List.mem_cons.1 he with rfl | he
    · exact ⟨List.mem_append_left _ hknown, hstack⟩
    · obtain rfl := List.mem_singleton.1 he
      exact ⟨List.mem_append_right _ (List.mem_singleton.2 rfl), hstack⟩
  · rw [hcalls, ← hstack, CallStacks.stack_opened, if_pos ⟨rfl, hs.tallies.known who hknown⟩]
    exact congrArg (· ++ [s.calls.frames.size]) hframes
  · have hframe : (s.after t (.beginCall who name args)).calls.frame s.calls.frames.size =
        (Frame.fresh (s.calls.depth who.stack)).enter .active := by
      rw [hcalls, CallStacks.frame_opened, if_pos rfl]
      rfl
    exact congrArg Frame.handles hframe
  · obtain rfl := Option.some.inj he
    have hframe : (s.after t (.beginCall who name args)).calls.frame who.frame =
        s.calls.frame who.frame := by
      rw [hcalls, CallStacks.frame_opened, if_neg hne]
    refine ⟨(congrArg Frame.handles hframe).trans h.holds, hne, ?_⟩
    rw [hledger]
    exact List.mem_cons_self

/-- The frame at work returns what it holds, or data, and its host goes on with that. -/
theorem endCall (h : s.WorkingFrame env (some caller) who held) (hs : s.WellFormed width)
    (hreturn : ∀ o, word.target? = some o → o ∈ held) :
    s.reply t (.endCall caller who (.ok word)) = .ok word ∧
      (s.after t (.endCall caller who (.ok word))).WorkingFrame env none caller
        word.target?.toList := by
  obtain ⟨hempty, hne, -⟩ := h.idle caller rfl
  obtain ⟨hknown, hstack⟩ := h.host_known
  have hresult : s.machine.checkResult who (.ok word) = .ok word := by
    unfold Machine.checkResult
    cases htarget : word.target? with
    | none => simp [bind, Except.bind, htarget, pure, Except.pure]
    | some o =>
      have hheld : s.machine.checkHeld who o = .ok () :=
        Machine.checkHeld_of_mem (h.holds.symm ▸ hreturn o htarget)
      simp [bind, Except.bind, htarget, hheld, pure, Except.pure]
  obtain ⟨hreply, hcalls⟩ := after_endCall s t caller who (.ok word)
  rw [hresult] at hreply hcalls
  have hframes : (s.calls.stack who.stack).frames = [caller.frame, who.frame] :=
    h.who_known.2 ▸ h.frames
  have hbefore : caller.frame ≠ who.frame := hne
  have hempty : (s.calls.frame caller.frame).handles = [] := hempty
  have hstay : caller.frame ∉ [caller.frame, who.frame].dropWhile (· ≠ who.frame) := by
    simp [List.dropWhile, hbefore]
  refine ⟨hreply, fun e he => ?_, ?_, ?_, fun _ => (nomatch ·)⟩
  · obtain rfl := List.mem_singleton.1 he
    exact ⟨hknown, hstack⟩
  · rw [hcalls, ← h.who_known.2, CallStacks.stack_pop, if_pos rfl, CallStacks.stack_settled,
      hframes]
    simp [List.takeWhile, hbefore]
  · change ((s.after t (.endCall caller who (.ok word))).calls.frame caller.frame).handles = _
    rw [hcalls, CallStacks.frame_pop, CallStacks.stack_settled, hframes, if_neg hstay,
      CallStacks.frame_settled (hs.tallies.lt_size hknown) (h.lt_size hs) hbefore, if_neg hbefore,
      if_pos rfl]
    cases word.target? with
    | none => exact hempty
    | some o =>
      refine Frame.handles_insert.trans ?_
      rw [hempty]
      rfl

end WorkingFrame

end Session

end RootedHeap
