import RootedHeap.Proofs.Tallies

/-!
What becomes of frames. `Frame.Turn` lists all that a step can make of the record of a frame that
was there before it, each with the state in which that can happen; a frame that was not there before
is active after the step that made it. What is said later of depths and states is read off that
list.
-/

namespace RootedHeap

namespace Frame

variable {frame frame' : Frame} {objects : List Handle} {ends : Prop}

theorem retire_insert {h : Handle} : (frame.insert h).retire = frame.retire := by
  rw [retire, retire, clear, clear, enter, enter, depth_insert]

theorem retire_foldl_insert : (objects.foldl Frame.insert frame).retire = frame.retire := by
  induction objects generalizing frame with
  | nil => rfl
  | cons h objects ih => rw [List.foldl_cons, ih, retire_insert]

theorem depth_foldl_insert : (objects.foldl Frame.insert frame).depth = frame.depth := by
  induction objects generalizing frame with
  | nil => rfl
  | cons h objects ih => rw [List.foldl_cons, ih, depth_insert]

/-- What becomes of the record of a frame in a step, which may end a call. -/
inductive Turn (ends : Prop) (frame : Frame) : Frame → Prop
  | kept : Turn ends frame frame
  | held (active : frame.state = .active) (h : Handle) : Turn ends frame (frame.insert h)
  | released (active : frame.state = .active) (h : Handle) : Turn ends frame (frame.remove h)
  | leaves (active : frame.state = .active) : Turn ends frame frame.retire
  | accepted (inactive : frame.state ≠ .active) (ended : ends) :
    Turn ends frame (frame.enter .returning)

namespace Turn

theorem depth_eq (h : frame.Turn ends frame') : frame'.depth = frame.depth := by
  cases h with
  | held active h => exact depth_insert
  | _ => rfl

/-- A frame that ceases to be active is popped. -/
theorem popped (h : frame.Turn ends frame') (hactive : frame.state = .active)
    (hceased : frame'.state ≠ .active) : frame'.state = .popped := by
  cases h with
  | kept => exact absurd hactive hceased
  | held active h => exact absurd (state_insert.trans hactive) hceased
  | released active h => exact absurd (state_remove.trans hactive) hceased
  | leaves active => rfl
  | accepted inactive ended => exact absurd hactive inactive

/-- Where no call ends, a frame that is not active is left as it is. -/
theorem eq_of_inactive (h : frame.Turn ends frame') (hends : ¬ ends)
    (hinactive : frame.state ≠ .active) : frame' = frame := by
  cases h with
  | kept => rfl
  | held active h => exact absurd active hinactive
  | released active h => exact absurd active hinactive
  | leaves active => exact absurd active hinactive
  | accepted inactive ended => exact absurd ended hends

end Turn

end Frame

namespace Ledger

variable {l l' : Ledger} {t t' : CallStacks} {gain : List Handle} {caller callee env : Env}
  {f : FrameRef} {ends : Prop} {result : Answer Word}

theorem length_erase_lt {α : Type} [BEq α] [LawfulBEq α] {L : List α} {a : α} (ha : a ∈ L) :
    (L.erase a).length < L.length := by
  rw [List.length_erase_of_mem ha]
  exact Nat.sub_lt (List.length_pos_of_mem ha) Nat.one_pos

namespace Tallies

theorem turn_pop (h : l.Tallies t) {s : StackRef} {g : FrameRef} :
    (t.frame f).Turn ends ((t.pop s g).frame f) := by
  rw [CallStacks.frame_pop]
  split
  · rename_i hmem
    exact .leaves (h.listed s f ((List.dropWhile_sublist _).subset hmem)).2
  · exact .kept

/-- A frame that is not active is not among those that leave a stack. -/
theorem frame_pop_of_inactive (h : l.Tallies t) (hf : (t.frame f).state ≠ .active) {s : StackRef}
    {g : FrameRef} : (t.pop s g).frame f = t.frame f := by
  have hturn : (t.frame f).Turn False ((t.pop s g).frame f) := h.turn_pop
  exact hturn.eq_of_inactive id hf

/-- The end of a call marks the callee as returning if the result was accepted, and does nothing
else to frames that are not active. -/
theorem frame_endCall_of_inactive (h : l.Tallies t) (hpending : (caller, callee) ∈ l.calls)
    (hreturned : ∀ word o, result = .ok word → word.target? = some o →
      o ∈ (t.frame callee.frame).handles)
    (hf : (t.frame f).state ≠ .active) :
    ((t.settled caller.frame callee.frame result).pop callee.stack callee.frame).frame f =
      if callee.frame = f ∧ result.isOk then (t.frame f).enter .returning else t.frame f := by
  obtain ⟨hcallee, -, hlt, hbelow⟩ := h.nested caller callee hpending
  have hsize := h.lt_size hcallee
  have hoff : f ∉ (t.stack callee.stack).frames.dropWhile (· ≠ callee.frame) := fun hmem =>
    hf (h.listed _ f ((List.dropWhile_sublist _).subset hmem)).2
  rw [CallStacks.frame_pop, CallStacks.stack_settled, if_neg hoff]
  cases result with
  | error fault => exact (if_neg fun hok => nomatch hok.2).symm
  | ok word =>
    have hok : (Except.ok word : Answer Word).isOk = true := rfl
    rw [CallStacks.frame_settled (Nat.lt_trans hlt hsize) hsize (Nat.ne_of_lt hlt)]
    simp only [hok, and_true, @eq_comm _ callee.frame]
    split
    · rfl
    · split
      · rename_i hcaller
        cases htarget : word.target? with
        | none => rfl
        | some o =>
          -- what is returned shows that the callee is on the stack, and so is its caller
          have hactive := h.active_of_held (hreturned word o rfl htarget)
          have hon := (h.listed _ _ (hbelow (h.onStack callee hcallee hactive))).2
          exact absurd (hcaller ▸ hon) hf
      · rfl

/-- What the end of a call does to active frames: the callee leaves its stack with all above it, and
the caller holds what is returned. -/
theorem turn_endCall_of_active (h : l.Tallies t) (hpending : (caller, callee) ∈ l.calls)
    (hf : (t.frame f).state = .active) :
    (t.frame f).Turn ends
      (((t.settled caller.frame callee.frame result).pop callee.stack callee.frame).frame f) := by
  obtain ⟨hcallee, -, hlt, -⟩ := h.nested caller callee hpending
  have hsize := h.lt_size hcallee
  rw [CallStacks.frame_pop, CallStacks.stack_settled]
  cases result with
  | error fault =>
    split
    · exact .leaves hf
    · exact .kept
  | ok word =>
    rw [CallStacks.frame_settled (Nat.lt_trans hlt hsize) hsize (Nat.ne_of_lt hlt)]
    by_cases hcall : f = callee.frame
    · -- an active callee is on its stack, and leaves it
      subst hcall
      have hon := h.onStack callee hcallee hf
      rw [if_pos ((mem_dropWhile_ne_iff (h.ascending _)).2 ⟨hon, hon, Nat.le_refl _⟩), if_pos rfl]
      exact .leaves hf
    · rw [if_neg hcall]
      by_cases hcaller : f = caller.frame
      · rw [if_pos hcaller]
        cases word.target? with
        | none =>
          split
          · exact .leaves hf
          · exact .kept
        | some o =>
          split
          · show Frame.Turn ends _ ((t.frame f).insert o).retire
            rw [Frame.retire_insert]
            exact .leaves hf
          · exact .held hf o
      · rw [if_neg hcaller]
        split
        · exact .leaves hf
        · exact .kept

/-- What a step does to a frame that was there before it. -/
theorem turn (h : l.Tallies t) (hstep : l.Step t gain l' t') (hf : f < t.frames.size) :
    (t.frame f).Turn (l'.calls.length < l.calls.length) (t'.frame f) := by
  have hopened : ∀ {t₀ : CallStacks} {s : StackRef} {objects : List Handle} {ends : Prop},
      t₀.frames = t.frames → (t.frame f).Turn ends ((t₀.opened s objects).frame f) := by
    intro t₀ s objects ends hframes
    have hsame : t₀.frame f = t.frame f := by rw [CallStacks.frame, hframes, CallStacks.frame]
    rw [CallStacks.frame_opened, hframes, if_neg (Nat.ne_of_lt hf), hsame]
    exact .kept
  cases hstep with
  | idle => exact .kept
  | @hold env o known active =>
    rw [CallStacks.frame_change (CallStacks.lt_size_of_active active)]
    split
    · rename_i heq
      exact .held (heq ▸ active) o
    · exact .kept
  | @release env o known active =>
    rw [CallStacks.frame_change (CallStacks.lt_size_of_active active)]
    split
    · rename_i heq
      exact .released (heq ▸ active) o
    · exact .kept
  | beginCall known active handed => exact hopened rfl
  | endCall pending returned =>
    by_cases hactive : (t.frame f).state = .active
    · exact h.turn_endCall_of_active pending hactive
    · rw [h.frame_endCall_of_inactive pending returned hactive]
      split
      · exact .accepted hactive (length_erase_lt pending)
      · exact .kept
  | abandonCall pending => exact h.turn_pop
  | beginRun => exact hopened rfl
  | endRun begun => exact h.turn_pop
  | abandonRun begun => exact .kept

/-- An environment that is known was known before, or its frame has just begun to run. -/
theorem known_or_begun (hstep : l.Step t gain l' t') (henv : env ∈ l'.envs) :
    env ∈ l.envs ∨ (t'.frame env.frame).state = .active := by
  have hopened : ∀ {t₀ : CallStacks} {s : StackRef} {objects : List Handle},
      t₀.frames = t.frames → env ∈ l.envs ++ [⟨s, t.frames.size⟩] →
        env ∈ l.envs ∨ ((t₀.opened s objects).frame env.frame).state = .active := by
    intro t₀ s objects hframes henv
    refine (List.mem_append.1 henv).imp_right fun hnew => EnvsAgree.active_opened.2 (.inl ?_)
    rw [hframes, List.mem_singleton.1 hnew]
  cases hstep with
  | beginCall known active handed => exact hopened rfl henv
  | beginRun => exact hopened rfl henv
  | _ => exact .inl henv

/-- A frame that was not there before has just begun to run. -/
theorem active_of_made (h : l.Tallies t) (hstep : l.Step t gain l' t') (hold : t.frames.size ≤ f)
    (hnew : f < t'.frames.size) : (t'.frame f).state = .active := by
  have hmem : f ∈ l'.envs.map Env.frame := (h.step hstep).numbered ▸ List.mem_range.2 hnew
  obtain ⟨env, henv, rfl⟩ := List.mem_map.1 hmem
  exact (known_or_begun hstep henv).resolve_left fun hknown =>
    Nat.not_lt.2 hold (h.lt_size hknown)

/-- A call that is pending was pending before, or its callee has just begun to run. -/
theorem pending_or_begun (hstep : l.Step t gain l' t') {call : Env × Env}
    (hcall : call ∈ l'.calls) : call ∈ l.calls ∨ (t'.frame call.2.frame).state = .active := by
  cases hstep with
  | beginCall known active handed =>
    rcases List.mem_cons.1 hcall with rfl | hold
    · exact .inr (EnvsAgree.active_opened.2 (.inl rfl))
    · exact .inl hold
  | endCall pending returned => exact .inl (List.mem_of_mem_erase hcall)
  | abandonCall pending => exact .inl (List.mem_of_mem_filter hcall)
  | _ => exact .inl hcall

end Tallies

end Ledger

end RootedHeap
