import RootedHeap.Roots.CallStacks

/-!
The tables of frames and stacks, told by lookup. A frame's active list is a list of handles without
repetition that `insert` extends at its end and `remove` shortens; every change of the tables is
described by what `CallStacks.frame` and `CallStacks.stack` find afterwards.
-/

namespace RootedHeap

/-- A list without repetition may be extended by what is not in it. -/
theorem nodup_append_singleton {α : Type} {l : List α} {a : α} (hl : l.Nodup) (ha : a ∉ l) :
    (l ++ [a]).Nodup := by
  refine List.nodup_append.2 ⟨hl, List.pairwise_singleton _ a, ?_⟩
  rintro b hb c hc rfl
  exact ha (List.mem_singleton.1 hc ▸ hb)

end RootedHeap

namespace RootedHeap.Frame

variable {f : Frame} {h k : Handle}

theorem holds_iff : f.holds h = true ↔ h ∈ f.handles := by
  simp only [holds, handles, Array.contains_iff_mem, Array.mem_toList_iff]

theorem holds_eq_decide (f : Frame) (h : Handle) : f.holds h = decide (h ∈ f.handles) :=
  Bool.eq_iff_iff.2 (holds_iff.trans decide_eq_true_iff.symm)

theorem handles_insert :
    (f.insert h).handles = if h ∈ f.handles then f.handles else f.handles ++ [h] := by
  unfold insert
  by_cases hh : f.holds h = true
  · simp only [hh, ↓reduceIte, holds_iff.1 hh]
  · have hmem : h ∉ f.handles := fun hm => hh (holds_iff.2 hm)
    rw [if_neg hh, if_neg hmem, handles, handles, Array.toList_push]

theorem mem_handles_insert : k ∈ (f.insert h).handles ↔ k = h ∨ k ∈ f.handles := by
  rw [handles_insert]
  split
  · rename_i hh
    exact ⟨.inr, fun hk => hk.elim (fun e => e ▸ hh) id⟩
  · rw [List.mem_append, List.mem_singleton, or_comm]

theorem nodup_insert (hnodup : f.handles.Nodup) : (f.insert h).handles.Nodup := by
  rw [handles_insert]
  by_cases hh : h ∈ f.handles
  · rwa [if_pos hh]
  · rw [if_neg hh]
    exact nodup_append_singleton hnodup hh

theorem handles_remove : (f.remove h).handles = f.handles.erase h := by
  obtain ⟨depth, state, ⟨objects⟩⟩ := f
  simp only [remove, handles, List.erase_toArray]

theorem mem_of_mem_handles_remove (hk : k ∈ (f.remove h).handles) : k ∈ f.handles := by
  rw [handles_remove] at hk
  exact List.mem_of_mem_erase hk

@[simp] theorem state_insert : (f.insert h).state = f.state := by
  unfold insert
  split <;> rfl

@[simp] theorem depth_insert : (f.insert h).depth = f.depth := by
  unfold insert
  split <;> rfl

@[simp] theorem state_remove : (f.remove h).state = f.state := rfl

@[simp] theorem state_enter {state : FrameState} : (f.enter state).state = state := rfl

@[simp] theorem handles_retire : f.retire.handles = [] := rfl

@[simp] theorem retire_retire : f.retire.retire = f.retire := rfl

@[simp] theorem handles_fresh {depth : Nat} : (Frame.fresh depth).handles = [] := rfl

/-! ### Handing several objects over -/

variable {objects : List Handle}

theorem mem_handles_foldl_insert :
    k ∈ (objects.foldl insert f).handles ↔ k ∈ objects ∨ k ∈ f.handles := by
  induction objects generalizing f with
  | nil => simp only [List.foldl_nil, List.not_mem_nil, false_or]
  | cons h objects ih =>
    rw [List.foldl_cons, ih, mem_handles_insert, List.mem_cons, or_assoc, or_left_comm]

end RootedHeap.Frame

namespace RootedHeap.CallStacks

variable {t : CallStacks} {f g : FrameRef} {s k : StackRef} {edit : Frame → Frame}

theorem frame_of_size_le (hf : t.frames.size ≤ f) : t.frame f = (Frame.fresh 0).retire := by
  rw [frame, Array.getElem?_eq_none hf]
  rfl

theorem lt_size_of_active (hf : (t.frame f).state = .active) : f < t.frames.size := by
  refine Nat.lt_of_not_le fun hle => ?_
  rw [frame_of_size_le hle] at hf
  cases hf

/-! ### One frame changed -/

theorem frame_change (hf : f < t.frames.size) :
    (t.change f edit).frame g = if f = g then edit (t.frame g) else t.frame g := by
  simp only [frame, change, Array.getElem?_modify]
  by_cases hg : f = g
  · subst hg
    simp only [↓reduceIte, Array.getElem?_eq_getElem hf, Option.map_some, Option.getD_some]
  · simp only [hg, ↓reduceIte]

/-- A change to one frame leaves the others, whether there is such a frame or not. -/
theorem frame_change_of_ne (hne : f ≠ g) : (t.change f edit).frame g = t.frame g := by
  simp only [frame, change, Array.getElem?_modify, hne, ↓reduceIte]

/-- A change to a frame that was never made changes nothing. -/
theorem change_of_size_le (hf : t.frames.size ≤ f) : t.change f edit = t := by
  have hframes : t.frames.modify f edit = t.frames := by
    refine Array.ext Array.size_modify fun g hg hg' => ?_
    rw [Array.getElem_modify, if_neg]
    rintro rfl
    exact absurd hg' (Nat.not_lt.2 hf)
  rw [change, hframes]

@[simp] theorem size_change : (t.change f edit).frames.size = t.frames.size := Array.size_modify

@[simp] theorem stack_change : (t.change f edit).stack s = t.stack s := rfl

@[simp] theorem known_change : (t.change f edit).known = t.known := rfl

@[simp] theorem registered_change : (t.change f edit).registered = t.registered := rfl

@[simp] theorem nextId_change : (t.change f edit).nextId = t.nextId := rfl

/-! ### Frames retired -/

variable {fs : List FrameRef}

theorem frame_change_retire :
    (t.change f Frame.retire).frame g = if f = g then (t.frame g).retire else t.frame g := by
  rcases Nat.lt_or_ge f t.frames.size with hf | hf
  · exact frame_change hf
  · simp only [frame, change, Array.getElem?_modify]
    by_cases hg : f = g
    · subst hg
      simp only [↓reduceIte, Array.getElem?_eq_none hf, Option.map_none, Option.getD_none,
        Frame.retire_retire]
    · simp only [hg, ↓reduceIte]

theorem frame_retireAll :
    (t.retireAll fs).frame g = if g ∈ fs then (t.frame g).retire else t.frame g := by
  induction fs generalizing t with
  | nil => rfl
  | cons f fs ih =>
    rw [retireAll, ih, frame_change_retire]
    by_cases hg : f = g
    · subst hg
      simp only [↓reduceIte, Frame.retire_retire, ite_self, List.mem_cons, true_or]
    · simp only [hg, ↓reduceIte, List.mem_cons, Ne.symm hg, false_or]

@[simp] theorem size_retireAll : (t.retireAll fs).frames.size = t.frames.size := by
  induction fs generalizing t with
  | nil => rfl
  | cons f fs ih => rw [retireAll, ih, size_change]

@[simp] theorem known_retireAll : (t.retireAll fs).known = t.known := by
  induction fs generalizing t with
  | nil => rfl
  | cons f fs ih => rw [retireAll, ih, known_change]

@[simp] theorem registered_retireAll : (t.retireAll fs).registered = t.registered := by
  induction fs generalizing t with
  | nil => rfl
  | cons f fs ih => rw [retireAll, ih, registered_change]

@[simp] theorem nextId_retireAll : (t.retireAll fs).nextId = t.nextId := by
  induction fs generalizing t with
  | nil => rfl
  | cons f fs ih => rw [retireAll, ih, nextId_change]

/-! ### Popping -/

section Parts

variable {below above : List FrameRef}

theorem takeWhile_ne_append (hf : f ∉ below) :
    (below ++ f :: above).takeWhile (· ≠ f) = below := by
  have hne : ∀ g ∈ below, decide (g ≠ f) = true := fun g hg =>
    decide_eq_true fun heq => hf (heq ▸ hg)
  rw [List.takeWhile_append_of_pos hne, List.takeWhile_cons_of_neg (by simp), List.append_nil]

theorem dropWhile_ne_append (hf : f ∉ below) :
    (below ++ f :: above).dropWhile (· ≠ f) = f :: above := by
  have hne : ∀ g ∈ below, decide (g ≠ f) = true := fun g hg =>
    decide_eq_true fun heq => hf (heq ▸ hg)
  rw [List.dropWhile_append_of_pos hne, List.dropWhile_cons_of_neg (by simp)]

end Parts

theorem frame_pop :
    (t.pop s f).frame g =
      if g ∈ (t.stack s).frames.dropWhile (· ≠ f) then (t.frame g).retire else t.frame g :=
  frame_retireAll

theorem stack_pop :
    (t.pop s f).stack k =
      if s = k then { t.stack k with frames := (t.stack k).frames.takeWhile (· ≠ f) }
      else t.stack k := by
  simp only [pop, stack, known_retireAll, Array.getElem?_modify]
  by_cases hk : s = k
  · subst hk
    cases t.known[s]? with
    | none => simp only [↓reduceIte, Option.map_none, Option.getD_none, List.takeWhile_nil]
    | some stack => simp only [↓reduceIte, Option.map_some, Option.getD_some]
  · simp only [hk, ↓reduceIte]

theorem prefix_pop : ((t.pop s f).stack k).frames <+: (t.stack k).frames := by
  rw [stack_pop]
  split
  · exact List.takeWhile_prefix _
  · exact List.prefix_rfl

theorem known_pop :
    (t.pop s f).known =
      t.known.modify s fun k => { k with frames := (t.stack s).frames.takeWhile (· ≠ f) } :=
  known_retireAll

@[simp] theorem size_pop : (t.pop s f).frames.size = t.frames.size := by
  rw [pop, size_retireAll]

@[simp] theorem known_size_pop : (t.pop s f).known.size = t.known.size := by
  rw [known_pop, Array.size_modify]

@[simp] theorem registered_pop : (t.pop s f).registered = t.registered := by
  rw [pop, registered_retireAll]

@[simp] theorem nextId_pop : (t.pop s f).nextId = t.nextId := by
  rw [pop, nextId_retireAll]

/-- A frame is looked for on the one stack only, and a pop that does not find it changes nothing. -/
theorem pop_of_not_mem (hf : f ∉ (t.stack s).frames) : t.pop s f = t := by
  have hne : ∀ g ∈ (t.stack s).frames, decide (g ≠ f) = true := fun g hg =>
    decide_eq_true fun heq => hf (heq ▸ hg)
  have htake : ((t.stack s).frames ++ []).takeWhile (· ≠ f) = (t.stack s).frames ++ [] :=
    List.takeWhile_append_of_pos hne
  have hdrop : ((t.stack s).frames ++ []).dropWhile (· ≠ f) = [] :=
    List.dropWhile_append_of_pos hne
  rw [List.append_nil] at htake hdrop
  have hknown : (t.known.modify s fun k => { k with frames := (t.stack s).frames }) = t.known := by
    refine Array.ext Array.size_modify fun k hk hk' => ?_
    rw [Array.getElem_modify]
    split
    · rename_i heq
      subst heq
      have hstack : t.stack s = t.known[s] := by
        simp only [stack, Array.getElem?_eq_getElem hk', Option.getD_some]
      exact congrArg (fun k : Stack => { t.known[s] with frames := k.frames }) hstack
    · rfl
  rw [pop, hdrop, htake, hknown, retireAll]

/-! ### A new frame or stack -/

theorem frame_push :
    (t.push s).2.frame g = if g = t.frames.size then Frame.fresh (t.depth s) else t.frame g := by
  simp only [push, addFrame, frame, Array.getElem?_push]
  split <;> rfl

theorem stack_push :
    (t.push s).2.stack k =
      if s = k ∧ s < t.known.size then
        { t.stack k with frames := (t.stack k).frames ++ [t.frames.size] }
      else t.stack k := by
  simp only [push, addFrame, stack, Array.getElem?_modify]
  by_cases hk : s = k
  · subst hk
    by_cases hs : s < t.known.size
    · simp only [hs, and_true, ↓reduceIte, Array.getElem?_eq_getElem, Option.map_some,
        Option.getD_some]
    · simp only [hs, and_false, ↓reduceIte, Array.getElem?_eq_none (Nat.le_of_not_lt hs),
        Option.map_none]
  · simp only [hk, ↓reduceIte, false_and]

@[simp] theorem size_push : (t.push s).2.frames.size = t.frames.size + 1 := Array.size_push _

@[simp] theorem known_size_push : (t.push s).2.known.size = t.known.size := Array.size_modify

theorem frame_addFrame {frame : Frame} :
    (t.addFrame frame).2.frame g = if g = t.frames.size then frame else t.frame g := by
  simp only [addFrame, CallStacks.frame, Array.getElem?_push]
  split <;> rfl

theorem stack_addStack {id : Nat} :
    (t.addStack id).2.stack k = if k = t.known.size then ⟨id, []⟩ else t.stack k := by
  simp only [addStack, stack, Array.getElem?_push]
  split <;> rfl

theorem stack_register :
    t.register.2.stack k = if k = t.known.size then ⟨t.nextId, []⟩ else t.stack k :=
  stack_addStack

@[simp] theorem known_size_register : t.register.2.known.size = t.known.size + 1 :=
  Array.size_push _

@[simp] theorem registered_register :
    t.register.2.registered = t.registered ++ [t.known.size] := rfl

variable {id : Nat}

@[simp] theorem known_unregister : (t.unregister id).known = t.known := rfl

theorem mem_registered_unregister :
    k ∈ (t.unregister id).registered ↔ k ∈ t.registered ∧ (t.stack k).id ≠ id := by
  simp only [unregister, List.mem_filter, decide_eq_true_eq]

/-! ### Roots -/

theorem mem_roots_iff {h : Handle} :
    h ∈ t.roots ↔ ∃ s ∈ t.registered, ∃ f ∈ (t.stack s).frames, h ∈ (t.frame f).handles := by
  simp only [roots, stackRoots, List.mem_flatMap]

/-- A stack that was just made has no frames, and before it was made it had none either. -/
theorem frames_addStack {id : Nat} : ((t.addStack id).2.stack k).frames = (t.stack k).frames := by
  rw [stack_addStack]
  split
  · rename_i hk
    rw [stack, Array.getElem?_eq_none (Nat.le_of_eq hk.symm)]
    rfl
  · rfl

theorem prefix_addStack {id : Nat} :
    ((t.addStack id).2.stack k).frames <+: (t.stack k).frames :=
  ⟨[], (List.append_nil _).trans frames_addStack⟩

theorem frames_register {k : StackRef} : (t.register.2.stack k).frames = (t.stack k).frames :=
  frames_addStack

theorem roots_register : t.register.2.roots = t.roots := by
  have hstack : ∀ k, t.register.2.stackRoots k = t.stackRoots k := fun k => by
    rw [stackRoots, stackRoots, frames_register]
    rfl
  have hnew : t.stackRoots t.known.size = [] := by
    rw [stackRoots, stack, Array.getElem?_eq_none (Nat.le_refl _)]
    rfl
  rw [roots, registered_register, List.flatMap_append, roots]
  simp [funext hstack, hnew]

/-- Stacks without frames are not missed among the roots. -/
theorem roots_unregister {id : Nat}
    (hempty : ∀ k ∈ t.registered, (t.stack k).id = id → (t.stack k).frames = []) :
    (t.unregister id).roots = t.roots := by
  have hroots : ∀ listed : List StackRef,
      (∀ k ∈ listed, (t.stack k).id = id → (t.stack k).frames = []) →
        (listed.filter fun k => (t.stack k).id ≠ id).flatMap t.stackRoots =
          listed.flatMap t.stackRoots := by
    intro listed
    induction listed with
    | nil => simp
    | cons k listed ih =>
      intro hstacks
      have hrest := ih fun k hk => hstacks k (List.mem_cons_of_mem _ hk)
      by_cases hk : (t.stack k).id = id
      · have hnone := hstacks k List.mem_cons_self hk
        simpa [hk, stackRoots, hnone] using hrest
      · simpa [hk] using hrest
  exact hroots t.registered hempty

end RootedHeap.CallStacks
