import Mathlib.Data.List.Nodup
import RootedHeap.Proofs.Sessions

/-!
How the tables of frames and stacks stand to what programs have in their hands. `EnvsAgree` is about
frames: each was given out under one environment, the active ones are those on a stack, and a stack
is ascending, so that what leaves with a frame is what is not smaller. `Ledger.Tallies` adds calls
and runs: a caller stands below its callee, a stack starts with the entry of its run, and the
registered stacks are those of the runs that have begun and not ended. Every step keeps the tally,
so it holds in every session.
-/

namespace RootedHeap

/-! ### Before and from an element on -/

section Ascending

variable {L : List FrameRef} {f g : FrameRef}

/-- Before an element of an ascending list stand the smaller ones. -/
theorem mem_takeWhile_ne_iff (hL : L.Pairwise (· < ·)) :
    g ∈ L.takeWhile (· ≠ f) ↔ g ∈ L ∧ (f ∈ L → g < f) := by
  induction L with
  | nil => simp only [List.takeWhile_nil, List.not_mem_nil, false_and]
  | cons x L ih =>
    have hx : ∀ y ∈ L, x < y := fun _ => List.rel_of_pairwise_cons hL
    by_cases hxf : x = f
    · subst hxf
      simp only [ne_eq, not_true_eq_false, decide_false, Bool.false_eq_true, not_false_eq_true,
        List.takeWhile_cons_of_neg, List.not_mem_nil, List.mem_cons, true_or, forall_const,
        false_iff, not_and, Nat.not_lt]
      rintro (rfl | hg)
      · exact Nat.le_refl _
      · exact Nat.le_of_lt (hx g hg)
    · rw [List.takeWhile_cons_of_pos (by simpa only [decide_eq_true_eq] using hxf), List.mem_cons,
        List.mem_cons, ih hL.of_cons, List.mem_cons]
      constructor
      · rintro (rfl | ⟨hg, hlt⟩)
        · exact ⟨.inl rfl, fun hf => hx f (hf.resolve_left (Ne.symm hxf))⟩
        · exact ⟨.inr hg, fun hf => hlt (hf.resolve_left (Ne.symm hxf))⟩
      · rintro ⟨rfl | hg, hlt⟩
        · exact .inl rfl
        · exact .inr ⟨hg, fun hf => hlt (.inr hf)⟩

/-- From an element of an ascending list on stand those that are not smaller. -/
theorem mem_dropWhile_ne_iff (hL : L.Pairwise (· < ·)) :
    g ∈ L.dropWhile (· ≠ f) ↔ g ∈ L ∧ f ∈ L ∧ f ≤ g := by
  induction L with
  | nil => simp only [List.dropWhile_nil, List.not_mem_nil, false_and]
  | cons x L ih =>
    have hx : ∀ y ∈ L, x < y := fun _ => List.rel_of_pairwise_cons hL
    by_cases hxf : x = f
    · subst hxf
      rw [List.dropWhile_cons_of_neg (by simp only [ne_eq, not_true_eq_false, decide_false,
        Bool.false_eq_true, not_false_eq_true])]
      refine ⟨fun hg => ⟨hg, List.mem_cons_self, ?_⟩, And.left⟩
      rcases List.mem_cons.1 hg with rfl | hg
      · exact Nat.le_refl _
      · exact Nat.le_of_lt (hx g hg)
    · rw [List.dropWhile_cons_of_pos (by simpa only [decide_eq_true_eq] using hxf), ih hL.of_cons,
        List.mem_cons, List.mem_cons]
      constructor
      · rintro ⟨hg, hf, hle⟩
        exact ⟨.inr hg, .inr hf, hle⟩
      · rintro ⟨hg, hf, hle⟩
        have hfL : f ∈ L := hf.resolve_left (Ne.symm hxf)
        refine ⟨hg.resolve_left ?_, hfL, hle⟩
        rintro rfl
        exact absurd (hx f hfL) (Nat.not_lt.2 hle)

theorem le_of_head?_eq {L : List FrameRef} (hL : L.Pairwise (· < ·)) (hhead : L.head? = some f)
    (hg : g ∈ L) : f ≤ g := by
  cases L with
  | nil => cases hg
  | cons x L =>
    obtain rfl := Option.some.inj hhead
    rcases List.mem_cons.1 hg with rfl | hg
    · exact Nat.le_refl _
    · exact Nat.le_of_lt (List.rel_of_pairwise_cons hL hg)

end Ascending

/-! ### Frames, stacks and environments -/

/-- How frames and stacks stand to the environments given out. -/
structure EnvsAgree (envs : List Env) (t : CallStacks) : Prop where
  /-- Each frame was given out once, in the order in which frames were made. -/
  numbered : envs.map Env.frame = List.range t.frames.size
  known : ∀ env ∈ envs, env.stack < t.known.size
  ascending : ∀ k, (t.stack k).frames.Pairwise (· < ·)
  listed : ∀ k, ∀ f ∈ (t.stack k).frames, ⟨k, f⟩ ∈ envs ∧ (t.frame f).state = .active
  onStack : ∀ env ∈ envs, (t.frame env.frame).state = .active →
    env.frame ∈ (t.stack env.stack).frames
  emptied : ∀ f, (t.frame f).state ≠ .active → (t.frame f).handles = []

/-- Tables that differ at most in what active frames hold and in how far other frames have come. -/
structure CallStacks.Alike (t t' : CallStacks) : Prop where
  known : t'.known = t.known
  registered : t'.registered = t.registered
  nextId : t'.nextId = t.nextId
  size : t'.frames.size = t.frames.size
  active : ∀ f, (t'.frame f).state = .active ↔ (t.frame f).state = .active
  emptied : ∀ f, (t'.frame f).state ≠ .active → (t'.frame f).handles = []

theorem CallStacks.Alike.stack_eq {t t' : CallStacks} (h : t.Alike t') (k : StackRef) :
    t'.stack k = t.stack k := by
  rw [CallStacks.stack, h.known]
  rfl

def CallStacks.enrolled (t : CallStacks) (listed : List StackRef) : CallStacks :=
  { t with registered := listed }

namespace EnvsAgree

variable {envs : List Env} {t t' : CallStacks} {env : Env} {s k : StackRef} {f g : FrameRef}

theorem lt_size (h : EnvsAgree envs t) (henv : env ∈ envs) : env.frame < t.frames.size := by
  rw [← List.mem_range, ← h.numbered]
  exact List.mem_map_of_mem henv

/-- A frame was given out under one environment. -/
theorem env_eq (h : EnvsAgree envs t) {e e' : Env} (he : e ∈ envs) (he' : e' ∈ envs)
    (hframe : e.frame = e'.frame) : e = e' := by
  have hnodup : (envs.map Env.frame).Nodup := h.numbered ▸ List.nodup_range
  exact List.inj_on_of_nodup_map hnodup he he' hframe

/-- An active frame stands on the stack of its environment. -/
theorem exists_env (h : EnvsAgree envs t) (hf : (t.frame f).state = .active) :
    ∃ env ∈ envs, env.frame = f ∧ f ∈ (t.stack env.stack).frames := by
  have hmem : f ∈ envs.map Env.frame :=
    h.numbered ▸ List.mem_range.2 (CallStacks.lt_size_of_active hf)
  obtain ⟨env, henv, rfl⟩ := List.mem_map.1 hmem
  exact ⟨env, henv, rfl, h.onStack env henv hf⟩

/-- A frame is on one stack at most. -/
theorem stack_eq (h : EnvsAgree envs t) (hs : f ∈ (t.stack s).frames)
    (hk : f ∈ (t.stack k).frames) : s = k :=
  congrArg Env.stack (h.env_eq (h.listed s f hs).1 (h.listed k f hk).1 rfl)

/-- What an active frame holds may change. -/
theorem alike_change (h : EnvsAgree envs t) {edit : Frame → Frame}
    (hstate : ∀ frame, (edit frame).state = frame.state) (hf : (t.frame f).state = .active) :
    t.Alike (t.change f edit) := by
  have hframe : ∀ g, (t.change f edit).frame g = if f = g then edit (t.frame g) else t.frame g :=
    fun g => CallStacks.frame_change (CallStacks.lt_size_of_active hf)
  refine ⟨rfl, rfl, rfl, CallStacks.size_change, fun g => ?_, fun g hg => ?_⟩
  · rw [hframe]
    split
    · rw [hstate]
    · rfl
  · rw [hframe] at hg ⊢
    split
    · rename_i hfg
      rw [if_pos hfg, hstate, ← hfg] at hg
      exact absurd hf hg
    · rename_i hfg
      rw [if_neg hfg] at hg
      exact h.emptied g hg

/-- A frame that holds something is active. -/
theorem active_of_held (h : EnvsAgree envs t) {g : FrameRef} {o : Handle}
    (hheld : o ∈ (t.frame g).handles) : (t.frame g).state = .active := by
  refine Decidable.byContradiction fun hnot => ?_
  rw [h.emptied g hnot] at hheld
  cases hheld

/-- Which stacks are registered is none of the frames' business. -/
theorem enrolled (h : EnvsAgree envs t) {listed : List StackRef} :
    EnvsAgree envs (t.enrolled listed) :=
  ⟨h.numbered, h.known, h.ascending, h.listed, h.onStack, h.emptied⟩

theorem alike (h : EnvsAgree envs t) (ht : t.Alike t') : EnvsAgree envs t' where
  numbered := ht.size ▸ h.numbered
  known := ht.known ▸ h.known
  ascending k := ht.stack_eq k ▸ h.ascending k
  listed k f hf := by
    rw [ht.stack_eq] at hf
    exact ⟨(h.listed k f hf).1, (ht.active f).2 (h.listed k f hf).2⟩
  onStack env henv hactive := by
    rw [ht.stack_eq]
    exact h.onStack env henv ((ht.active _).1 hactive)
  emptied := ht.emptied

/-! A frame leaves a stack, with all above it. -/

theorem mem_stack_pop (h : EnvsAgree envs t) :
    g ∈ ((t.pop s f).stack k).frames ↔
      g ∈ (t.stack k).frames ∧ (s = k → f ∈ (t.stack k).frames → g < f) := by
  rw [CallStacks.stack_pop]
  by_cases hk : s = k
  · simp only [hk, ↓reduceIte, forall_const]
    exact mem_takeWhile_ne_iff (h.ascending k)
  · simp only [hk, ↓reduceIte, false_implies, and_true]

theorem frame_pop (h : EnvsAgree envs t) :
    (t.pop s f).frame g =
      if g ∈ (t.stack s).frames ∧ f ∈ (t.stack s).frames ∧ f ≤ g then (t.frame g).retire
      else t.frame g := by
  rw [CallStacks.frame_pop]
  simp only [mem_dropWhile_ne_iff (h.ascending s)]

/-- A frame that is active after a frame has left was active before. -/
theorem active_of_pop (h : EnvsAgree envs t) (hg : ((t.pop s f).frame g).state = .active) :
    (t.frame g).state = .active := by
  rw [h.frame_pop] at hg
  split at hg
  · cases hg
  · exact hg

theorem pop (h : EnvsAgree envs t) (s : StackRef) (f : FrameRef) : EnvsAgree envs (t.pop s f) where
  numbered := by rw [CallStacks.size_pop]; exact h.numbered
  known := by rw [CallStacks.known_size_pop]; exact h.known
  ascending k := by
    rw [CallStacks.stack_pop]
    split
    · exact (h.ascending k).sublist (List.takeWhile_sublist _)
    · exact h.ascending k
  listed k g hg := by
    obtain ⟨hgk, hlt⟩ := h.mem_stack_pop.1 hg
    refine ⟨(h.listed k g hgk).1, ?_⟩
    rw [h.frame_pop, if_neg]
    · exact (h.listed k g hgk).2
    · rintro ⟨hgs, hfs, hle⟩
      obtain rfl := h.stack_eq hgs hgk
      exact absurd (hlt rfl hfs) (Nat.not_lt.2 hle)
  onStack env henv hactive := by
    have hseat := h.onStack env henv (h.active_of_pop hactive)
    refine h.mem_stack_pop.2 ⟨hseat, fun hs hf => Nat.lt_of_not_le fun hle => ?_⟩
    subst hs
    rw [h.frame_pop, if_pos ⟨hseat, hf, hle⟩] at hactive
    cases hactive
  emptied g hg := by
    rw [h.frame_pop] at hg ⊢
    split
    · exact Frame.handles_retire
    · rename_i hkept
      rw [if_neg hkept] at hg
      exact h.emptied g hg

/-- A frame that left its stack is not active. -/
theorem not_active_pop (h : EnvsAgree envs t) (henv : env ∈ envs) :
    ((t.pop env.stack env.frame).frame env.frame).state ≠ .active := by
  intro hactive
  have hseat := h.onStack env henv (h.active_of_pop hactive)
  have hlt := (h.mem_stack_pop.1 ((h.pop env.stack env.frame).onStack env henv hactive)).2 rfl hseat
  exact Nat.lt_irrefl _ hlt

/-! A frame or stack is made. -/

theorem register (h : EnvsAgree envs t) : EnvsAgree envs t.register.2 where
  numbered := h.numbered
  known env henv := by
    rw [CallStacks.known_size_register]
    exact Nat.lt_succ_of_lt (h.known env henv)
  ascending k := by
    rw [CallStacks.stack_register]
    split
    · exact List.Pairwise.nil
    · exact h.ascending k
  listed k f hf := by
    rw [CallStacks.stack_register] at hf
    split at hf
    · cases hf
    · exact h.listed k f hf
  onStack env henv hactive := by
    rw [CallStacks.stack_register, if_neg (Nat.ne_of_lt (h.known env henv))]
    exact h.onStack env henv hactive
  emptied := h.emptied

theorem mem_stack_opened {objects : List Handle} (hs : s < t.known.size) :
    g ∈ ((t.opened s objects).stack k).frames ↔
      g ∈ (t.stack k).frames ∨ s = k ∧ g = t.frames.size := by
  rw [CallStacks.stack_opened]
  simp only [hs, and_true]
  by_cases hk : s = k
  · simp only [hk, ↓reduceIte, List.mem_append, List.mem_singleton, true_and]
  · simp only [hk, ↓reduceIte, false_and, or_false]

theorem active_opened {objects : List Handle} :
    ((t.opened s objects).frame g).state = .active ↔
      g = t.frames.size ∨ (t.frame g).state = .active := by
  rw [CallStacks.frame_opened]
  split
  · rename_i hg
    simp only [hg, Frame.state_enter, true_or]
  · rename_i hg
    simp only [hg, false_or]

theorem opened (h : EnvsAgree envs t) (hs : s < t.known.size) (objects : List Handle) :
    EnvsAgree (envs ++ [⟨s, t.frames.size⟩]) (t.opened s objects) where
  numbered := by
    rw [List.map_append, h.numbered, CallStacks.size_opened, List.range_succ]
    rfl
  known env henv := by
    rw [CallStacks.known_size_opened]
    rcases List.mem_append.1 henv with henv | henv
    · exact h.known env henv
    · obtain rfl := List.mem_singleton.1 henv
      exact hs
  ascending k := by
    rw [CallStacks.stack_opened]
    split
    · refine List.pairwise_append.2 ⟨h.ascending k, List.pairwise_singleton _ _, ?_⟩
      intro f hf g hg
      obtain rfl := List.mem_singleton.1 hg
      exact h.lt_size (h.listed k f hf).1
    · exact h.ascending k
  listed k f hf := by
    rcases (mem_stack_opened hs).1 hf with hf | ⟨rfl, rfl⟩
    · exact ⟨List.mem_append_left _ (h.listed k f hf).1, active_opened.2 (.inr (h.listed k f hf).2)⟩
    · exact ⟨List.mem_append_right _ (List.mem_singleton.2 rfl), active_opened.2 (.inl rfl)⟩
  onStack env henv hactive := by
    rcases List.mem_append.1 henv with henv | henv
    · have hne : env.frame ≠ t.frames.size := Nat.ne_of_lt (h.lt_size henv)
      exact (mem_stack_opened hs).2
        (.inl (h.onStack env henv ((active_opened.1 hactive).resolve_left hne)))
    · obtain rfl := List.mem_singleton.1 henv
      exact (mem_stack_opened hs).2 (.inr ⟨rfl, rfl⟩)
  emptied f hf := by
    have hold : ¬ (f = t.frames.size ∨ (t.frame f).state = .active) := fun hh =>
      hf (active_opened.2 hh)
    rw [CallStacks.frame_opened, if_neg fun hh => hold (.inl hh)]
    exact h.emptied f fun hh => hold (.inr hh)

end EnvsAgree

/-! ### Calls and runs -/

namespace Ledger

/-- The entries of the runs that have begun and whose frames nobody took off. -/
def entries (l : Ledger) : List Env := l.runs ++ l.broken

/-- How the tables stand to what programs have in their hands. -/
structure Tallies (l : Ledger) (t : CallStacks) : Prop extends EnvsAgree l.envs t where
  begun : ∀ env ∈ l.envs, (t.frame env.frame).state = .active →
    env ∈ l.entries ∨ ∃ caller, (caller, env) ∈ l.calls
  /-- A caller stands below its callee for as long as that is on the stack. -/
  nested : ∀ caller callee, (caller, callee) ∈ l.calls →
    callee ∈ l.envs ∧ caller.stack = callee.stack ∧ caller.frame < callee.frame ∧
      (callee.frame ∈ (t.stack callee.stack).frames →
        caller.frame ∈ (t.stack callee.stack).frames)
  entered : ∀ entry ∈ l.entries, entry ∈ l.envs ∧
    (t.stack entry.stack).frames.head? = some entry.frame
  apart : (l.entries.map Env.stack).Nodup
  owned : ∀ k, ∀ f ∈ (t.stack k).frames, ∃ entry ∈ l.entries, entry.stack = k
  registered : ∀ k, k ∈ t.registered ↔ ∃ entry ∈ l.runs, entry.stack = k
  ids : ∀ k < t.known.size, (t.stack k).id = k
  nextId : t.nextId = t.known.size

theorem tallies_empty : empty.Tallies .empty where
  numbered := rfl
  known _ henv := nomatch henv
  ascending _ := List.Pairwise.nil
  listed _ _ hf := nomatch hf
  onStack _ henv := nomatch henv
  emptied _ _ := rfl
  begun _ henv := nomatch henv
  nested _ _ hcall := nomatch hcall
  entered _ hentry := nomatch hentry
  apart := List.Pairwise.nil
  owned _ _ hf := nomatch hf
  registered _ := ⟨(nomatch ·), fun ⟨_, hentry, _⟩ => nomatch hentry⟩
  ids _ hk := absurd hk (Nat.not_lt_zero _)
  nextId := rfl

namespace Tallies

variable {l : Ledger} {t t' : CallStacks} {env entry caller callee : Env} {k : StackRef}
  {f g : FrameRef}

/-- Changes of what frames hold are none of the ledger's business. -/
theorem alike (h : l.Tallies t) (ht : t.Alike t') : l.Tallies t' where
  toEnvsAgree := h.toEnvsAgree.alike ht
  begun env henv hactive := h.begun env henv ((ht.active _).1 hactive)
  nested caller callee hcall := by
    rw [ht.stack_eq]
    exact h.nested caller callee hcall
  entered entry hentry := by
    rw [ht.stack_eq]
    exact h.entered entry hentry
  apart := h.apart
  owned k f hf := by
    rw [ht.stack_eq] at hf
    exact h.owned k f hf
  registered k := by
    rw [ht.registered]
    exact h.registered k
  ids k hk := by
    rw [ht.known] at hk
    rw [ht.stack_eq]
    exact h.ids k hk
  nextId := by rw [ht.nextId, ht.known, h.nextId]

/-- Two runs that have begun are on two stacks. -/
theorem entry_eq (h : l.Tallies t) {e e' : Env} (he : e ∈ l.entries) (he' : e' ∈ l.entries)
    (hstack : e.stack = e'.stack) : e = e' :=
  List.inj_on_of_nodup_map h.apart he he' hstack

/-- The entry of a run is not above another frame. -/
theorem entry_le (h : l.Tallies t) (hentry : entry ∈ l.entries)
    (hg : g ∈ (t.stack entry.stack).frames) : entry.frame ≤ g :=
  le_of_head?_eq (h.ascending _) (h.entered entry hentry).2 hg

theorem entry_mem (h : l.Tallies t) (hentry : entry ∈ l.entries) :
    entry.frame ∈ (t.stack entry.stack).frames :=
  List.mem_of_mem_head? (h.entered entry hentry).2

/-! A call begins, ends, or is cut off. -/

theorem beginCall (h : l.Tallies t) (hknown : caller ∈ l.envs)
    (hactive : (t.frame caller.frame).state = .active) (objects : List Handle) :
    Tallies
      { l with
        envs := l.envs ++ [⟨caller.stack, t.frames.size⟩]
        calls := (caller, ⟨caller.stack, t.frames.size⟩) :: l.calls }
      (t.opened caller.stack objects) where
  toEnvsAgree := h.toEnvsAgree.opened (h.known caller hknown) objects
  begun env henv hopen := by
    rcases List.mem_append.1 henv with henv | henv
    · have hold := (EnvsAgree.active_opened.1 hopen).resolve_left (Nat.ne_of_lt (h.lt_size henv))
      exact (h.begun env henv hold).imp_right fun ⟨c, hc⟩ => ⟨c, List.mem_cons_of_mem _ hc⟩
    · obtain rfl := List.mem_singleton.1 henv
      exact .inr ⟨caller, List.mem_cons_self⟩
  nested c e hcall := by
    have hs := h.known caller hknown
    rcases List.mem_cons.1 hcall with heq | hold
    · obtain ⟨rfl, rfl⟩ := Prod.mk.inj heq
      refine ⟨List.mem_append_right _ (List.mem_singleton.2 rfl), rfl, h.lt_size hknown,
        fun _ => ?_⟩
      exact (EnvsAgree.mem_stack_opened hs).2 (.inl (h.onStack c hknown hactive))
    · obtain ⟨he, hstack, hlt, hbelow⟩ := h.nested c e hold
      refine ⟨List.mem_append_left _ he, hstack, hlt, fun hmem => ?_⟩
      rcases (EnvsAgree.mem_stack_opened hs).1 hmem with hmem | ⟨-, hnew⟩
      · exact (EnvsAgree.mem_stack_opened hs).2 (.inl (hbelow hmem))
      · exact absurd hnew (Nat.ne_of_lt (h.lt_size he))
  entered entry hentry := by
    obtain ⟨hmem, hhead⟩ := h.entered entry hentry
    refine ⟨List.mem_append_left _ hmem, ?_⟩
    rw [CallStacks.stack_opened]
    split
    · rw [List.head?_append, hhead]
      rfl
    · exact hhead
  apart := h.apart
  owned k f hf := by
    rcases (EnvsAgree.mem_stack_opened (h.known caller hknown)).1 hf with hf | ⟨rfl, -⟩
    · exact h.owned k f hf
    · exact h.owned _ _ (h.onStack caller hknown hactive)
  registered := h.registered
  ids k hk := by
    rw [CallStacks.known_size_opened] at hk
    rw [CallStacks.stack_opened]
    split <;> exact h.ids k hk
  nextId := by rw [CallStacks.nextId_opened, CallStacks.known_size_opened, h.nextId]

/-- Callers stay below their callees when frames leave a stack. -/
theorem nested_pop (h : l.Tallies t) (hcall : (caller, callee) ∈ l.calls) {s : StackRef}
    (hmem : callee.frame ∈ ((t.pop s f).stack callee.stack).frames) :
    caller.frame ∈ ((t.pop s f).stack callee.stack).frames := by
  obtain ⟨-, -, hlt, hbelow⟩ := h.nested caller callee hcall
  obtain ⟨hon, habove⟩ := h.mem_stack_pop.1 hmem
  exact h.mem_stack_pop.2 ⟨hbelow hon, fun hs hf => Nat.lt_trans hlt (habove hs hf)⟩

theorem ids_pop (h : l.Tallies t) {s : StackRef} (hk : k < t.known.size) :
    ((t.pop s f).stack k).id = k := by
  rw [CallStacks.stack_pop]
  split <;> exact h.ids k hk

/-- The frame of a callee leaves its stack; the pending calls that are left are those of other
callees. -/
theorem popCall (h : l.Tallies t) (hcall : (caller, callee) ∈ l.calls) {calls : List (Env × Env)}
    (hsub : ∀ p ∈ calls, p ∈ l.calls) (hrest : ∀ p ∈ l.calls, p.2 ≠ callee → p ∈ calls) :
    { l with calls }.Tallies (t.pop callee.stack callee.frame) where
  toEnvsAgree := h.toEnvsAgree.pop _ _
  begun env henv hactive := by
    refine (h.begun env henv (h.active_of_pop hactive)).imp_right fun ⟨c, hc⟩ => ⟨c, hrest _ hc ?_⟩
    rintro rfl
    exact h.not_active_pop henv hactive
  nested c e hc := by
    obtain ⟨he, hstack, hlt, -⟩ := h.nested c e (hsub _ hc)
    exact ⟨he, hstack, hlt, h.nested_pop (hsub _ hc)⟩
  entered entry hentry := by
    obtain ⟨hmem, hhead⟩ := h.entered entry hentry
    refine ⟨hmem, ?_⟩
    rw [CallStacks.stack_pop]
    split
    · rename_i hs
      -- a callee has its caller below it, so it is not at the bottom
      have hne : entry.frame ≠ callee.frame := by
        intro heq
        obtain ⟨-, -, hlt, hbelow⟩ := h.nested caller callee hcall
        have hon := h.entry_mem hentry
        rw [heq, ← hs] at hon
        exact absurd (heq ▸ h.entry_le hentry (hs ▸ hbelow hon)) (Nat.not_le.2 hlt)
      rw [List.head?_takeWhile, hhead, Option.filter_some, if_pos (by simpa using hne)]
    · exact hhead
  apart := h.apart
  owned k f hf := h.owned k f (h.mem_stack_pop.1 hf).1
  registered k := by
    rw [CallStacks.registered_pop]
    exact h.registered k
  ids k hk := by
    rw [CallStacks.known_size_pop] at hk
    exact h.ids_pop hk
  nextId := by rw [CallStacks.nextId_pop, CallStacks.known_size_pop, h.nextId]

/-! A run begins, ends, or is cut off. -/

/-- A stack is made, and not registered. -/
theorem addStack (h : l.Tallies t) : l.Tallies (t.register.2.enrolled t.registered) := by
  have hold : ∀ env ∈ l.envs, t.register.2.stack env.stack = t.stack env.stack := by
    intro env henv
    rw [CallStacks.stack_register, if_neg (Nat.ne_of_lt (h.known env henv))]
  refine ⟨h.toEnvsAgree.register.enrolled, h.begun, ?_, ?_, h.apart, ?_, h.registered, ?_, ?_⟩
  · -- nested
    intro c e hcall
    obtain ⟨he, hstack, hlt, hbelow⟩ := h.nested c e hcall
    have hsame : (t.register.2.enrolled t.registered).stack e.stack = t.stack e.stack := hold e he
    rw [hsame]
    exact ⟨he, hstack, hlt, hbelow⟩
  · -- entered
    intro entry hentry
    obtain ⟨hknown, hhead⟩ := h.entered entry hentry
    exact ⟨hknown, (congrArg (·.frames.head?) (hold entry hknown)).trans hhead⟩
  · -- owned
    intro k f hf
    have hf : f ∈ (t.register.2.stack k).frames := hf
    rw [CallStacks.stack_register] at hf
    split at hf
    · cases hf
    · exact h.owned k f hf
  · -- ids
    intro k hk
    have hk : k < t.register.2.known.size := hk
    show (t.register.2.stack k).id = k
    rw [CallStacks.stack_register]
    split
    · rename_i hnew
      rw [hnew]
      exact h.nextId
    · rename_i hne
      rw [CallStacks.known_size_register] at hk
      exact h.ids k (Nat.lt_of_le_of_ne (Nat.le_of_lt_succ hk) hne)
  · -- nextId
    show t.nextId + 1 = t.register.2.known.size
    rw [CallStacks.known_size_register, h.nextId]

/-- The entry frame of a run is opened on a stack without a run. -/
theorem openRun (h : l.Tallies t) (hk : k < t.known.size)
    (hvacant : ∀ entry ∈ l.entries, entry.stack ≠ k) :
    Tallies
      { l with
        envs := l.envs ++ [⟨k, t.frames.size⟩]
        runs := l.runs ++ [⟨k, t.frames.size⟩] }
      ((t.opened k []).enrolled (t.registered ++ [k])) := by
  have hmem : ∀ s g, g ∈ ((t.opened k []).stack s).frames ↔
      g ∈ (t.stack s).frames ∨ k = s ∧ g = t.frames.size :=
    fun s g => EnvsAgree.mem_stack_opened hk
  have hold : ∀ s ≠ k, (t.opened k []).stack s = t.stack s := by
    intro s hs
    rw [CallStacks.stack_opened, if_neg fun hks => hs hks.1.symm]
  have hempty : (t.stack k).frames = [] := by
    refine List.eq_nil_iff_forall_not_mem.2 fun f hf => ?_
    obtain ⟨entry, hentry, heq⟩ := h.owned k f hf
    exact hvacant entry hentry heq
  have hentries : ∀ entry, entry ∈ (l.runs ++ [⟨k, t.frames.size⟩]) ++ l.broken ↔
      entry = ⟨k, t.frames.size⟩ ∨ entry ∈ l.entries := by
    intro entry
    simp only [entries, List.mem_append, List.mem_singleton]
    rw [or_right_comm, or_comm]
  refine ⟨(h.toEnvsAgree.opened hk []).enrolled, ?_, ?_, ?_, ?_, ?_, ?_, ?_, ?_⟩
  · -- begun
    intro env henv hopen
    rcases List.mem_append.1 henv with henv | henv
    · have hactive := (EnvsAgree.active_opened.1 hopen).resolve_left (Nat.ne_of_lt (h.lt_size henv))
      exact (h.begun env henv hactive).imp_left fun hentry => (hentries env).2 (.inr hentry)
    · obtain rfl := List.mem_singleton.1 henv
      exact .inl ((hentries _).2 (.inl rfl))
  · -- nested
    intro c e hcall
    obtain ⟨he, hstack, hlt, hbelow⟩ := h.nested c e hcall
    refine ⟨List.mem_append_left _ he, hstack, hlt, fun hon => ?_⟩
    have hon := ((hmem e.stack e.frame).1 hon).resolve_right fun hnew =>
      Nat.ne_of_lt (h.lt_size he) hnew.2
    exact (hmem e.stack c.frame).2 (.inl (hbelow hon))
  · -- entered
    intro entry hentry
    show entry ∈ l.envs ++ _ ∧ ((t.opened k []).stack entry.stack).frames.head? = _
    rcases (hentries entry).1 hentry with rfl | hentry
    · refine ⟨List.mem_append_right _ (List.mem_singleton.2 rfl), ?_⟩
      rw [CallStacks.stack_opened, if_pos ⟨rfl, hk⟩]
      simp only [hempty, List.nil_append, List.head?_cons]
    · obtain ⟨hknown, hhead⟩ := h.entered entry hentry
      refine ⟨List.mem_append_left _ hknown, ?_⟩
      rw [hold _ (hvacant entry hentry)]
      exact hhead
  · -- apart
    have hnew : k ∉ l.entries.map Env.stack := by
      intro hin
      obtain ⟨entry, hentry, heq⟩ := List.mem_map.1 hin
      exact hvacant entry hentry heq
    have hperm : List.Perm (l.runs ++ [⟨k, t.frames.size⟩] ++ l.broken)
        (⟨k, t.frames.size⟩ :: l.entries) := by
      rw [List.append_assoc]
      exact List.perm_middle
    exact (hperm.map Env.stack).nodup_iff.2 (List.nodup_cons.2 ⟨hnew, h.apart⟩)
  · -- owned
    intro s f hf
    rcases (hmem s f).1 hf with hf | ⟨rfl, -⟩
    · obtain ⟨entry, hentry, heq⟩ := h.owned s f hf
      exact ⟨entry, (hentries entry).2 (.inr hentry), heq⟩
    · exact ⟨_, (hentries _).2 (.inl rfl), rfl⟩
  · -- registered
    intro s
    show s ∈ t.registered ++ [k] ↔ _
    rw [List.mem_append, List.mem_singleton, h.registered]
    constructor
    · rintro (⟨entry, hentry, heq⟩ | rfl)
      · exact ⟨entry, List.mem_append_left _ hentry, heq⟩
      · exact ⟨_, List.mem_append_right _ (List.mem_singleton.2 rfl), rfl⟩
    · rintro ⟨entry, hentry, rfl⟩
      rcases List.mem_append.1 hentry with hentry | hentry
      · exact .inl ⟨entry, hentry, rfl⟩
      · obtain rfl := List.mem_singleton.1 hentry
        exact .inr rfl
  · -- ids
    intro s hs
    have hs : s < (t.opened k []).known.size := hs
    show ((t.opened k []).stack s).id = s
    rw [CallStacks.known_size_opened] at hs
    rw [CallStacks.stack_opened]
    split <;> exact h.ids s hs
  · -- nextId
    show (t.opened k []).nextId = (t.opened k []).known.size
    rw [CallStacks.nextId_opened, CallStacks.known_size_opened, h.nextId]

/-- A run makes a stack, opens its entry frame on it, and has it registered. -/
theorem beginRun (h : l.Tallies t) :
    Tallies
      { l with
        envs := l.envs ++ [⟨t.known.size, t.frames.size⟩]
        runs := l.runs ++ [⟨t.known.size, t.frames.size⟩] }
      (t.register.2.opened t.known.size []) := by
  have hsize : t.known.size < t.register.2.known.size := by
    rw [CallStacks.known_size_register]
    exact Nat.lt_succ_self _
  refine h.addStack.openRun hsize fun entry hentry => ?_
  exact Nat.ne_of_lt (h.known entry (h.entered entry hentry).1)

/-- Without the stack of one run, the registered stacks are those of the others. -/
theorem mem_registered_unregister (h : l.Tallies t) (hentry : entry ∈ l.runs) :
    k ∈ (t.unregister (t.stack entry.stack).id).registered ↔
      ∃ e ∈ l.runs.erase entry, e.stack = k := by
  have hruns : ∀ e ∈ l.runs, e ∈ l.entries := fun e he => List.mem_append_left _ he
  have hid : ∀ e ∈ l.runs, (t.stack e.stack).id = e.stack := fun e he =>
    h.ids _ (h.known e (h.entered e (hruns e he)).1)
  have hnodup : l.runs.Nodup :=
    (List.Nodup.of_map _ h.apart).sublist (List.sublist_append_left _ _)
  rw [CallStacks.mem_registered_unregister, h.registered]
  constructor
  · rintro ⟨⟨e, he, rfl⟩, hne⟩
    refine ⟨e, (List.mem_erase_of_ne ?_).2 he, rfl⟩
    rintro rfl
    exact hne rfl
  · rintro ⟨e, he, rfl⟩
    obtain ⟨hne, he⟩ := hnodup.mem_erase_iff.1 he
    refine ⟨⟨e, he, rfl⟩, fun heq => hne ?_⟩
    rw [hid e he, hid entry hentry] at heq
    exact h.entry_eq (hruns e he) (hruns entry hentry) heq

/-- A run that ends or is cut off leaves the entries of the others. -/
theorem mem_erase_entry (h : l.Tallies t) (hentry : entry ∈ l.runs) :
    env ∈ l.runs.erase entry ++ l.broken ↔ env ≠ entry ∧ env ∈ l.entries := by
  rw [← List.erase_append_left _ hentry]
  exact (List.Nodup.of_map _ h.apart).mem_erase_iff

/-- The entry frame of a run leaves its stack; the stacks of the others stay registered. -/
theorem closeRun (h : l.Tallies t) (hentry : entry ∈ l.runs) {listed : List StackRef}
    (hstacks : ∀ k, k ∈ listed ↔ ∃ e ∈ l.runs.erase entry, e.stack = k) :
    Tallies { l with runs := l.runs.erase entry }
      ((t.pop entry.stack entry.frame).enrolled listed) := by
  have hin : entry ∈ l.entries := List.mem_append_left _ hentry
  refine ⟨(h.toEnvsAgree.pop entry.stack entry.frame).enrolled, ?_, ?_, ?_, ?_, ?_, hstacks, ?_, ?_⟩
  · -- begun
    intro env henv hactive
    refine (h.begun env henv (h.active_of_pop hactive)).imp_left fun he =>
      (h.mem_erase_entry hentry).2 ⟨?_, he⟩
    rintro rfl
    exact h.not_active_pop henv hactive
  · -- nested
    intro c e hcall
    obtain ⟨he, hstack, hlt, -⟩ := h.nested c e hcall
    exact ⟨he, hstack, hlt, h.nested_pop hcall⟩
  · -- entered
    intro e he
    obtain ⟨hne, he⟩ := (h.mem_erase_entry hentry).1 he
    obtain ⟨hknown, hhead⟩ := h.entered e he
    refine ⟨hknown, ?_⟩
    show ((t.pop entry.stack entry.frame).stack e.stack).frames.head? = _
    rw [CallStacks.stack_pop, if_neg fun heq => hne (h.entry_eq he hin heq.symm)]
    exact hhead
  · -- apart
    exact h.apart.sublist ((List.Sublist.append_right List.erase_sublist _).map _)
  · -- owned
    intro k f hf
    obtain ⟨hon, hbelow⟩ := h.mem_stack_pop.1 hf
    obtain ⟨e, he, rfl⟩ := h.owned k f hon
    refine ⟨e, (h.mem_erase_entry hentry).2 ⟨?_, he⟩, rfl⟩
    rintro rfl
    exact absurd (hbelow rfl (h.entry_mem hin)) (Nat.not_lt.2 (h.entry_le hin hon))
  · -- ids
    intro k hk
    have hk : k < (t.pop entry.stack entry.frame).known.size := hk
    rw [CallStacks.known_size_pop] at hk
    exact h.ids_pop hk
  · -- nextId
    show (t.pop entry.stack entry.frame).nextId = (t.pop entry.stack entry.frame).known.size
    rw [CallStacks.nextId_pop, CallStacks.known_size_pop, h.nextId]

/-- A run has its entry frame taken off its stack, and the stack forgotten. -/
theorem endRun (h : l.Tallies t) (hentry : entry ∈ l.runs) :
    Tallies { l with runs := l.runs.erase entry }
      ((t.pop entry.stack entry.frame).unregister (t.stack entry.stack).id) := by
  refine h.closeRun hentry fun k => ?_
  have hids : ∀ k, ((t.pop entry.stack entry.frame).stack k).id = (t.stack k).id := by
    intro k
    rw [CallStacks.stack_pop]
    split <;> rfl
  rw [← h.mem_registered_unregister hentry, CallStacks.mem_registered_unregister]
  simp only [List.mem_filter, decide_eq_true_eq, CallStacks.registered_pop, hids]

theorem abandonRun (h : l.Tallies t) (hentry : entry ∈ l.runs) :
    Tallies { l with runs := l.runs.erase entry, broken := l.broken ++ [entry] }
      (t.unregister (t.stack entry.stack).id) := by
  have hperm : (l.runs.erase entry ++ (l.broken ++ [entry])).Perm l.entries := by
    rw [← List.append_assoc, ← List.erase_append_left _ hentry]
    exact (List.perm_append_singleton _ _).trans
      (List.perm_cons_erase (List.mem_append_left _ hentry)).symm
  refine ⟨⟨h.numbered, h.known, h.ascending, h.listed, h.onStack, h.emptied⟩, ?_, h.nested, ?_, ?_,
    ?_, fun k => h.mem_registered_unregister hentry, h.ids, h.nextId⟩
  · exact fun env henv hactive => (h.begun env henv hactive).imp_left hperm.mem_iff.2
  · exact fun e he => h.entered e (hperm.mem_iff.1 he)
  · exact (hperm.map _).nodup_iff.2 h.apart
  · intro k f hf
    obtain ⟨e, he, heq⟩ := h.owned k f hf
    exact ⟨e, hperm.mem_iff.2 he, heq⟩

/-- The end of a call does to stacks and states what popping the callee does. -/
theorem alike_settled (h : l.Tallies t) (hcall : (caller, callee) ∈ l.calls) {result : Answer Word}
    (hreturned : ∀ word o, result = .ok word → word.target? = some o →
      o ∈ (t.frame callee.frame).handles) :
    (t.pop callee.stack callee.frame).Alike
      ((t.settled caller.frame callee.frame result).pop callee.stack callee.frame) := by
  obtain ⟨hcallee, hstack, hlt, hbelow⟩ := h.nested caller callee hcall
  have hsize := h.lt_size hcallee
  have hpopped : ∀ g, g ∉ (t.stack callee.stack).frames.dropWhile (· ≠ callee.frame) →
      (t.pop callee.stack callee.frame).frame g = t.frame g :=
    fun g hg => by rw [CallStacks.frame_pop, if_neg hg]
  -- off its stack, the callee was not active before either
  have hoff : callee.frame ∉ (t.stack callee.stack).frames.dropWhile (· ≠ callee.frame) →
      (t.frame callee.frame).state ≠ .active := fun hg =>
    hpopped _ hg ▸ h.not_active_pop hcallee
  refine ⟨?_, ?_, ?_, ?_, fun g => ?_, fun g hg => ?_⟩
  · rw [CallStacks.known_pop, CallStacks.known_pop, CallStacks.known_settled,
      CallStacks.stack_settled]
  · rw [CallStacks.registered_pop, CallStacks.registered_pop, CallStacks.registered_settled]
  · rw [CallStacks.nextId_pop, CallStacks.nextId_pop, CallStacks.nextId_settled]
  · rw [CallStacks.size_pop, CallStacks.size_pop, CallStacks.size_settled]
  · rw [CallStacks.frame_pop, CallStacks.frame_pop, CallStacks.stack_settled]
    split
    · rfl
    · rename_i hkept
      rcases result with fault | word
      · rfl
      · rw [CallStacks.frame_settled (Nat.lt_trans hlt hsize) hsize (Nat.ne_of_lt hlt)]
        split
        · rename_i hg
          subst hg
          exact ⟨(nomatch ·), fun hactive => absurd hactive (hoff hkept)⟩
        · split
          · split
            · rw [Frame.state_insert]
            · rfl
          · rfl
  · rw [CallStacks.frame_pop, CallStacks.stack_settled] at hg ⊢
    split
    · exact Frame.handles_retire
    · rename_i hkept
      rw [if_neg hkept] at hg
      rcases result with fault | word
      · exact h.emptied g hg
      · rw [CallStacks.frame_settled (Nat.lt_trans hlt hsize) hsize (Nat.ne_of_lt hlt)] at hg ⊢
        split
        · rename_i hgc
          subst hgc
          exact h.emptied _ (hoff hkept)
        · rename_i hgc
          rw [if_neg hgc] at hg
          split
          · rename_i hcaller
            rw [if_pos hcaller] at hg
            cases hword : word.target? with
            | none =>
              rw [hword] at hg
              exact h.emptied g hg
            | some o =>
              -- the callee holds what it returns, so its caller is on the stack and active
              rw [hword] at hg
              have hheld := hreturned word o rfl hword
              have hactive := h.active_of_held hheld
              have hon := (h.listed _ _ (hbelow (h.onStack callee hcallee hactive))).2
              rw [hcaller] at hg
              exact absurd ((Frame.state_insert).trans hon) hg
          · rename_i hcaller
            rw [if_neg hcaller] at hg
            exact h.emptied g hg

/-- Every step keeps the tally. -/
theorem step (h : l.Tallies t) {gain : List Handle} (hstep : l.Step t gain l' t') :
    l'.Tallies t' := by
  cases hstep with
  | idle => exact h
  | hold known active => exact h.alike (h.alike_change (fun _ => Frame.state_insert) active)
  | release known active => exact h.alike (h.alike_change (fun _ => Frame.state_remove) active)
  | beginCall known active handed => exact h.beginCall known active _
  | endCall pending returned =>
    refine alike (popCall h pending (fun _ => List.mem_of_mem_erase) fun p hp hne => ?_)
      (h.alike_settled pending returned)
    exact (List.mem_erase_of_ne fun heq => hne (congrArg Prod.snd heq)).2 hp
  | abandonCall pending =>
    exact popCall h pending (fun _ => List.mem_of_mem_filter) fun p hp hne =>
      List.mem_filter.2 ⟨hp, decide_eq_true hne⟩
  | beginRun => exact h.beginRun
  | endRun begun => exact h.endRun begun
  | abandonRun begun => exact h.abandonRun begun

end Tallies

end Ledger

namespace Session

variable {A : Type} [Allocator A] {start : Machine A} {past : List Move} {s : Session A}

/-- The ledger tallies with the tables in every session. -/
theorem Ran.tallies (hstart : start.calls = .empty) (hran : Ran start past s) :
    s.ledger.Tallies s.calls := by
  induction hran with
  | opening =>
    have hcalls : (Session.opening start).calls = .empty := hstart
    rw [hcalls]
    exact Ledger.tallies_empty
  | move _ t action permitted ih => exact ih.step (ledger_step permitted)

end Session

end RootedHeap
