import RootedHeap.Proofs.Courses
import RootedHeap.Proofs.Refusals
import RootedHeap.Proofs.StackOwnership
import RootedHeap.Proofs.StackReach

/-!
What a run leaves of the tables. Nothing in a program undoes what it did to its stack; the ends of
its calls and of its runs do, each for its own frame or stack. That nothing of it is left follows
from what single moves do: a move that keeps off the stacks that there were leaves them, the frames
on them and their places among the registered stacks as they were, and a run is a sequence of such
moves that ends with as many runs going on as there were before.
-/

namespace RootedHeap.Session

variable {A : Type} {s s' s'' : Session A}

/-! ### Stacks that were there before -/

/-- What a session has kept of an earlier one: its stacks, its frames, and its registered stacks
before any that came later. -/
structure KeepsOldStacks (s s' : Session A) : Prop extends Grows s s' where
  stack : ∀ k < s.calls.known.size, s'.calls.stack k = s.calls.stack k
  frame : ∀ env ∈ s.ledger.envs, s'.calls.frame env.frame = s.calls.frame env.frame
  registered : ∃ later, s'.calls.registered = s.calls.registered ++ later ∧
    ∀ k ∈ later, s.calls.known.size ≤ k

theorem KeepsOldStacks.refl : KeepsOldStacks s s :=
  ⟨.refl, fun _ _ => rfl, fun _ _ => rfl, [], (List.append_nil _).symm,
    fun _ hk => nomatch hk⟩

/-! ### All as it was -/

/-- A session in which all that another had is as it was there. -/
structure Restored (s s' : Session A) : Prop where
  registered : s'.calls.registered = s.calls.registered
  stack : ∀ k < s.calls.known.size, s'.calls.stack k = s.calls.stack k
  frame : ∀ f < s.calls.frames.size, s'.calls.frame f = s.calls.frame f
  roots : s'.calls.roots = s.calls.roots

/-- A stack that was there before is as it was once the runs that go on are the same again. -/
theorem KeepsOldStacks.restored (hkeepsOld : KeepsOldStacks s s') (h : s.ledger.Tallies s.calls)
    (h' : s'.ledger.Tallies s'.calls) (hruns : ∀ run ∈ s'.ledger.runs, run ∈ s.ledger.runs) :
    Restored s s' := by
  have hknown : ∀ run ∈ s.ledger.runs, run.stack < s.calls.known.size := fun run hrun =>
    h.known run (h.entered run (List.mem_append_left _ hrun)).1
  have hframe : ∀ f < s.calls.frames.size, s'.calls.frame f = s.calls.frame f := fun f hf => by
    have hmem : f ∈ s.ledger.envs.map Env.frame := h.numbered ▸ List.mem_range.2 hf
    obtain ⟨env, henv, rfl⟩ := List.mem_map.1 hmem
    exact hkeepsOld.frame env henv
  have hregistered : s'.calls.registered = s.calls.registered := by
    obtain ⟨later, hlisted, hlater⟩ := hkeepsOld.registered
    -- a stack that came later would be that of a run that has begun since
    have hnone : later = [] := List.eq_nil_iff_forall_not_mem.2 fun k hk => by
      obtain ⟨run, hrun, rfl⟩ := (h'.registered k).1 (hlisted ▸ List.mem_append_right _ hk)
      exact absurd (hknown run (hruns run hrun)) (Nat.not_lt.2 (hlater _ hk))
    rw [hlisted, hnone, List.append_nil]
  refine ⟨hregistered, hkeepsOld.stack, hframe, ?_⟩
  rw [CallStacks.roots, hregistered, CallStacks.roots]
  refine List.flatMap_congr fun k hk => ?_
  obtain ⟨run, hrun, rfl⟩ := (h.registered k).1 hk
  rw [CallStacks.stackRoots, hkeepsOld.stack _ (hknown run hrun), CallStacks.stackRoots]
  exact List.flatMap_congr fun f hf => congrArg Frame.handles
    (hframe f (h.lt_size (h.listed _ f hf).1))

/-! ### Moves that keep off what there was -/

/-- Without a stack of its own, the registered stacks that there were are still the first. -/
theorem exists_registered_unregister (h : s.ledger.Tallies s.calls)
    {registered later : List StackRef} {entry : Env} {known : Nat}
    (hlisted : s.calls.registered = registered ++ later)
    (hold : ∀ k ∈ registered, k < known) (hlater : ∀ k ∈ later, known ≤ k)
    (hentry : entry ∈ s.ledger.runs) (hoff : known ≤ entry.stack) :
    ∃ later', (s.calls.unregister (s.calls.stack entry.stack).id).registered =
      registered ++ later' ∧ ∀ k ∈ later', known ≤ k := by
  have hid : ∀ k ∈ s.calls.registered, (s.calls.stack k).id = k := fun k hk => by
    obtain ⟨run, hrun, rfl⟩ := (h.registered k).1 hk
    exact h.ids _ (h.known run (h.entered run (List.mem_append_left _ hrun)).1)
  have hown : (s.calls.stack entry.stack).id = entry.stack :=
    hid _ ((h.registered _).2 ⟨entry, hentry, rfl⟩)
  have hkept : registered.filter (fun k => (s.calls.stack k).id ≠ (s.calls.stack entry.stack).id) =
      registered := by
    refine List.filter_eq_self.2 fun k hk => decide_eq_true ?_
    rw [hown, hid k (hlisted ▸ List.mem_append_left _ hk)]
    exact Nat.ne_of_lt (Nat.lt_of_lt_of_le (hold k hk) hoff)
  refine ⟨later.filter fun k => (s.calls.stack k).id ≠ (s.calls.stack entry.stack).id, ?_,
    fun k hk => hlater k (List.mem_of_mem_filter hk)⟩
  rw [CallStacks.unregister, hlisted, List.filter_append, hkept]

variable [Allocator A] {t : Thread} {action : Action}

/-- A move that keeps off the stacks that there were leaves them registered, before all others. -/
theorem exists_registered_after (h : s.ledger.Tallies s.calls)
    (hpermits : s.ledger.permits action) {registered later : List StackRef} {known : Nat}
    (hlisted : s.calls.registered = registered ++ later) (hknown : known ≤ s.calls.known.size)
    (hold : ∀ k ∈ registered, k < known) (hlater : ∀ k ∈ later, known ≤ k)
    (hoff : known ≤ action.stack s.calls) :
    ∃ later', (s.after t action).calls.registered = registered ++ later' ∧
      ∀ k ∈ later', known ≤ k := by
  have hkeeps : (s.after t action).ledger.runs = s.ledger.runs →
      ∃ later', (s.after t action).calls.registered = registered ++ later' ∧
        ∀ k ∈ later', known ≤ k := fun hruns =>
    ⟨later, ((ledger_step hpermits).registered hruns).1.trans hlisted, hlater⟩
  cases action with
  | beginRun name args =>
    cases hargs : args.findSome? Word.target? with
    | some o =>
      have hreply := s.reply_beginRun t name args
      rw [hargs] at hreply
      have hsame : s.after t (.beginRun name args) = s :=
        after_refused (Answer.fault?_eq_some.2 hreply)
      rw [hsame]
      exact ⟨later, hlisted, hlater⟩
    | none =>
      refine ⟨later ++ [s.calls.known.size], ?_, fun k hk => ?_⟩
      · rw [calls_after_beginRun s t name hargs, ← List.append_assoc, ← hlisted]
        rfl
      · rcases List.mem_append.1 hk with hk | hk
        · exact hlater k hk
        · exact List.mem_singleton.1 hk ▸ hknown
  | endRun entry outcome =>
    have hids : ∀ k, ((s.calls.pop entry.stack entry.frame).stack k).id = (s.calls.stack k).id := by
      intro k
      rw [CallStacks.stack_pop]
      split <;> rfl
    obtain ⟨later', hleft, hlater'⟩ :=
      exists_registered_unregister h hlisted hold hlater hpermits hoff
    refine ⟨later', ?_, hlater'⟩
    rw [calls_after_endRun, ← hleft, CallStacks.unregister, CallStacks.registered_pop]
    exact List.filter_congr fun k _ => by rw [hids]
  | abandonRun entry => exact exists_registered_unregister h hlisted hold hlater hpermits hoff
  | beginCall caller name args =>
    exact hkeeps Ledger.runs_beginCall
  | _ => exact hkeeps rfl

/-- A move that keeps off what there was spares it. -/
theorem KeepsOldStacks.after (hkeepsOld : KeepsOldStacks s s') (h : s.ledger.Tallies s.calls)
    (h' : s'.ledger.Tallies s'.calls) (hpermits : s'.ledger.permits action)
    (hoff : s.calls.known.size ≤ action.stack s'.calls) : KeepsOldStacks s (s'.after t action) := by
  have htables := tablesStep (t := t) h'.toEnvsAgree h'.nested hpermits
  obtain ⟨later, hlisted, hlater⟩ := hkeepsOld.registered
  have hold : ∀ k ∈ s.calls.registered, k < s.calls.known.size := fun k hk => by
    obtain ⟨run, hrun, rfl⟩ := (h.registered k).1 hk
    exact h.known run (h.entered run (List.mem_append_left _ hrun)).1
  refine ⟨hkeepsOld.toGrows.trans (grows_after hpermits), fun k hk => ?_, fun env henv => ?_,
    exists_registered_after h' hpermits hlisted hkeepsOld.known hold hlater hoff⟩
  · rw [htables.stack k (Nat.ne_of_lt (Nat.lt_of_lt_of_le hk hoff)), hkeepsOld.stack k hk]
  · have hk := h.known env henv
    rw [htables.frame env (hkeepsOld.envs.subset henv) (Nat.ne_of_lt (Nat.lt_of_lt_of_le hk hoff)),
      hkeepsOld.frame env henv]

/-! ### Runs as a whole -/

/-- Moves, by any threads, that keep off the first so many stacks. -/
inductive NewStackMoves (known : Nat) (s : Session A) : Session A → Prop
  | start : NewStackMoves known s s
  | move {s' : Session A} (before : NewStackMoves known s s') (t : Thread) (action : Action)
      (permitted : s'.ledger.permits action) (off : known ≤ action.stack s'.calls) :
    NewStackMoves known s (s'.after t action)

theorem NewStackMoves.course {known : Nat} (hmoves : NewStackMoves known s s') :
    ∃ moves, Course s moves s' := by
  induction hmoves with
  | start => exact ⟨[], .start⟩
  | move _ t action permitted _ ih =>
    obtain ⟨moves, hcourse⟩ := ih
    exact ⟨_, hcourse.move t action permitted⟩

/-- The ways in which a run, from its beginning to its end, leads from one session to another. What
it does in between is done on its own stack and on those of runs that began and ended meanwhile. -/
inductive Completes (s : Session A) : Session A → Prop
  | rejected (t : Thread) (name : String) (args : List Word) {fault : Fault}
      (rejected : s.reply t (.beginRun name args) = .error fault) :
    Completes s (s.after t (.beginRun name args))
  /-- Its method returned, with a result or a fault; the result may still be refused. -/
  | ended {s' : Session A} (t : Thread) (name : String) (args : List Word) {entry : Env}
      (begun : s.reply t (.beginRun name args) = .ok entry)
      (before : NewStackMoves s.calls.known.size (s.after t (.beginRun name args)) s')
      (joined : s'.ledger.runs = (s.after t (.beginRun name args)).ledger.runs)
      (outcome : Answer Word) : Completes s (s'.after t (.endRun entry outcome))
  | panicked {s' : Session A} (t : Thread) (name : String) (args : List Word) {entry : Env}
      (begun : s.reply t (.beginRun name args) = .ok entry)
      (before : NewStackMoves s.calls.known.size (s.after t (.beginRun name args)) s')
      (joined : s'.ledger.runs = (s.after t (.beginRun name args)).ledger.runs) :
    Completes s (s'.after t (.abandonRun entry))

section Ran

variable {start : Machine A} {past : List Move}

theorem Ran.before (hran : Ran start past s) {known : Nat} (hmoves : NewStackMoves known s s') :
    ∃ past', Ran start past' s' := by
  obtain ⟨moves, hcourse⟩ := hmoves.course
  exact ⟨_, hran.course hcourse⟩

theorem NewStackMoves.keepsOldStacks {s₀ : Session A} (hstart : start.calls = .empty)
    (hran : Ran start past s) (h₀ : s₀.ledger.Tallies s₀.calls) (hkeepsOld : KeepsOldStacks s₀ s)
    (hmoves : NewStackMoves s₀.calls.known.size s s') : KeepsOldStacks s₀ s' := by
  induction hmoves with
  | start => exact hkeepsOld
  | move before t action permitted off ih =>
    obtain ⟨past', hran'⟩ := hran.before before
    exact ih.after h₀ (hran'.tallies hstart) permitted off

end Ran

theorem runs_of_begun {name : String} {args : List Word} {entry : Env}
    (hbegun : s.reply t (.beginRun name args) = .ok entry) :
    (s.after t (.beginRun name args)).ledger.runs = s.ledger.runs ++ [entry] := by
  rw [after, hbegun]
  rfl

/-- A run still goes on when those that began after it have ended. -/
theorem mem_runs_of_joined {name : String} {args : List Word} {entry : Env}
    (hbegun : s.reply t (.beginRun name args) = .ok entry)
    (hjoined : s'.ledger.runs = (s.after t (.beginRun name args)).ledger.runs) :
    entry ∈ s'.ledger.runs := by
  rw [hjoined, runs_of_begun hbegun]
  exact List.mem_append_right _ (List.mem_singleton.2 rfl)

/-- The last move of a run: its entry is among the runs that go on no more. -/
theorem restored_of_end {start : Machine A} {past : List Move} (hstart : start.calls = .empty)
    (hran : Ran start past s) {u : Thread} {name : String} {args : List Word} {entry : Env}
    (hbegun : s.reply t (.beginRun name args) = .ok entry)
    (hmoves : NewStackMoves s.calls.known.size (s.after t (.beginRun name args)) s')
    (hjoined : s'.ledger.runs = (s.after t (.beginRun name args)).ledger.runs)
    (hpermits : entry ∈ s'.ledger.runs → s'.ledger.permits action)
    (hstack : action.stack s'.calls = entry.stack)
    (hruns : (s'.after u action).ledger.runs = s'.ledger.runs.erase entry) :
    Restored s (s'.after u action) := by
  have h := hran.tallies hstart
  have hbegin : s.ledger.permits (.beginRun name args) := trivial
  have hfirst := hran.move t (.beginRun name args) hbegin
  obtain ⟨past', hran'⟩ := hfirst.before hmoves
  have h' := hran'.tallies hstart
  have hkeepsOld :=
    hmoves.keepsOldStacks hstart hfirst h (KeepsOldStacks.refl.after h h hbegin (Nat.le_refl _))
  have hentry : s.calls.known.size ≤ entry.stack :=
    (congrArg Env.stack (entry_of_begun hbegun)).ge
  have hall : s'.ledger.runs = s.ledger.runs ++ [entry] := hjoined.trans (runs_of_begun hbegun)
  have hgoing := mem_runs_of_joined hbegun hjoined
  have hlast := hkeepsOld.after (t := u) h h' (hpermits hgoing) (hstack ▸ hentry)
  refine hlast.restored h (h'.step (ledger_step (hpermits hgoing))) fun run hrun => ?_
  have hnodup : s'.ledger.runs.Nodup :=
    (List.Nodup.of_map _ h'.apart).sublist (List.sublist_append_left _ _)
  rw [hruns] at hrun
  obtain ⟨hne, hrun⟩ := hnodup.mem_erase_iff.1 hrun
  exact (List.mem_append.1 (hall ▸ hrun)).resolve_right fun heq => hne (List.mem_singleton.1 heq)

/-- A run as a whole is a course. -/
theorem Completes.course (hcompletes : Completes s s') : ∃ moves, Course s moves s' := by
  have hbegin : ∀ t name args,
      Course s [⟨t, .beginRun name args, s.reply t (.beginRun name args)⟩]
        (s.after t (.beginRun name args)) := fun t name args =>
    Course.start.move t (.beginRun name args) trivial
  cases hcompletes with
  | rejected t name args rejected => exact ⟨_, hbegin t name args⟩
  | @ended _ t name args entry begun before joined outcome =>
    obtain ⟨moves, hcourse⟩ := before.course
    exact ⟨_, ((hbegin t name args).trans hcourse).move t (.endRun entry outcome)
      (mem_runs_of_joined begun joined)⟩
  | @panicked _ t name args entry begun before joined =>
    obtain ⟨moves, hcourse⟩ := before.course
    exact ⟨_, ((hbegin t name args).trans hcourse).move t (.abandonRun entry)
      (mem_runs_of_joined begun joined)⟩

/-- However a run goes, it leaves all that there was as it was. -/
theorem Completes.restored {start : Machine A} {past : List Move} (hstart : start.calls = .empty)
    (hran : Ran start past s) (hcompletes : Completes s s') : Restored s s' := by
  cases hcompletes with
  | rejected t name args rejected =>
    have hsame : s.after t (.beginRun name args) = s :=
      after_refused (Answer.fault?_eq_some.2 rejected)
    rw [hsame]
    exact ⟨rfl, fun _ _ => rfl, fun _ _ => rfl, rfl⟩
  | ended t name args begun before joined outcome =>
    exact restored_of_end hstart hran begun before joined id rfl rfl
  | panicked t name args begun before joined =>
    exact restored_of_end hstart hran begun before joined id rfl rfl

end RootedHeap.Session
