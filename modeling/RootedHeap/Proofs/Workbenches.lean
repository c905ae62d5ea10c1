import RootedHeap.Proofs.RootMaps
import RootedHeap.Workbench.Basic

/-!
The stacks of a workbench refine a root map. Of all requests to a workbench only those to stacks and
frames change the tables (`Workbench.calls_perform`); the gate, the allocators and other threads
only read them. So after any requests, to stacks that are registered or not and to frames that are
on their stacks, popped or on none, the tables are in step with the root map that the requests alone
give, and the roots that are enumerated under a stop are those of the root map.
-/

namespace RootedHeap

namespace CallStacks

variable {t : CallStacks} {f : FrameRef} {s : StackRef} {held : List Handle}
  {below above : List FrameRef} {edit : Frame → Frame}

/-- What one frame holds is changed, and nothing else. -/
structure Edited (t t' : CallStacks) (f : FrameRef) (held : List Handle) : Prop where
  handles : (t'.frame f).handles = held
  depth : (t'.frame f).depth = (t.frame f).depth
  state : (t'.frame f).state = (t.frame f).state
  others : ∀ g, g ≠ f → t'.frame g = t.frame g
  stack : ∀ s, t'.stack s = t.stack s
  registered : t'.registered = t.registered

theorem edited_change (hf : f < t.frames.size) (hhandles : (edit (t.frame f)).handles = held)
    (hdepth : (edit (t.frame f)).depth = (t.frame f).depth)
    (hstate : (edit (t.frame f)).state = (t.frame f).state) :
    t.Edited (t.change f edit) f held := by
  have hframe : (t.change f edit).frame f = edit (t.frame f) := by
    rw [frame_change hf, if_pos rfl]
  exact ⟨hframe ▸ hhandles, hframe ▸ hdepth, hframe ▸ hstate,
    fun g hg => frame_change_of_ne (Ne.symm hg), fun _ => rfl, rfl⟩

/-- Frames are taken off the top of a stack and retired, and nothing else changes. -/
structure Unwound (t t' : CallStacks) (s : StackRef) (below removed : List FrameRef) : Prop where
  frames : (t'.stack s).frames = below
  id : (t'.stack s).id = (t.stack s).id
  stack : ∀ k, k ≠ s → t'.stack k = t.stack k
  popped : ∀ g ∈ removed, (t'.frame g).state = .popped
  emptied : ∀ g ∈ removed, (t'.frame g).handles = []
  others : ∀ g, g ∉ removed → t'.frame g = t.frame g
  registered : t'.registered = t.registered

/-- A frame of a stack leaves it with all that is above it. -/
theorem unwound_pop (ht : t.Stacked) (hstack : (t.stack s).frames = below ++ f :: above) :
    t.Unwound (t.pop s f) s below (f :: above) := by
  have hf := ht.not_mem_below hstack
  have hremoved : (t.stack s).frames.dropWhile (· ≠ f) = f :: above := by
    rw [hstack, dropWhile_ne_append hf]
  refine ⟨?_, ?_, fun k hk => ?_, fun g hg => ?_, fun g hg => ?_, fun g hg => ?_, registered_pop⟩
  · rw [stack_pop, if_pos rfl, hstack]
    exact takeWhile_ne_append hf
  · rw [stack_pop, if_pos rfl]
  · rw [stack_pop, if_neg (Ne.symm hk)]
  · rw [frame_pop, hremoved, if_pos hg]
    rfl
  · rw [frame_pop, hremoved, if_pos hg]
    rfl
  · rw [frame_pop, hremoved, if_neg hg]

end CallStacks

namespace Workbench

variable {w : Workbench}

/-! ### Requests to a workbench and its tables -/

theorem calls_askGate (w : Workbench) (t : Thread) (command : GateCommand) :
    (w.askGate t command).2.calls = w.calls := by
  cases command <;> rfl

theorem calls_askGateAll (w : Workbench) (t : Thread) (commands : List GateCommand) :
    (w.askGateAll t commands).2.calls = w.calls := by
  induction commands generalizing w with
  | nil => rfl
  | cons command commands ih => exact (ih _).trans (calls_askGate w t command)

theorem calls_about (w : Workbench) (i : Nat) (reply : Choice → BenchReply) :
    (w.about i reply).2.calls = w.calls := by
  unfold about
  split <;> rfl

theorem calls_onAllocator {α : Type} (w : Workbench) (i : Nat) (reply : α → BenchReply)
    (operation : Arena Choice → Answer α × Arena Choice) :
    (w.onAllocator i reply operation).2.calls = w.calls := by
  unfold onAllocator
  split <;> rfl

theorem calls_tryThrough (w : Workbench) (t : Thread) (stops : Bool) :
    (w.tryThrough t stops).2.calls = w.calls := by
  unfold tryThrough
  split
  · exact calls_askGateAll w t _
  · rfl

theorem calls_elsewhereWaits (w : Workbench) (stops : Bool) :
    (w.elsewhereWaits stops).2.calls = w.calls := by
  have hresumed : ∀ w' : Workbench, w'.calls = w.calls →
      (w'.askGate Thread.first .resume).2.calls = w.calls := fun w' hw' =>
    (calls_askGate w' _ _).trans hw'
  have hbefore := calls_tryThrough w.spawn.2 w.spawn.1 stops
  unfold elsewhereWaits
  dsimp only
  split
  · exact hresumed _ hbefore
  · exact (calls_tryThrough _ _ _).trans (hresumed _ hbefore)

/-- The tables change by requests to stacks and frames only. -/
theorem calls_perform (w : Workbench) (command : BenchCommand) :
    (w.perform command).2.calls = w.calls.after command := by
  cases command with
  | cell h command =>
    unfold perform
    dsimp only
    split <;> rfl
  | gate command => exact calls_askGate w _ _
  | bind | allocate | collect => exact calls_onAllocator w _ _ _
  | stats | name | free | phase | layout => exact calls_about w _ _
  | leave i =>
    unfold perform
    dsimp only
    split <;> rfl
  | guardRoots i =>
    unfold perform
    dsimp only
    split <;> rfl
  | guardDrop i =>
    unfold perform
    dsimp only
    split
    · exact calls_askGate w _ _
    · rfl
  | elsewhere commands => exact calls_askGateAll _ _ _
  | elsewhereWaits stops => exact calls_elsewhereWaits w stops
  | _ => rfl

theorem calls_performAll (w : Workbench) (commands : List BenchCommand) :
    (w.performAll commands).2.calls = commands.foldl CallStacks.after w.calls := by
  induction commands generalizing w with
  | nil => rfl
  | cons command commands ih =>
    exact (ih _).trans (congrArg (commands.foldl CallStacks.after) (calls_perform w command))

/-! ### A workbench in step with a root map -/

/-- What the stacks and frames of a workbench do when they are in step with a root map. -/
structure Refines (w : Workbench) (m : RootMap) : Prop where
  rootMap : w.calls.rootMap = m
  apart : m.ids.Nodup
  register : (w.perform .register).1 = .ok (.number m.idCount)
  below : ∀ id ∈ m.ids, id < m.idCount
  /-- A number that was given out and is no longer in use is never in use again. -/
  retired : ∀ id < m.idCount, id ∉ m.ids →
    ∀ later, id ∉ (w.performAll later).2.calls.rootMap.ids
  /-- The frame that is pushed next has the name under which the root map enters it. -/
  push : ∀ s, (w.perform (.push s)).1 = .ok (.number m.frameCount)
  depth : ∀ s i f, (w.calls.stack s).frames[i]? = some f → (w.calls.frame f).depth = i
  once : ∀ s, (w.calls.stack s).frames.Nodup
  distinct : ∀ f, (w.calls.frame f).handles.Nodup
  insert : ∀ f < w.calls.frames.size, ∀ h,
    (w.perform (.insert f h)).1 = .ok (.flag (h ∉ (w.calls.frame f).handles)) ∧
      w.calls.Edited (w.perform (.insert f h)).2.calls f
        (if h ∈ (w.calls.frame f).handles then (w.calls.frame f).handles
          else (w.calls.frame f).handles ++ [h])
  remove : ∀ f < w.calls.frames.size, ∀ h,
    (w.perform (.remove f h)).1 = .ok (.flag (h ∈ (w.calls.frame f).handles)) ∧
      w.calls.Edited (w.perform (.remove f h)).2.calls f
        ((w.calls.frame f).handles.filter (· != h))
  clear : ∀ f < w.calls.frames.size,
    w.calls.Edited (w.perform (.clearFrame f)).2.calls f []
  pop : ∀ s f below above, (w.calls.stack s).frames = below ++ f :: above →
    w.calls.Unwound (w.perform (.pop s f)).2.calls s below (f :: above)
  gone : ∀ s f below above, (w.calls.stack s).frames = below ++ f :: above → ∀ g ∈ f :: above,
    ∀ later k, g ∉ (((w.perform (.pop s f)).2.performAll later).2.calls.stack k).frames
  absent : ∀ s f, f ∉ (w.calls.stack s).frames → (w.perform (.pop s f)).2 = w
  /-- However the gate stands, a thread that does not hold the stop is refused the roots. -/
  unheld : ∀ (gate : Gate) (t : Thread), gate.heldBy t = false →
    ({ w with gate }.askGate t .enumerate).1 = .error .unstoppedRootScan
  enumerated : ∀ (gate : Gate) (t : Thread), gate.heldBy t = true →
    ∃ roots, ({ w with gate }.askGate t .enumerate).1 = .ok (.roots roots) ∧ roots.Perm m.roots

/-- Tables of the right shape are in step with their root map. -/
theorem refines_rootMap (hw : w.calls.Stacked) (hm : w.calls.rootMap.Numbered) :
    w.Refines w.calls.rootMap where
  rootMap := rfl
  apart := hm.nodup
  register := by
    change Except.ok (BenchReply.number (w.calls.register.2.stack w.calls.known.size).id) = _
    rw [CallStacks.stack_register, if_pos rfl]
    rfl
  below := hm.lt
  retired id hlt hid later := by
    rw [calls_performAll, CallStacks.rootMap_foldl hw]
    exact RootMap.not_mem_ids_foldl hlt hid
  push s := rfl
  depth := hw.depth
  once := hw.nodup
  distinct := hw.handles
  insert f hf h := by
    refine ⟨?_, CallStacks.edited_change hf Frame.handles_insert Frame.depth_insert
      Frame.state_insert⟩
    change Except.ok (BenchReply.flag !(w.calls.frame f).holds h) = _
    rw [Frame.holds_eq_decide, decide_not]
  remove f hf h := by
    refine ⟨?_, CallStacks.edited_change hf hw.handles_remove rfl rfl⟩
    change Except.ok (BenchReply.flag ((w.calls.frame f).holds h)) = _
    rw [Frame.holds_eq_decide]
  clear f hf := CallStacks.edited_change hf rfl rfl rfl
  pop s f below above hstack := CallStacks.unwound_pop hw hstack
  gone s f below above hstack g hg later k := by
    have hon : g ∈ (w.calls.stack s).frames := hstack ▸ List.mem_append_right _ hg
    have hremoved : g ∈ (w.calls.stack s).frames.dropWhile (· ≠ f) := by
      rwa [hstack, CallStacks.dropWhile_ne_append (hw.not_mem_below hstack)]
    rw [calls_performAll]
    refine CallStacks.not_mem_frames_foldl ?_ (hw.not_mem_frames_pop hremoved) k
    exact Nat.lt_of_lt_of_eq (hw.made s g hon) CallStacks.size_pop.symm
  absent s f hf := by
    change { w with calls := w.calls.pop s f } = w
    rw [CallStacks.pop_of_not_mem hf]
  unheld gate t ht := by
    have hroots : ({ w with gate }.arena ()).enumerate t w.calls = .error .unstoppedRootScan :=
      if_neg (Bool.not_eq_true _ ▸ ht)
    rw [askGate]
    dsimp only
    rw [hroots]
    rfl
  enumerated gate t ht := by
    have hroots : ({ w with gate }.arena ()).enumerate t w.calls = .ok w.calls.roots := if_pos ht
    refine ⟨w.calls.roots.mergeSort (· ≤ ·), ?_, ?_⟩
    · rw [askGate]
      dsimp only
      rw [hroots]
      rfl
    · rw [CallStacks.roots_rootMap]
      exact List.mergeSort_perm _ _

/-- After any requests, to a workbench on which nothing was made, its stacks are in step with the
root map that the requests give. -/
theorem refines_performAll (heap : Heap) (commands : List BenchCommand) :
    ((withHeap heap).performAll commands).2.Refines (commands.foldl RootMap.after .empty) := by
  have hcalls := calls_performAll (withHeap heap) commands
  have hmap : ((withHeap heap).performAll commands).2.calls.rootMap =
      commands.foldl RootMap.after .empty := by
    rw [hcalls]
    exact CallStacks.rootMap_foldl CallStacks.stacked_empty
  have hw : ((withHeap heap).performAll commands).2.calls.Stacked :=
    hcalls ▸ CallStacks.stacked_empty.foldl commands
  have hm := RootMap.numbered_empty.foldl commands
  rw [← hmap] at hm ⊢
  exact refines_rootMap hw hm

end Workbench

end RootedHeap
