import Mathlib.Data.List.Basic
import Mathlib.Data.List.Nodup
import RootedHeap.Proofs.Tables
import RootedHeap.Workbench.Command

/-!
Call stacks as a root map. All that counts for the roots is which stacks are registered, under which
numbers, and what their frames hold: the `RootMap`. It is kept by requests alone (`RootMap.after`)
and knows nothing of stacks that are no longer registered or of frames that have left their stack.
The tables of frames and stacks know of all these, and requests may name them. Whatever is asked of
the tables, in any order, each frame stays on at most one stack, at the place that its depth says
(`CallStacks.Stacked`), so that what the tables become is in step with the root map
(`CallStacks.rootMap_after`).
-/

namespace RootedHeap

/-- What counts for the roots of a registered stack: its number, and what each of its frames holds,
the entry frame first. -/
structure RootEntry where
  stack : StackRef
  id : Nat
  frames : List (FrameRef × List Handle)
  deriving DecidableEq

namespace RootEntry

variable {e : RootEntry} {s : StackRef} {f : FrameRef}

/-- The entry with the frames of one stack edited. -/
def onStack (s : StackRef) (edit : List (FrameRef × List Handle) → List (FrameRef × List Handle))
    (e : RootEntry) : RootEntry :=
  if e.stack = s then { e with frames := edit e.frames } else e

/-- The entry with what one frame holds edited. -/
def onFrame (f : FrameRef) (edit : List Handle → List Handle) (e : RootEntry) : RootEntry :=
  { e with frames := e.frames.map fun held => (held.1, if held.1 = f then edit held.2 else held.2) }

@[simp] theorem id_onStack {edit : List (FrameRef × List Handle) → List (FrameRef × List Handle)} :
    (e.onStack s edit).id = e.id := by
  unfold onStack
  split <;> rfl

theorem onFrame_id : e.onFrame f (fun held => held) = e := by
  simp only [onFrame, ite_self, List.map_id']

end RootEntry

/-- The registered stacks in the order of their registration, and how many stacks, frames and
numbers were given out. -/
@[ext]
structure RootMap where
  entries : List RootEntry
  stackCount : Nat
  frameCount : Nat
  idCount : Nat
  deriving DecidableEq

namespace RootMap

def empty : RootMap := ⟨[], 0, 0, 0⟩

def revise (m : RootMap) (edit : RootEntry → RootEntry) : RootMap :=
  { m with entries := m.entries.map edit }

def after (m : RootMap) : BenchCommand → RootMap
  | .register =>
    { m with
      entries := m.entries ++ [⟨m.stackCount, m.idCount, []⟩]
      stackCount := m.stackCount + 1
      idCount := m.idCount + 1 }
  | .unregister id => { m with entries := m.entries.filter (·.id ≠ id) }
  | .newStack _ => { m with stackCount := m.stackCount + 1 }
  | .push s =>
    { m.revise (·.onStack s (· ++ [(m.frameCount, [])])) with frameCount := m.frameCount + 1 }
  | .pop s f => m.revise (·.onStack s (·.takeWhile (·.1 ≠ f)))
  | .newFrame _ => { m with frameCount := m.frameCount + 1 }
  | .insert f h => m.revise (·.onFrame f fun held => if h ∈ held then held else held ++ [h])
  | .remove f h => m.revise (·.onFrame f (·.filter (· != h)))
  | .clearFrame f => m.revise (·.onFrame f fun _ => [])
  | _ => m

def ids (m : RootMap) : List Nat := m.entries.map (·.id)

/-- What the frames of the registered stacks hold, one entry each time something is held. -/
def roots (m : RootMap) : List Handle := m.entries.flatMap fun e => e.frames.flatMap (·.2)

/-! ### Numbers -/

variable {m : RootMap} {id : Nat} {command : BenchCommand} {commands : List BenchCommand}

/-- The numbers in use are apart, and all of them were given out. -/
structure Numbered (m : RootMap) : Prop where
  nodup : m.ids.Nodup
  lt : ∀ id ∈ m.ids, id < m.idCount

theorem numbered_empty : empty.Numbered := ⟨List.nodup_nil, fun _ hid => (nomatch hid)⟩

theorem ids_revise {edit : RootEntry → RootEntry} (hedit : ∀ e, (edit e).id = e.id) :
    (m.revise edit).ids = m.ids := by
  rw [ids, revise, List.map_map, ids]
  exact List.map_congr_left fun e _ => hedit e

/-- Only a registration brings a number, the next one, and no number that is not asked for goes. -/
theorem ids_after : (m.after command).ids =
    match command with
    | .register => m.ids ++ [m.idCount]
    | .unregister id => m.ids.filter (· ≠ id)
    | _ => m.ids := by
  cases command with
  | register => exact List.map_append
  | unregister id => exact (List.filter_map (p := (· ≠ id))).symm
  | push | pop => exact ids_revise fun _ => RootEntry.id_onStack
  | insert | remove | clearFrame => exact ids_revise fun _ => rfl
  | _ => rfl

theorem idCount_after : (m.after command).idCount =
    match command with
    | .register => m.idCount + 1
    | _ => m.idCount := by
  cases command <;> rfl

theorem idCount_le_after : m.idCount ≤ (m.after command).idCount := by
  rw [idCount_after]
  split
  · exact Nat.le_succ _
  · exact Nat.le_refl _

theorem mem_ids_after (hid : id ∈ (m.after command).ids) : id ∈ m.ids ∨ id = m.idCount := by
  rw [ids_after] at hid
  split at hid
  · exact (List.mem_append.1 hid).imp_right List.mem_singleton.1
  · exact .inl (List.mem_filter.1 hid).1
  · exact .inl hid

namespace Numbered

theorem after (hm : m.Numbered) : (m.after command).Numbered where
  nodup := by
    rw [ids_after]
    split
    · exact nodup_append_singleton hm.nodup fun hmem => Nat.lt_irrefl _ (hm.lt _ hmem)
    · exact hm.nodup.filter _
    · exact hm.nodup
  lt id hid := by
    rw [ids_after] at hid
    rw [idCount_after]
    cases command with
    | register =>
      rcases List.mem_append.1 hid with hold | hnew
      · exact Nat.lt_succ_of_lt (hm.lt id hold)
      · exact List.mem_singleton.1 hnew ▸ Nat.lt_succ_self _
    | unregister => exact hm.lt id (List.mem_filter.1 hid).1
    | _ => exact hm.lt id hid

theorem foldl (hm : m.Numbered) (commands : List BenchCommand) :
    (commands.foldl RootMap.after m).Numbered := by
  induction commands generalizing m with
  | nil => exact hm
  | cons command commands ih => exact ih hm.after

end Numbered

/-- A number that was given out and is no longer in use is never in use again. -/
theorem not_mem_ids_foldl (hlt : id < m.idCount) (hid : id ∉ m.ids) :
    id ∉ (commands.foldl after m).ids := by
  induction commands generalizing m with
  | nil => exact hid
  | cons command commands ih =>
    refine ih (Nat.lt_of_lt_of_le hlt idCount_le_after) fun hmem => ?_
    rcases mem_ids_after hmem with hold | rfl
    · exact hid hold
    · exact Nat.lt_irrefl _ hlt

end RootMap

namespace CallStacks

variable {t t' : CallStacks} {f g : FrameRef} {s k : StackRef} {h : Handle}
  {edit : Frame → Frame} {command : BenchCommand} {commands : List BenchCommand}

/-! ### Requests to the tables -/

def after (t : CallStacks) : BenchCommand → CallStacks
  | .register => t.register.2
  | .unregister id => t.unregister id
  | .newStack id => (t.addStack id).2
  | .push s => (t.push s).2
  | .pop s f => t.pop s f
  | .newFrame depth => (t.addFrame (.fresh depth)).2
  | .insert f h => t.change f (·.insert h)
  | .remove f h => t.change f (·.remove h)
  | .clearFrame f => t.change f Frame.clear
  | .setState f state => t.change f (·.enter state)
  | _ => t

/-- A push leaves every stack, or extends the one it is on. -/
theorem frames_push (t : CallStacks) (s k : StackRef) :
    ((t.push s).2.stack k).frames = (t.stack k).frames ∨
    k = s ∧ ((t.push s).2.stack k).frames = (t.stack k).frames ++ [t.frames.size] := by
  rw [stack_push]
  split
  · rename_i hk
    exact .inr ⟨hk.1.symm, rfl⟩
  · exact .inl rfl

theorem mem_frames_push (hf : f ∈ ((t.push s).2.stack k).frames) :
    f ∈ (t.stack k).frames ∨ k = s ∧ f = t.frames.size := by
  rcases frames_push t s k with hsame | ⟨hk, hpushed⟩
  · exact .inl (hsame ▸ hf)
  · rw [hpushed] at hf
    exact (List.mem_append.1 hf).imp_right fun hnew => ⟨hk, List.mem_singleton.1 hnew⟩

/-- Every stack, after a request, begins with frames that it had, and any frame beyond is new. -/
theorem frames_after (t : CallStacks) (command : BenchCommand) (k : StackRef) :
    ((t.after command).stack k).frames <+: (t.stack k).frames ∨
    ((t.after command).stack k).frames = (t.stack k).frames ++ [t.frames.size] := by
  cases command with
  | register | newStack => exact .inl prefix_addStack
  | push s =>
    rcases frames_push t s k with hsame | ⟨-, hpushed⟩
    · exact .inl ⟨[], (List.append_nil _).trans hsame⟩
    · exact .inr hpushed
  | pop s f => exact .inl prefix_pop
  | _ => exact .inl List.prefix_rfl

theorem size_le_after : t.frames.size ≤ (t.after command).frames.size := by
  cases command with
  | push s => exact size_push ▸ Nat.le_succ _
  | pop s f => exact Nat.le_of_eq size_pop.symm
  | newFrame depth => exact Array.size_push _ ▸ Nat.le_succ _
  | insert | remove | clearFrame | setState => exact Nat.le_of_eq size_change.symm
  | _ => exact Nat.le_refl _

/-- A frame that was made and is on no stack is never on a stack again. -/
theorem not_mem_frames_foldl (hf : f < t.frames.size) (hoff : ∀ k, f ∉ (t.stack k).frames) (k) :
    f ∉ ((commands.foldl after t).stack k).frames := by
  induction commands generalizing t with
  | nil => exact hoff k
  | cons command commands ih =>
    refine ih (Nat.lt_of_lt_of_le hf size_le_after) fun k hmem => ?_
    rcases frames_after t command k with hbegins | hpushed
    · exact hoff k (hbegins.subset hmem)
    · rw [hpushed, List.mem_append, List.mem_singleton] at hmem
      rcases hmem with hold | rfl
      · exact hoff k hold
      · exact Nat.lt_irrefl _ hf

/-! ### Frames on stacks -/

/-- The frames of a stack were made, stand on that stack only and once, and are numbered from the
bottom; no frame holds an object twice; and the registered stacks were made. -/
structure Stacked (t : CallStacks) : Prop where
  made : ∀ s, ∀ f ∈ (t.stack s).frames, f < t.frames.size
  nodup : ∀ s, (t.stack s).frames.Nodup
  apart : ∀ s k f, f ∈ (t.stack s).frames → f ∈ (t.stack k).frames → s = k
  depth : ∀ s i f, (t.stack s).frames[i]? = some f → (t.frame f).depth = i
  handles : ∀ f, (t.frame f).handles.Nodup
  known : ∀ s ∈ t.registered, s < t.known.size

theorem stacked_empty : Stacked empty :=
  ⟨fun _ _ hf => (nomatch hf), fun _ => List.nodup_nil, fun _ _ _ hf => (nomatch hf),
    fun _ _ _ hf => (nomatch hf), fun _ => List.nodup_nil, fun _ hs => (nomatch hs)⟩

namespace Stacked

/-- An object that is removed is no longer held, and the others are held in their order. -/
theorem handles_remove (ht : t.Stacked) :
    ((t.frame f).remove h).handles = (t.frame f).handles.filter (· != h) :=
  Frame.handles_remove.trans ((ht.handles f).erase_eq_filter h)

/-- Requests that push nothing: frames may leave the tops of stacks, and frames may be made that
are on none. -/
theorem of_prefix (ht : t.Stacked) (hbegins : ∀ s, (t'.stack s).frames <+: (t.stack s).frames)
    (hsize : t.frames.size ≤ t'.frames.size)
    (hdepth : ∀ f < t.frames.size, (t'.frame f).depth = (t.frame f).depth)
    (hhandles : ∀ f, (t'.frame f).handles.Nodup) (hknown : ∀ s ∈ t'.registered, s < t'.known.size) :
    t'.Stacked where
  made s f hf := Nat.lt_of_lt_of_le (ht.made s f ((hbegins s).subset hf)) hsize
  nodup s := (ht.nodup s).sublist (hbegins s).sublist
  apart s k f hf hf' := ht.apart s k f ((hbegins s).subset hf) ((hbegins k).subset hf')
  depth s i f hi := by
    have hold : (t.stack s).frames[i]? = some f := by
      obtain ⟨rest, hrest⟩ := hbegins s
      rw [← hrest, List.getElem?_append_left (List.getElem?_eq_some_iff.1 hi).1, hi]
    rw [hdepth f (ht.made s f (List.mem_of_getElem? hold)), ht.depth s i f hold]
  handles := hhandles
  known := hknown

theorem change (ht : t.Stacked) (hdepth : ∀ frame, (edit frame).depth = frame.depth)
    (hhandles : ∀ frame : Frame, frame.handles.Nodup → (edit frame).handles.Nodup) :
    (t.change f edit).Stacked := by
  rcases Nat.lt_or_ge f t.frames.size with hf | hf
  · refine ht.of_prefix (fun s => List.prefix_rfl) (Nat.le_of_eq size_change.symm)
      (fun g hg => ?_) (fun g => ?_) ht.known
    · rw [frame_change hf]
      split
      · exact hdepth _
      · rfl
    · rw [frame_change hf]
      split
      · exact hhandles _ (ht.handles g)
      · exact ht.handles g
  · rwa [change_of_size_le hf]

theorem pop (ht : t.Stacked) (s : StackRef) (f : FrameRef) : (t.pop s f).Stacked := by
  refine ht.of_prefix (fun k => prefix_pop) (Nat.le_of_eq size_pop.symm) (fun g hg => ?_)
    (fun g => ?_) fun k hk => ?_
  · rw [frame_pop]
    split <;> rfl
  · rw [frame_pop]
    split
    · exact List.nodup_nil
    · exact ht.handles g
  · rw [registered_pop] at hk
    rw [known_size_pop]
    exact ht.known k hk

/-- A frame that is not made yet is on no stack. -/
theorem not_mem_frames (ht : t.Stacked) (k : StackRef) : t.frames.size ∉ (t.stack k).frames :=
  fun hk => Nat.lt_irrefl _ (ht.made k _ hk)

theorem depth_push (ht : t.Stacked) {i : Nat}
    (hi : ((t.push s).2.stack k).frames[i]? = some f) : ((t.push s).2.frame f).depth = i := by
  have hdepth : ∀ {f}, (t.stack k).frames[i]? = some f → ((t.push s).2.frame f).depth = i := by
    intro f hold
    rw [frame_push, if_neg (Nat.ne_of_lt (ht.made k f (List.mem_of_getElem? hold))),
      ht.depth k i f hold]
  rcases frames_push t s k with hsame | ⟨rfl, hpushed⟩
  · exact hdepth (hsame ▸ hi)
  · rw [hpushed, List.getElem?_append] at hi
    split at hi
    · exact hdepth hi
    · -- the new frame stands where the old ones end
      rename_i hlength
      obtain ⟨hlt, rfl⟩ := List.getElem?_eq_some_iff.1 hi
      rw [List.length_singleton, Nat.lt_one_iff, Nat.sub_eq_zero_iff_le] at hlt
      rw [List.getElem_singleton, frame_push, if_pos rfl]
      exact Nat.le_antisymm (Nat.le_of_not_lt hlength) hlt

theorem push (ht : t.Stacked) (s : StackRef) : (t.push s).2.Stacked where
  made k f hf := by
    rw [size_push]
    rcases mem_frames_push hf with hold | ⟨-, rfl⟩
    · exact Nat.lt_succ_of_lt (ht.made k f hold)
    · exact Nat.lt_succ_self _
  nodup k := by
    rcases frames_push t s k with hsame | ⟨-, hpushed⟩
    · exact hsame ▸ ht.nodup k
    · exact hpushed ▸ nodup_append_singleton (ht.nodup k) (ht.not_mem_frames k)
  apart k k' f hf hf' := by
    rcases mem_frames_push hf with hold | ⟨rfl, rfl⟩
    · rcases mem_frames_push hf' with hold' | ⟨-, rfl⟩
      · exact ht.apart k k' f hold hold'
      · exact absurd hold (ht.not_mem_frames k)
    · rcases mem_frames_push hf' with hold' | ⟨rfl, -⟩
      · exact absurd hold' (ht.not_mem_frames k')
      · rfl
  depth _ _ _ hi := ht.depth_push hi
  handles f := by
    rw [frame_push]
    split
    · exact List.nodup_nil
    · exact ht.handles f
  known k hk := by
    rw [known_size_push]
    exact ht.known k hk

theorem after (ht : t.Stacked) : (t.after command).Stacked := by
  cases command with
  | register =>
    refine ht.of_prefix (fun k => prefix_addStack) (Nat.le_refl _)
      (fun _ _ => rfl) ht.handles fun k hk => ?_
    rw [show (t.after .register).known.size = _ from known_size_register]
    rcases List.mem_append.1 hk with hold | hnew
    · exact Nat.lt_succ_of_lt (ht.known k hold)
    · exact List.mem_singleton.1 hnew ▸ Nat.lt_succ_self _
  | unregister id =>
    exact ht.of_prefix (fun k => List.prefix_rfl) (Nat.le_refl _) (fun _ _ => rfl) ht.handles
      fun k hk => ht.known k (mem_registered_unregister.1 hk).1
  | newStack id =>
    refine ht.of_prefix (fun k => prefix_addStack) (Nat.le_refl _)
      (fun _ _ => rfl) ht.handles fun k hk => ?_
    exact Array.size_push _ ▸ Nat.lt_succ_of_lt (ht.known k hk)
  | push s => exact ht.push s
  | pop s f => exact ht.pop s f
  | newFrame depth =>
    refine ht.of_prefix (fun k => List.prefix_rfl) (Array.size_push _ ▸ Nat.le_succ _)
      (fun f hf => ?_) (fun f => ?_) ht.known
    · change ((t.addFrame _).2.frame f).depth = _
      rw [frame_addFrame, if_neg (Nat.ne_of_lt hf)]
    · change ((t.addFrame _).2.frame f).handles.Nodup
      rw [frame_addFrame]
      split
      · exact List.nodup_nil
      · exact ht.handles f
  | insert f h => exact ht.change (fun _ => Frame.depth_insert) fun _ => Frame.nodup_insert
  | remove f h =>
    refine ht.change (fun _ => rfl) fun frame hnodup => ?_
    rw [Frame.handles_remove]
    exact hnodup.erase h
  | clearFrame f => exact ht.change (fun _ => rfl) fun _ _ => List.nodup_nil
  | setState f state => exact ht.change (fun _ => rfl) fun _ hnodup => hnodup
  | _ => exact ht

theorem foldl (ht : t.Stacked) (commands : List BenchCommand) :
    (commands.foldl CallStacks.after t).Stacked := by
  induction commands generalizing t with
  | nil => exact ht
  | cons command commands ih => exact ih ht.after

/-- No frame is below itself. -/
theorem not_mem_below (ht : t.Stacked) {below above : List FrameRef}
    (hstack : (t.stack s).frames = below ++ f :: above) : f ∉ below := fun hf => by
  have hnodup := ht.nodup s
  rw [hstack] at hnodup
  exact (List.nodup_append.1 hnodup).2.2 f hf f List.mem_cons_self rfl

/-- What a pop takes off a stack is on no stack afterwards. -/
theorem not_mem_frames_pop (ht : t.Stacked) (hg : g ∈ (t.stack s).frames.dropWhile (· ≠ f)) (k) :
    g ∉ ((t.pop s f).stack k).frames := by
  have hon : g ∈ (t.stack s).frames := List.dropWhile_subset _ hg
  have hnodup : ((t.stack s).frames.takeWhile (· ≠ f) ++
      (t.stack s).frames.dropWhile (· ≠ f)).Nodup := by
    rw [List.takeWhile_append_dropWhile]
    exact ht.nodup s
  rw [stack_pop]
  split
  · rename_i hk
    subst hk
    exact fun hmem => (List.nodup_append.1 hnodup).2.2 g hmem g hg rfl
  · rename_i hk
    exact fun hmem => hk (ht.apart s k g hon hmem)

end Stacked

/-! ### The root map of the tables -/

/-- What counts for the roots of a stack. -/
def rootEntry (t : CallStacks) (s : StackRef) : RootEntry :=
  ⟨s, (t.stack s).id, (t.stack s).frames.map fun f => (f, (t.frame f).handles)⟩

/-- What counts for the roots of all registered stacks. -/
def rootMap (t : CallStacks) : RootMap :=
  ⟨t.registered.map t.rootEntry, t.known.size, t.frames.size, t.nextId⟩

theorem roots_rootMap : t.rootMap.roots = t.roots := by
  simp only [RootMap.roots, rootMap, roots, rootEntry, List.flatMap_map]
  rfl

theorem rootEntry_congr (hstack : t'.stack k = t.stack k)
    (hframe : ∀ f ∈ (t.stack k).frames, t'.frame f = t.frame f) :
    t'.rootEntry k = t.rootEntry k := by
  rw [rootEntry, hstack, rootEntry]
  congr 1
  exact List.map_congr_left fun f hf => by rw [hframe f hf]

/-- A change of what one frame holds. -/
theorem rootEntry_change (ht : t.Stacked) {change : List Handle → List Handle}
    (hedit : (edit (t.frame f)).handles = change (t.frame f).handles) :
    (t.change f edit).rootEntry k = (t.rootEntry k).onFrame f change := by
  simp only [rootEntry, RootEntry.onFrame, stack_change, List.map_map]
  congr 1
  refine List.map_congr_left fun g hg => ?_
  rw [Function.comp_apply]
  by_cases hgf : g = f
  · subst hgf
    rw [frame_change (ht.made k g hg), if_pos rfl, hedit, if_pos rfl]
  · rw [frame_change_of_ne (Ne.symm hgf), if_neg hgf]

theorem rootEntry_push (ht : t.Stacked) (hk : k < t.known.size) :
    (t.push s).2.rootEntry k = (t.rootEntry k).onStack s (· ++ [(t.frames.size, [])]) := by
  have hold : ∀ f ∈ (t.stack k).frames,
      (f, ((t.push s).2.frame f).handles) = (f, (t.frame f).handles) := fun f hf => by
    rw [frame_push, if_neg (Nat.ne_of_lt (ht.made k f hf))]
  unfold rootEntry RootEntry.onStack
  by_cases hs : k = s
  · subst hs
    rw [stack_push, if_pos ⟨rfl, hk⟩, if_pos rfl, List.map_append, List.map_congr_left hold,
      List.map_singleton, frame_push, if_pos rfl, Frame.handles_fresh]
  · rw [stack_push, if_neg fun hks => hs hks.1.symm, if_neg hs, List.map_congr_left hold]

theorem rootEntry_pop (ht : t.Stacked) :
    (t.pop s f).rootEntry k = (t.rootEntry k).onStack s (·.takeWhile (·.1 ≠ f)) := by
  -- what is still on a stack has not been taken off
  have hkept : ∀ g ∈ ((t.pop s f).stack k).frames,
      (g, ((t.pop s f).frame g).handles) = (g, (t.frame g).handles) := fun g hg => by
    rw [frame_pop, if_neg fun hmem => ht.not_mem_frames_pop hmem k hg]
  unfold rootEntry RootEntry.onStack
  rw [List.map_congr_left hkept, stack_pop]
  by_cases hs : k = s
  · subst hs
    rw [if_pos rfl, if_pos rfl]
    dsimp only
    rw [List.takeWhile_map]
    rfl
  · rw [if_neg (Ne.symm hs), if_neg hs]

theorem rootMap_change (ht : t.Stacked) {change : List Handle → List Handle}
    (hedit : (edit (t.frame f)).handles = change (t.frame f).handles) :
    (t.change f edit).rootMap = t.rootMap.revise (·.onFrame f change) := by
  refine RootMap.ext ?_ rfl size_change rfl
  change t.registered.map _ = (t.registered.map _).map _
  rw [List.map_map]
  exact List.map_congr_left fun k _ => rootEntry_change ht hedit

/-- A stack that is made next is none of those that are registered. -/
theorem map_rootEntry_addStack (ht : t.Stacked) {id : Nat} :
    t.registered.map (t.addStack id).2.rootEntry = t.registered.map t.rootEntry := by
  refine List.map_congr_left fun k hk => rootEntry_congr ?_ fun _ _ => rfl
  rw [stack_addStack, if_neg (Nat.ne_of_lt (ht.known k hk))]

/-- The tables and the root map stay in step through every request. -/
theorem rootMap_after (ht : t.Stacked) : (t.after command).rootMap = t.rootMap.after command := by
  cases command with
  | register =>
    refine RootMap.ext ?_ known_size_register rfl rfl
    change (t.registered ++ [t.known.size]).map (t.addStack t.nextId).2.rootEntry = _
    rw [List.map_append, map_rootEntry_addStack ht, List.map_singleton, rootEntry, stack_addStack,
      if_pos rfl]
    rfl
  | unregister id =>
    refine RootMap.ext ?_ rfl rfl rfl
    exact (List.filter_map (p := fun e : RootEntry => decide (e.id ≠ id))).symm
  | newStack id => exact RootMap.ext (map_rootEntry_addStack ht) (Array.size_push _) rfl rfl
  | push s =>
    refine RootMap.ext ?_ known_size_push size_push rfl
    change t.registered.map _ = (t.registered.map _).map _
    rw [List.map_map]
    exact List.map_congr_left fun k hk => rootEntry_push ht (ht.known k hk)
  | pop s f =>
    refine RootMap.ext ?_ known_size_pop size_pop nextId_pop
    change (t.pop s f).registered.map _ = (t.registered.map _).map _
    rw [registered_pop, List.map_map]
    exact List.map_congr_left fun k _ => rootEntry_pop ht
  | newFrame depth =>
    refine RootMap.ext ?_ rfl (Array.size_push _) rfl
    refine List.map_congr_left fun k _ => rootEntry_congr rfl fun f hf => ?_
    change (t.addFrame _).2.frame f = _
    rw [frame_addFrame, if_neg (Nat.ne_of_lt (ht.made k f hf))]
  | insert f h => exact rootMap_change ht Frame.handles_insert
  | remove f h => exact rootMap_change ht ht.handles_remove
  | clearFrame f => exact rootMap_change ht rfl
  | setState f state =>
    have hsame : (t.change f (·.enter state)).rootMap =
        t.rootMap.revise (·.onFrame f fun held => held) :=
      rootMap_change ht rfl
    refine hsame.trans ?_
    simp only [RootMap.revise, RootEntry.onFrame_id, List.map_id']
    rfl
  | _ => rfl

theorem rootMap_foldl (ht : t.Stacked) :
    (commands.foldl after t).rootMap = commands.foldl RootMap.after t.rootMap := by
  induction commands generalizing t with
  | nil => rfl
  | cons command commands ih =>
    rw [List.foldl_cons, List.foldl_cons, ih ht.after, rootMap_after ht]

example :
    (([.register, .register, .push 0, .push 0, .push 1, .insert 0 3, .insert 1 4, .insert 2 5,
      .pop 0 1, .pop 1 0, .insert 1 6, .unregister 1, .insert 0 2] :
        List BenchCommand).foldl RootMap.after .empty).entries = [⟨0, 0, [(0, [3, 2])]⟩] := rfl

end CallStacks

end RootedHeap
