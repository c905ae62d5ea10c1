import Mathlib.Data.Set.Function
import RootedHeap.Proofs.Operations

/-!
Tables with every handle carried over by a renaming. A frame's image holds the images of what the
frame holds, in the same order; depth, state and stacks are as before. What an operation does to the
tables it does to their images, with the image of the object that it is about, as long as the
renaming keeps the objects that matter apart.
-/

namespace RootedHeap

variable {f f' : Handle → Handle} {S : Set Handle} {h : Handle}

/-- A word with the handle in it carried over; null and data stay as they are. -/
def Word.carry (f : Handle → Handle) (word : Word) : Word :=
  match word.target? with
  | some k => (f k).toWord
  | none => word

theorem Word.carry_of_none {word : Word} (hword : word.target? = none) : word.carry f = word := by
  simp only [carry, hword]

theorem Word.carry_of_some {word : Word} (hword : word.target? = some h) :
    word.carry f = (f h).toWord := by
  simp only [carry, hword]

/-- Erasing an element and renaming, in either order. -/
theorem map_erase_of_injOn {L : List Handle} (hf : Set.InjOn f S) (hL : ∀ k ∈ L, k ∈ S)
    (hh : h ∈ S) : (L.erase h).map f = (L.map f).erase (f h) := by
  induction L with
  | nil => rfl
  | cons k L ih =>
    have hrest : ∀ k ∈ L, k ∈ S := fun k hk => hL k (List.mem_cons_of_mem _ hk)
    by_cases hk : k = h
    · subst hk
      rw [List.erase_cons_head, List.map_cons, List.erase_cons_head]
    · have hfk : f k ≠ f h := fun heq => hk (hf (hL k List.mem_cons_self) hh heq)
      rw [List.erase_cons_tail (by simpa using hk), List.map_cons, List.map_cons,
        List.erase_cons_tail (by simpa using hfk), ih hrest]

/-- Under a renaming that keeps them apart, an object is in a list if its image is in the image. -/
theorem mem_map_iff_of_injOn {L : List Handle} (hf : Set.InjOn f S) (hL : ∀ k ∈ L, k ∈ S)
    (hh : h ∈ S) : f h ∈ L.map f ↔ h ∈ L := by
  refine ⟨fun hmem => ?_, List.mem_map_of_mem⟩
  obtain ⟨k, hk, heq⟩ := List.mem_map.1 hmem
  exact hf (hL k hk) hh heq ▸ hk

namespace Frame

variable {frame frame' : Frame} {objects : List Handle}

def image (f : Handle → Handle) (frame : Frame) : Frame :=
  { frame with active := frame.active.map f }

@[simp] theorem handles_image : (frame.image f).handles = frame.handles.map f := by
  simp only [image, handles, Array.toList_map]

@[simp] theorem state_image : (frame.image f).state = frame.state := rfl

@[simp] theorem depth_image : (frame.image f).depth = frame.depth := rfl

theorem ext_handles (hdepth : frame.depth = frame'.depth) (hstate : frame.state = frame'.state)
    (hhandles : frame.handles = frame'.handles) : frame = frame' := by
  obtain ⟨depth, state, ⟨objects⟩⟩ := frame
  obtain ⟨depth', state', ⟨objects'⟩⟩ := frame'
  obtain rfl : depth = depth' := hdepth
  obtain rfl : state = state' := hstate
  obtain rfl : objects = objects' := hhandles
  rfl

theorem image_enter {state : FrameState} :
    (frame.enter state).image f = (frame.image f).enter state := rfl

theorem image_retire : frame.retire.image f = (frame.image f).retire := by
  refine ext_handles rfl rfl ?_
  rw [handles_image, handles_retire, handles_retire, List.map_nil]

theorem image_fresh {depth : Nat} : (fresh depth).image f = fresh depth := by
  refine ext_handles rfl rfl ?_
  rw [handles_image, handles_fresh, List.map_nil]

theorem image_insert (hf : Set.InjOn f S) (hframe : ∀ k ∈ frame.handles, k ∈ S) (hh : h ∈ S) :
    (frame.insert h).image f = (frame.image f).insert (f h) := by
  refine ext_handles ?_ ?_ ?_
  · rw [depth_image, depth_insert, depth_insert, depth_image]
  · rw [state_image, state_insert, state_insert, state_image]
  · rw [handles_image, handles_insert, handles_insert, handles_image]
    have hmem := mem_map_iff_of_injOn hf hframe hh
    by_cases hheld : h ∈ frame.handles
    · rw [if_pos hheld, if_pos (hmem.2 hheld)]
    · rw [if_neg hheld, if_neg fun hin => hheld (hmem.1 hin), List.map_append]
      rfl

theorem image_remove (hf : Set.InjOn f S) (hframe : ∀ k ∈ frame.handles, k ∈ S) (hh : h ∈ S) :
    (frame.remove h).image f = (frame.image f).remove (f h) := by
  refine ext_handles rfl rfl ?_
  rw [handles_image, handles_remove, handles_remove, handles_image]
  exact map_erase_of_injOn hf hframe hh

theorem image_foldl_insert (hf : Set.InjOn f S) (hframe : ∀ k ∈ frame.handles, k ∈ S)
    (hobjects : ∀ k ∈ objects, k ∈ S) :
    (objects.foldl insert frame).image f = (objects.map f).foldl insert (frame.image f) := by
  induction objects generalizing frame with
  | nil => rfl
  | cons h objects ih =>
    have hh := hobjects h List.mem_cons_self
    have hrest : ∀ k ∈ objects, k ∈ S := fun k hk => hobjects k (List.mem_cons_of_mem _ hk)
    have hinserted : ∀ k ∈ (frame.insert h).handles, k ∈ S := by
      intro k hk
      rcases mem_handles_insert.1 hk with rfl | hold
      · exact hh
      · exact hframe k hold
    rw [List.foldl_cons, ih hinserted hrest, image_insert hf hframe hh, List.map_cons,
      List.foldl_cons]

theorem image_congr (hff' : ∀ k ∈ frame.handles, f k = f' k) : frame.image f = frame.image f' := by
  refine ext_handles rfl rfl ?_
  rw [handles_image, handles_image]
  exact List.map_congr_left hff'

end Frame

namespace CallStacks

variable {t : CallStacks} {g c : FrameRef} {s k : StackRef} {objects : List Handle}

def image (f : Handle → Handle) (t : CallStacks) : CallStacks :=
  { t with frames := t.frames.map (Frame.image f) }

@[simp] theorem stack_image : (t.image f).stack k = t.stack k := rfl

@[simp] theorem registered_image : (t.image f).registered = t.registered := rfl

@[simp] theorem size_image : (t.image f).frames.size = t.frames.size := Array.size_map

theorem frame_image : (t.image f).frame g = (t.frame g).image f := by
  have hgone : (Frame.fresh 0).retire.image f = (Frame.fresh 0).retire := Frame.image_retire
  simp only [frame, image, Array.getElem?_map]
  cases t.frames[g]? with
  | none => exact hgone.symm
  | some frame => rfl

theorem image_empty : empty.image f = empty := by
  simp only [image, empty, List.map_toArray, List.map_nil]

theorem roots_image : (t.image f).roots = t.roots.map f := by
  have hstack : (t.image f).stackRoots = fun s => (t.stackRoots s).map f := by
    funext s
    simp only [stackRoots, stack_image, frame_image, Frame.handles_image, List.map_flatMap]
  rw [roots, hstack, registered_image, roots, List.map_flatMap]

theorem ext_frames {t t' : CallStacks} (hknown : t.known = t'.known)
    (hregistered : t.registered = t'.registered) (hnextId : t.nextId = t'.nextId)
    (hsize : t.frames.size = t'.frames.size) (hframe : ∀ g, t.frame g = t'.frame g) : t = t' := by
  obtain ⟨frames, known, registered, nextId⟩ := t
  obtain ⟨frames', known', registered', nextId'⟩ := t'
  obtain rfl : known = known' := hknown
  obtain rfl : registered = registered' := hregistered
  obtain rfl : nextId = nextId' := hnextId
  have hframes : frames = frames' := by
    refine Array.ext hsize fun g hg hg' => ?_
    have heq := hframe g
    simp only [frame, Array.getElem?_eq_getElem hg, Array.getElem?_eq_getElem hg',
      Option.getD_some] at heq
    exact heq
  rw [hframes]

theorem image_congr (hff' : ∀ g, ∀ k ∈ (t.frame g).handles, f k = f' k) :
    t.image f = t.image f' := by
  refine ext_frames rfl rfl rfl (by rw [size_image, size_image]) fun g => ?_
  rw [frame_image, frame_image]
  exact Frame.image_congr (hff' g)

theorem image_change {edit edit' : Frame → Frame}
    (hedit : (edit (t.frame g)).image f = edit' ((t.frame g).image f)) :
    (t.change g edit).image f = (t.image f).change g edit' := by
  rcases Nat.lt_or_ge g t.frames.size with hg | hg
  · refine ext_frames rfl rfl rfl ?_ fun c => ?_
    · rw [size_image, size_change, size_change, size_image]
    · rw [frame_image, frame_change hg, frame_change (by rw [size_image]; exact hg), frame_image]
      split
      · rename_i hc
        rw [← hc, hedit]
      · rfl
  · rw [change_of_size_le hg, change_of_size_le (by rw [size_image]; exact hg)]

theorem image_retireAll {fs : List FrameRef} :
    (t.retireAll fs).image f = (t.image f).retireAll fs := by
  induction fs generalizing t with
  | nil => rfl
  | cons g fs ih => rw [retireAll, ih, image_change Frame.image_retire, retireAll]

theorem image_pop : (t.pop s c).image f = (t.image f).pop s c := image_retireAll

theorem image_push : (t.push s).2.image f = ((t.image f).push s).2 := by
  have hpush : (t.frames.push (Frame.fresh (t.depth s))).map (Frame.image f) =
      (t.frames.map (Frame.image f)).push (Frame.fresh (t.depth s)) := by
    rw [Array.map_push, Frame.image_fresh]
  simp only [push, addFrame, image, hpush, Array.size_map]
  rfl

/-- A frame that is opened with some objects, and its image with theirs. -/
theorem image_opened (hf : Set.InjOn f S) (hobjects : ∀ k ∈ objects, k ∈ S) :
    (t.opened s objects).image f = (t.image f).opened s (objects.map f) := by
  have hnew : ((t.push s).2.frame t.frames.size).handles = [] := by
    rw [frame_push, if_pos rfl]
    rfl
  have hempty : ∀ k ∈ ((t.push s).2.frame t.frames.size).handles, k ∈ S := by
    intro k hk
    rw [hnew] at hk
    cases hk
  rw [opened, opened, ← image_push, size_image]
  refine image_change ?_
  rw [Frame.image_enter, Frame.image_foldl_insert hf hempty hobjects]

/-- A call that is about to end with a word, and its image with the corresponding one. -/
theorem image_settled (hf : Set.InjOn f S) (hheld : ∀ k ∈ (t.frame g).handles, k ∈ S)
    {word word' : Word} (htarget : word'.target? = word.target?.map f)
    (hS : ∀ k, word.target? = some k → k ∈ S) :
    (t.settled g c (.ok word)).image f = (t.image f).settled g c (.ok word') := by
  have henter : ∀ {t : CallStacks}, (t.change c (·.enter .returning)).image f =
      (t.image f).change c (·.enter .returning) := image_change Frame.image_enter
  cases hk : word.target? with
  | none =>
    rw [hk, Option.map_none] at htarget
    rw [settled_data hk, settled_data htarget, henter]
  | some k =>
    rw [hk, Option.map_some] at htarget
    have hinsert : (t.change g (·.insert k)).image f = (t.image f).change g (·.insert (f k)) :=
      image_change (Frame.image_insert hf hheld (hS k hk))
    rw [settled_object hk, settled_object htarget, henter, hinsert]

theorem image_unregister {id : Nat} : (t.unregister id).image f = (t.image f).unregister id := rfl

end CallStacks

end RootedHeap
