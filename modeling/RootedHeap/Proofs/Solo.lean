import RootedHeap.Proofs.StackReach
import RootedHeap.Proofs.Transparency

/-!
One stack looked at alone. `CallStacks.solo` keeps of the tables only the frames that were ever made
on one stack, numbered by their places among these, and the stack itself as the only one. What is on
other stacks, how many there are, and in which order frames of different stacks were made, cannot be
told from it. A frame finds in the tables of its stack what it finds in all of them, and what an
operation does to its own stack it does to the tables of that stack.
-/

namespace RootedHeap

namespace CallStacks

variable {t t' u : CallStacks} {j : StackRef} {L : List FrameRef} {c f g : FrameRef}

/-- The tables of one stack alone, over the list of the frames that were made on it. -/
def solo (t : CallStacks) (j : StackRef) (L : List FrameRef) : CallStacks where
  frames := (L.map t.frame).toArray
  known := #[⟨0, (t.stack j).frames.map L.idxOf⟩]
  registered := [0]
  nextId := 1

/-- Whether a list has frames that were made, each once, and among them all that are on a stack. -/
structure Lists (t : CallStacks) (j : StackRef) (L : List FrameRef) : Prop where
  nodup : L.Nodup
  made : ∀ f ∈ L, f < t.frames.size
  listed : ∀ f ∈ (t.stack j).frames, f ∈ L

/-! ### What is found in the tables of one stack -/

@[simp] theorem size_solo : (t.solo j L).frames.size = L.length := by
  simp [solo]

theorem frame_solo (hf : f ∈ L) : (t.solo j L).frame (L.idxOf f) = t.frame f := by
  have hlt : L.idxOf f < L.length := List.idxOf_lt_length_of_mem hf
  simp [frame, solo, hlt, List.getElem_idxOf]

@[simp] theorem stack_solo : (t.solo j L).stack 0 = ⟨0, (t.stack j).frames.map L.idxOf⟩ := rfl

@[simp] theorem depth_solo : (t.solo j L).depth 0 = t.depth j := by
  simp [depth]

theorem stackRoots_solo (hL : t.Lists j L) : (t.solo j L).stackRoots 0 = t.stackRoots j := by
  rw [stackRoots, stack_solo, List.flatMap_map, stackRoots]
  refine List.flatMap_congr fun f hf => ?_
  rw [frame_solo (hL.listed f hf)]

theorem roots_solo (hL : t.Lists j L) : (t.solo j L).roots = t.stackRoots j := by
  have honly : (t.solo j L).roots = (t.solo j L).stackRoots 0 ++ [] := rfl
  rw [honly, List.append_nil, stackRoots_solo hL]

/-- What a frame of the stack holds is all that is held in the tables of that stack. -/
theorem exists_of_frame_solo {p : Nat} {h : Handle} (hh : h ∈ ((t.solo j L).frame p).handles) :
    ∃ f ∈ L, h ∈ (t.frame f).handles := by
  rcases Nat.lt_or_ge p L.length with hp | hp
  · have hframe : (t.solo j L).frame p = t.frame L[p] := by
      simp [frame, solo, hp]
    rw [hframe] at hh
    exact ⟨L[p], List.getElem_mem hp, hh⟩
  · rw [frame_of_size_le (by rw [size_solo]; exact hp)] at hh
    cases hh

/-- Tables are those of the stack alone if the frames that were made on it are found in them. -/
theorem eq_solo (hL : L.Nodup) (hsize : u.frames.size = L.length)
    (hknown : u.known = #[⟨0, (t.stack j).frames.map L.idxOf⟩]) (hregistered : u.registered = [0])
    (hnextId : u.nextId = 1) (hframe : ∀ f ∈ L, u.frame (L.idxOf f) = t.frame f) :
    t.solo j L = u := by
  refine (ext_frames hknown hregistered hnextId (by rw [size_solo, hsize]) fun p => ?_).symm
  rcases Nat.lt_or_ge p L.length with hp | hp
  · have hmem : L[p] ∈ L := List.getElem_mem hp
    have hplace : L.idxOf L[p] = p := hL.idxOf_getElem p hp
    rw [← hplace, hframe _ hmem, frame_solo hmem]
  · rw [frame_of_size_le (by omega), frame_of_size_le (by rw [size_solo]; exact hp)]

/-- Tables that differ in nothing of the stack have the same to show of it. -/
theorem solo_congr (hstack : t'.stack j = t.stack j) (hframe : ∀ f ∈ L, t'.frame f = t.frame f) :
    t'.solo j L = t.solo j L := by
  have hframes : L.map t'.frame = L.map t.frame := List.map_congr_left hframe
  rw [solo, solo, hstack, hframes]

/-- A stack that no frame was made on looks alone like the first one of all. -/
theorem solo_nil (hnone : (t.stack j).frames = []) : t.solo j [] = empty.register.2 := by
  rw [solo, hnone]
  rfl

/-! ### What changes in the tables of one stack -/

theorem solo_change (hL : t.Lists j L) (hf : f ∈ L) {edit : Frame → Frame} :
    (t.change f edit).solo j L = (t.solo j L).change (L.idxOf f) edit := by
  have hlt : L.idxOf f < (t.solo j L).frames.size := by
    rw [size_solo]
    exact List.idxOf_lt_length_of_mem hf
  refine eq_solo hL.nodup (by simp) rfl rfl rfl fun g hg => ?_
  rw [frame_change hlt, frame_change (hL.made f hf), frame_solo hg]
  by_cases hfg : f = g
  · subst hfg
    simp
  · have hne : L.idxOf f ≠ L.idxOf g := fun heq => hfg ((List.idxOf_inj hf).1 heq)
    rw [if_neg hfg, if_neg hne]

theorem Lists.change (hL : t.Lists j L) {edit : Frame → Frame} : (t.change f edit).Lists j L :=
  ⟨hL.nodup, fun g hg => by rw [size_change]; exact hL.made g hg, hL.listed⟩

/-- A frame is opened on the stack. -/
theorem solo_opened (hL : t.Lists j L) (hj : j < t.known.size) {objects : List Handle} :
    (t.opened j objects).solo j (L ++ [t.frames.size]) = (t.solo j L).opened 0 objects := by
  have hnew : t.frames.size ∉ L := fun hmem => Nat.lt_irrefl _ (hL.made _ hmem)
  have hlast : (L ++ [t.frames.size]).idxOf t.frames.size = L.length := by
    rw [List.idxOf_append_of_notMem hnew]
    simp
  have hold : ∀ f ∈ L, (L ++ [t.frames.size]).idxOf f = L.idxOf f := fun f hf =>
    List.idxOf_append_of_mem hf
  refine eq_solo (nodup_append_singleton hL.nodup hnew) ?_ ?_ rfl rfl fun f hf => ?_
  · simp
  · have hframes : ((t.opened j objects).stack j).frames =
        (t.stack j).frames ++ [t.frames.size] := by
      rw [stack_opened, if_pos ⟨rfl, hj⟩]
    have hmap : (t.stack j).frames.map (L ++ [t.frames.size]).idxOf =
        (t.stack j).frames.map L.idxOf :=
      List.map_congr_left fun f hf => hold f (hL.listed f hf)
    rw [hframes, List.map_append, hmap, List.map_singleton, hlast]
    simp [opened, push, addFrame, change, solo]
  · rw [frame_opened, frame_opened, size_solo, depth_solo]
    rcases List.mem_append.1 hf with hf | hf
    · have hne : L.idxOf f ≠ L.length := Nat.ne_of_lt (List.idxOf_lt_length_of_mem hf)
      rw [hold f hf, if_neg hne, if_neg (Nat.ne_of_lt (hL.made f hf)), frame_solo hf]
    · obtain rfl := List.mem_singleton.1 hf
      rw [hlast, if_pos rfl, if_pos rfl]

/-- A call is about to end on the stack. -/
theorem solo_settled (hL : t.Lists j L) (hc : c ∈ L) (hf : f ∈ L) {result : Answer Word} :
    (t.settled c f result).solo j L =
      (t.solo j L).settled (L.idxOf c) (L.idxOf f) result := by
  rcases result with fault | word
  · rfl
  · cases hword : word.target? with
    | none => rw [settled_data hword, settled_data hword, solo_change hL hf]
    | some h =>
      rw [settled_object hword, settled_object hword, solo_change hL.change hf, solo_change hL hc]

theorem Lists.settled (hL : t.Lists j L) {result : Answer Word} :
    (t.settled c f result).Lists j L :=
  ⟨hL.nodup, fun g hg => by rw [size_settled]; exact hL.made g hg, fun g hg => by
    rw [stack_settled] at hg
    exact hL.listed g hg⟩

/-- A frame leaves the stack, with all above it. -/
theorem solo_pop (hL : t.Lists j L) (hf : f ∈ L) :
    (t.pop j f).solo j L = (t.solo j L).pop 0 (L.idxOf f) := by
  have hplace : ∀ g, decide (L.idxOf g ≠ L.idxOf f) = decide (g ≠ f) := by
    intro g
    have hiff : L.idxOf g = L.idxOf f ↔ g = f := ⟨fun heq => ((List.idxOf_inj hf).1 heq.symm).symm,
      congrArg L.idxOf⟩
    simp only [ne_eq, hiff]
  have hfun : (fun p => decide (p ≠ L.idxOf f)) ∘ L.idxOf = fun g => decide (g ≠ f) := funext hplace
  refine eq_solo hL.nodup (by simp) ?_ (by simp [solo]) (by simp [solo]) fun g hg => ?_
  · rw [known_pop, stack_solo, stack_pop, if_pos rfl]
    simp only [List.takeWhile_map, hfun]
    rfl
  · have hmem : L.idxOf g ∈ ((t.stack j).frames.map L.idxOf).dropWhile (· ≠ L.idxOf f) ↔
        g ∈ (t.stack j).frames.dropWhile (· ≠ f) := by
      rw [List.dropWhile_map, hfun, List.mem_map]
      constructor
      · rintro ⟨k, hk, heq⟩
        have hkL : k ∈ L := hL.listed k ((List.dropWhile_sublist _).subset hk)
        exact (List.idxOf_inj hkL).1 heq ▸ hk
      · intro hk
        exact ⟨g, hk, rfl⟩
    rw [frame_pop, frame_pop, stack_solo, frame_solo hg]
    simp only [hmem]

end CallStacks

/-- An environment as it is named in the tables of its stack alone. -/
def Env.alone (L : List FrameRef) (env : Env) : Env := ⟨0, L.idxOf env.frame⟩

namespace Machine

variable {A B : Type} {m : Machine A} {m' : Machine B} {t : Thread} {env callee : Env}
  {L L' : List FrameRef} {object target : Handle} {slot : Nat} {word : Word}

/-- The machine with the tables of one stack alone. -/
def solo (m : Machine A) (j : StackRef) (L : List FrameRef) : Machine A :=
  { m with calls := m.calls.solo j L }

@[simp] theorem calls_solo {j : StackRef} : (m.solo j L).calls = m.calls.solo j L := rfl

/-! ### Checks on one stack alone -/

section Checks

variable {j : StackRef}

theorem frame_solo (henv : env.frame ∈ L) : (m.solo j L).frame (env.alone L) = m.frame env :=
  CallStacks.frame_solo henv

theorem checkActive_solo (henv : env.frame ∈ L) :
    (m.solo j L).checkActive (env.alone L) = m.checkActive env := by
  unfold checkActive
  rw [frame_solo henv]

theorem checkHeld_solo (henv : env.frame ∈ L) :
    (m.solo j L).checkHeld (env.alone L) object = m.checkHeld env object := by
  unfold checkHeld
  rw [frame_solo henv]

theorem referenceAt_solo (henv : env.frame ∈ L) :
    (m.solo j L).referenceAt (env.alone L) object slot = m.referenceAt env object slot := by
  unfold referenceAt
  rw [checkActive_solo henv, checkHeld_solo henv]
  rfl

theorem dataAt_solo (henv : env.frame ∈ L) :
    (m.solo j L).dataAt (env.alone L) object slot = m.dataAt env object slot := by
  unfold dataAt
  rw [checkActive_solo henv, checkHeld_solo henv]
  rfl

theorem storableReference_solo (henv : env.frame ∈ L) :
    (m.solo j L).storableReference (env.alone L) object slot target =
      m.storableReference env object slot target := by
  unfold storableReference checkTarget
  rw [checkActive_solo henv, checkHeld_solo henv, checkHeld_solo henv]
  rfl

theorem storableData_solo (henv : env.frame ∈ L) :
    (m.solo j L).storableData (env.alone L) object slot word =
      m.storableData env object slot word := by
  unfold storableData
  rw [checkActive_solo henv, checkHeld_solo henv]
  rfl

theorem releasable_solo (henv : env.frame ∈ L) :
    (m.solo j L).releasable (env.alone L) object = m.releasable env object := by
  unfold releasable
  rw [checkActive_solo henv, checkHeld_solo henv]

theorem callable_solo (henv : env.frame ∈ L) {args : List Word} :
    (m.solo env.stack L).callable (env.alone L) args = m.callable env args := by
  have hdepth : (m.solo env.stack L).calls.depth (env.alone L).stack = m.calls.depth env.stack :=
    CallStacks.depth_solo
  unfold callable handedOver
  rw [checkActive_solo henv, frame_solo henv, hdepth]
  rfl

theorem checkResult_solo (henv : env.frame ∈ L) {outcome : Answer Word} :
    (m.solo j L).checkResult (env.alone L) outcome = m.checkResult env outcome := by
  unfold checkResult
  refine bind_congr fun word => ?_
  cases word.target? with
  | none => rfl
  | some h => simp only [checkHeld_solo henv]

end Checks

/-! ### Operations on one stack alone -/

/-- Whether an operation comes to the same when it is done on the tables of one stack alone. -/
structure Restricts {α β : Type} (j : StackRef) (L : List FrameRef) (give : β → α)
    (done : Answer α × Machine A) (alone : Answer β × Machine A) : Prop where
  answer : done.1 = alone.1.map give
  calls : done.2.calls.solo j L = alone.2.calls
  heap : done.2.heap = alone.2.heap
  config : done.2.config = alone.2.config

namespace Restricts

variable {α β γ : Type} {j : StackRef} {give : β → α}

/-- A check and an effect that come to the same. -/
theorem decided {check : Answer γ} {answer : γ → α} {effect : γ → Machine A} {answer₀ : γ → β}
    {effect₀ : γ → Machine A} (hanswer : ∀ c, answer c = give (answer₀ c))
    (hsame : ∀ fault, check = .error fault → m.calls.solo j L' = m.calls.solo j L)
    (hcalls : ∀ c, check = .ok c → (effect c).calls.solo j L' = (effect₀ c).calls)
    (hheap : ∀ c, (effect c).heap = (effect₀ c).heap)
    (hconfig : ∀ c, (effect c).config = (effect₀ c).config) :
    Restricts j L' give (m.decided check answer effect)
      ((m.solo j L).decided check answer₀ effect₀) := by
  cases check with
  | error fault => exact ⟨rfl, hsame fault rfl, rfl, rfl⟩
  | ok c => exact ⟨congrArg Except.ok (hanswer c), hcalls c rfl, hheap c, hconfig c⟩

variable (hL : m.calls.Lists env.stack L) (henv : env.frame ∈ L)

include hL henv

theorem getReference (t : Thread) (object : Handle) (slot : Nat) :
    Restricts env.stack L id (m.getReference t env object slot)
      ((m.solo env.stack L).getReference t (env.alone L) object slot) := by
  rw [getReference_eq, getReference_eq, referenceAt_solo henv]
  refine decided (fun _ => rfl) (fun _ _ => rfl) (fun h _ => ?_) (fun h => ?_) fun h => ?_
  · split
    · rfl
    · exact CallStacks.solo_change hL henv
  · split <;> rfl
  · split <;> rfl

omit hL in
theorem getData (t : Thread) (object : Handle) (slot : Nat) :
    Restricts env.stack L id (m.getData t env object slot)
      ((m.solo env.stack L).getData t (env.alone L) object slot) := by
  rw [getData_eq, getData_eq, dataAt_solo henv]
  exact decided (fun _ => rfl) (fun _ _ => rfl) (fun _ _ => rfl) (fun _ => rfl) fun _ => rfl

omit hL in
theorem setReference (t : Thread) (object : Handle) (slot : Nat) (target : Handle) :
    Restricts env.stack L id (m.setReference t env object slot target)
      ((m.solo env.stack L).setReference t (env.alone L) object slot target) := by
  rw [setReference_eq, setReference_eq, storableReference_solo henv]
  exact decided (fun _ => rfl) (fun _ _ => rfl) (fun _ _ => rfl) (fun _ => rfl) fun _ => rfl

omit hL in
theorem setData (t : Thread) (object : Handle) (slot : Nat) (word : Word) :
    Restricts env.stack L id (m.setData t env object slot word)
      ((m.solo env.stack L).setData t (env.alone L) object slot word) := by
  rw [setData_eq, setData_eq, storableData_solo henv]
  exact decided (fun _ => rfl) (fun _ _ => rfl) (fun _ _ => rfl) (fun _ => rfl) fun _ => rfl

theorem release (t : Thread) (object : Handle) :
    Restricts env.stack L id (m.release t env object)
      ((m.solo env.stack L).release t (env.alone L) object) := by
  rw [release_eq, release_eq, releasable_solo henv]
  exact decided (fun _ => rfl) (fun _ _ => rfl)
    (fun _ _ => CallStacks.solo_change hL henv) (fun _ => rfl) fun _ => rfl

/-- A call that begins is one more frame on the list. -/
theorem beginCall (hstack : env.stack < m.calls.known.size) (t : Thread) (name : String)
    (args : List Word) (hrefused : ∀ fault, m.callable env args = .error fault → L' = L)
    (hbegun : ∀ objects, m.callable env args = .ok objects → L' = L ++ [m.calls.frames.size]) :
    Restricts env.stack L' (fun _ => ⟨env.stack, m.calls.frames.size⟩)
      (m.beginCall t env name args)
      ((m.solo env.stack L).beginCall t (env.alone L) name args) := by
  obtain ⟨text, heq⟩ := beginCall_eq m t env name args
  obtain ⟨text', heq'⟩ := beginCall_eq (m.solo env.stack L) t (env.alone L) name args
  rw [heq, heq', callable_solo henv]
  refine decided (fun _ => rfl) (fun fault hcheck => ?_) (fun objects hcheck => ?_)
    (fun objects => ?_) fun objects => ?_
  · rw [hrefused fault hcheck]
  · rw [hbegun objects hcheck, calls_traced, calls_traced]
    exact CallStacks.solo_opened hL hstack
  · rw [heap_traced, heap_traced]
    rfl
  · rw [config_traced, config_traced]
    rfl

theorem endCall (hcallee : callee.frame ∈ L) (hstack : callee.stack = env.stack) (t : Thread)
    (outcome : Answer Word) :
    Restricts env.stack L id (m.endCall t env callee outcome)
      ((m.solo env.stack L).endCall t (env.alone L) (callee.alone L) outcome) := by
  obtain ⟨text, heq⟩ := endCall_eq m t env callee outcome
  obtain ⟨text', heq'⟩ := endCall_eq (m.solo env.stack L) t (env.alone L) (callee.alone L) outcome
  rw [heq, heq', checkResult_solo hcallee]
  refine ⟨?_, ?_, ?_, ?_⟩
  · dsimp only
    cases m.checkResult callee outcome <;> rfl
  · rw [calls_traced, calls_traced, hstack]
    dsimp only
    rw [CallStacks.solo_pop hL.settled hcallee, CallStacks.solo_settled hL henv hcallee]
    rfl
  · rw [heap_traced, heap_traced]
    rfl
  · rw [config_traced, config_traced]
    rfl

/-! Two operations, each on a stack of its own, that come to the same on the two stacks alone. -/

omit hL henv in
/-- What the one on the stack alone makes live is what the other makes live there. -/
theorem live_iff {done : Answer α × Machine A} {alone : Answer β × Machine A}
    (hr : Restricts j L give done alone) {h : Handle} :
    alone.2.Live h ↔ (done.2.solo j L).Live h := by
  have hcalls : (done.2.solo j L).calls = alone.2.calls := hr.calls
  have hheap : (done.2.solo j L).heap = alone.2.heap := hr.heap
  rw [Live, Live, hcalls, hheap]

omit hL henv in
theorem agrees {α' β' : Type} {j' : StackRef} {give' : β' → α'} {f : Handle → Handle}
    {q : β → β' → Prop} {done : Answer α × Machine A} {alone : Answer β × Machine A}
    {done' : Answer α' × Machine B} {alone' : Answer β' × Machine B}
    (hr : Restricts j L give done alone) (hr' : Restricts j' L' give' done' alone')
    (r : α → α' → Prop) (ha : Agrees f q alone alone')
    (hq : ∀ b b', q b b' → r (give b) (give' b')) :
    done.1.Alike r done'.1 ∧ (done.2.solo j L).Mirrors f (done'.2.solo j' L') := by
  constructor
  · have hanswers := ha.answers
    rw [hr.answer, hr'.answer]
    generalize alone.1 = answer at hanswers ⊢
    generalize alone'.1 = answer' at hanswers ⊢
    cases hanswers with
    | ok related => exact .ok (hq _ _ related)
    | error variant => exact .error variant
  · refine ha.mirrors.keep (fun k hk => hr.live_iff.2 hk) ?_ hr.heap hr'.heap hr.config hr'.config
    have hcalls : (done.2.solo j L).calls = alone.2.calls := hr.calls
    have hcalls' : (done'.2.solo j' L').calls = alone'.2.calls := hr'.calls
    rw [hcalls, hcalls', ha.mirrors.calls]

end Restricts

/-! ### Changes that do not show -/

/-- Whether the tables of a machine are what they were, and so are the cells in reach of them. -/
structure Undisturbed (m m₁ : Machine A) : Prop where
  calls : m₁.calls = m.calls
  words : ∀ h, m.Live h → m₁.heap.words h = m.heap.words h
  size : m₁.heap.size = m.heap.size
  config : m₁.config = m.config

namespace Undisturbed

variable {m₁ : Machine A} {m₁' : Machine B} {f : Handle → Handle}

theorem live_iff (hu : m.Undisturbed m₁) {h : Handle} : m₁.Live h ↔ m.Live h := by
  unfold Live
  rw [hu.calls]
  exact Heap.reaches_iff_of_words hu.words

theorem contains_eq (hu : m.Undisturbed m₁) (h : Handle) :
    m₁.heap.contains h = m.heap.contains h := by
  rw [Bool.eq_iff_iff, Heap.contains_iff, Heap.contains_iff, hu.size]

theorem mirrors_left (hu : m.Undisturbed m₁) (hmm : m.Mirrors f m') : m₁.Mirrors f m' where
  calls := by rw [hu.calls, hmm.calls]
  words h hh := by
    rw [hu.live_iff] at hh
    rw [hu.words h hh, hmm.words h hh]
  cells h hh := hmm.cells h (hu.live_iff.1 hh)
  apart := hmm.apart.mono fun _ => hu.live_iff.1
  maxCallDepth := by rw [hu.config, hmm.maxCallDepth]
  small := hmm.small

theorem mirrors_right (hu : m'.Undisturbed m₁') (hmm : m.Mirrors f m') : m.Mirrors f m₁' where
  calls := by rw [hu.calls, hmm.calls]
  words h hh := by rw [hu.words _ (hmm.live_image hh), hmm.words h hh]
  cells h hh := by rw [hu.contains_eq, hmm.cells h hh]
  apart := hmm.apart
  maxCallDepth := by rw [hu.config, hmm.maxCallDepth]
  small := by
    rw [hu.size]
    exact hmm.small

end Undisturbed

end Machine

/-! ### One stack of a session -/

namespace Ledger

variable {l : Ledger} {t : CallStacks} {env : Env} {j : StackRef}

/-- The environments that were given out on a stack, in the order in which they were. -/
def envsOn (l : Ledger) (j : StackRef) : List Env := l.envs.filter (·.stack = j)

def framesOn (l : Ledger) (j : StackRef) : List FrameRef := (l.envsOn j).map Env.frame

theorem mem_envsOn : env ∈ l.envsOn j ↔ env ∈ l.envs ∧ env.stack = j := by
  simp [envsOn]

theorem mem_framesOn (henv : env ∈ l.envsOn j) : env.frame ∈ l.framesOn j :=
  List.mem_map_of_mem henv

theorem lists_framesOn (h : EnvsAgree l.envs t) (j : StackRef) : t.Lists j (l.framesOn j) where
  nodup := by
    have hall : (l.envs.map Env.frame).Nodup := h.numbered ▸ List.nodup_range
    exact hall.sublist (List.filter_sublist.map _)
  made f hf := by
    obtain ⟨env, henv, rfl⟩ := List.mem_map.1 hf
    exact h.lt_size (mem_envsOn.1 henv).1
  listed f hf := by
    have henv : (⟨j, f⟩ : Env) ∈ l.envsOn j := mem_envsOn.2 ⟨(h.listed j f hf).1, rfl⟩
    exact mem_framesOn henv

/-- A frame is named by its place on the list. -/
theorem alone_eq (h : EnvsAgree l.envs t) {p : Nat} (hp : (l.envsOn j)[p]? = some env) :
    env.alone (l.framesOn j) = ⟨0, p⟩ := by
  obtain ⟨hlt, rfl⟩ := List.getElem?_eq_some_iff.1 hp
  have hlt' : p < (l.framesOn j).length := by
    rw [framesOn, List.length_map]
    exact hlt
  have hframe : ((l.envsOn j)[p]).frame = (l.framesOn j)[p] := by
    simp [framesOn]
  rw [Env.alone, hframe, (lists_framesOn h j).nodup.idxOf_getElem p hlt']

end Ledger

namespace Session

variable {A B : Type} {s : Session A} {t : Thread} {j : StackRef} {h : Handle}

/-- The machine of a session with the tables of one stack alone. -/
def solo (s : Session A) (j : StackRef) : Machine A := s.machine.solo j (s.ledger.framesOn j)

theorem roots_solo (henvsAgree : EnvsAgree s.ledger.envs s.calls) :
    (s.solo j).calls.roots = s.calls.stackRoots j :=
  CallStacks.roots_solo (Ledger.lists_framesOn henvsAgree j)

/-- What is live on a stack alone is what the stack reaches. -/
theorem live_solo (henvsAgree : EnvsAgree s.ledger.envs s.calls) :
    (s.solo j).Live h ↔ s.machine.heap.Reaches (s.calls.stackRoots j) h := by
  rw [Machine.Live, roots_solo henvsAgree]
  rfl

variable [Allocator A]

/-- An action gives out at most one environment, on the stack that it works on. -/
theorem envs_after (s : Session A) (t : Thread) (action : Action) :
    (s.after t action).ledger.envs = s.ledger.envs ∨
      (s.after t action).ledger.envs =
        s.ledger.envs ++ [⟨action.stack s.calls, s.calls.frames.size⟩] := by
  cases action with
  | beginCall caller name args =>
    obtain ⟨text, heq⟩ := Machine.beginCall_eq s.machine t caller name args
    have hrecord : (s.after t (.beginCall caller name args)).ledger = s.ledger.record
      (.beginCall caller name args) (s.machine.beginCall t caller name args).1 := rfl
    rw [hrecord, heq]
    cases s.machine.callable caller args with
    | error fault => exact .inl rfl
    | ok objects => exact .inr rfl
  | beginRun name args =>
    have hrecord : (s.after t (.beginRun name args)).ledger = s.ledger.record
      (.beginRun name args) (s.machine.beginRun t name args).1 := rfl
    rw [hrecord]
    cases hargs : args.findSome? Word.target? with
    | some h =>
      rw [Machine.beginRun_refused hargs]
      exact .inl rfl
    | none =>
      obtain ⟨text, heq⟩ := Machine.beginRun_eq s.machine t name hargs
      rw [heq]
      exact .inr rfl
  | _ => exact .inl rfl

/-- On other stacks no environment is given out. -/
theorem envsOn_after {action : Action} (hj : action.stack s.calls ≠ j) :
    (s.after t action).ledger.envsOn j = s.ledger.envsOn j := by
  unfold Ledger.envsOn
  rcases envs_after s t action with heq | heq
  · rw [heq]
  · rw [heq, List.filter_append]
    simp [hj]

namespace Steady

variable [LawfulCollector A] {width : Nat}

theorem envsAgree (hs : s.Steady width) : EnvsAgree s.ledger.envs s.calls := hs.tallies.toEnvsAgree

/-- One stack of a steady session makes a regular machine. -/
theorem regular_solo (hs : s.Steady width) : (s.solo j).Regular where
  held p h hh := by
    obtain ⟨f, hf, hheld⟩ := CallStacks.exists_of_frame_solo hh
    obtain ⟨env, henv, rfl⟩ := List.mem_map.1 hf
    obtain ⟨hknown, rfl⟩ := Ledger.mem_envsOn.1 henv
    rw [roots_solo hs.envsAgree]
    exact mem_stackRoots_of_held hs.envsAgree hknown hheld
  cell h hh := hs.contains_of_reaches (hs.reaches_of_stack ((live_solo hs.envsAgree).1 hh))
  small := hs.small

/-- The work of another stack does not show. -/
theorem undisturbed (hs : s.Steady width) (hapart : Apart s.machine.heap s.calls) {action : Action}
    (hpermits : s.ledger.permits action) (horderly : action.orderly = true)
    (hj : action.stack s.calls ≠ j) : (s.solo j).Undisturbed ((s.after t action).solo j) := by
  have hw := hs.heapStep (t := t) hapart hpermits horderly
  obtain ⟨gain, htables⟩ := hw.tablesStep
  have hframes : (s.after t action).ledger.framesOn j = s.ledger.framesOn j := by
    rw [Ledger.framesOn, envsOn_after hj, Ledger.framesOn]
  refine ⟨?_, fun h hh => ?_, ?_, config_after⟩
  · show (s.after t action).calls.solo j _ = s.calls.solo j _
    rw [hframes]
    refine CallStacks.solo_congr (htables.stack j (Ne.symm hj)) fun f hf => ?_
    obtain ⟨env, henv, rfl⟩ := List.mem_map.1 hf
    obtain ⟨hknown, rfl⟩ := Ledger.mem_envsOn.1 henv
    exact htables.frame env hknown (Ne.symm hj)
  · exact hw.words j (Ne.symm hj) h ((live_solo hs.envsAgree).1 hh)
  · show (s.after t action).machine.heap.size = s.machine.heap.size
    rw [(hs.arena hpermits horderly).2, Heap.size_after]

/-- An action that writes nothing, and gains only what its stack reached, brings nothing in reach of
its stack. -/
theorem live_of_after_solo (hs : s.Steady width) (t : Thread) (action : Action)
    (hpermits : s.ledger.permits action) (horderly : action.orderly = true)
    (hheap : (s.after t action).machine.heap = s.machine.heap)
    (hgain : ∀ r ∈ action.gain (s.reply t action),
      s.machine.heap.Reaches (s.calls.stackRoots (action.stack s.calls)) r) :
    ∀ k, ((s.after t action).solo (action.stack s.calls)).Live k →
      (s.solo (action.stack s.calls)).Live k := by
  intro k hk
  have htables := tablesStep (t := t) hs.envsAgree hs.tallies.nested hpermits
  rw [live_solo hs.envsAgree]
  rw [live_solo (hs.after hpermits horderly).envsAgree, hheap] at hk
  exact hk.of_closed (fun r hr => (htables.roots r hr).elim (hgain r) .root) fun _ _ => .link

end Steady

end Session

end RootedHeap
