import Mathlib.Data.List.Forall2
import RootedHeap.Proofs.Images
import RootedHeap.Proofs.Safety

/-!
Two machines that are alike but for the numbers of their cells. `Machine.Mirrors` says that a
renaming takes the tables of one machine to those of the other, keeps the cells in reach apart, and
takes the words of each to the words of its image. Checks of mirrored machines come to the same:
both pass, with results that correspond, or both fail with a fault of one variant.
-/

namespace RootedHeap

inductive Fault.Variant where
  | illegalReference | indexOutOfRange | sizeMismatch | outOfMemory | inactiveFrame
  | unstoppedRootScan | callStackOverflow | invalidState | runtimeError
  deriving DecidableEq

/-- The variant of a fault, without what it says. -/
def Fault.variant : Fault → Fault.Variant
  | .illegalReference _ => .illegalReference
  | .indexOutOfRange _ _ _ => .indexOutOfRange
  | .sizeMismatch _ _ => .sizeMismatch
  | .outOfMemory => .outOfMemory
  | .inactiveFrame _ => .inactiveFrame
  | .unstoppedRootScan => .unstoppedRootScan
  | .callStackOverflow => .callStackOverflow
  | .invalidState _ => .invalidState
  | .runtimeError _ => .runtimeError

namespace Answer

variable {α α' β β' : Type}

/-- Two answers that came out alike: good ones that correspond, or faults of one variant. -/
inductive Alike (r : α → α' → Prop) : Answer α → Answer α' → Prop
  | ok {a : α} {a' : α'} (related : r a a') : Alike r (.ok a) (.ok a')
  | error {fault fault' : Fault} (variant : fault.variant = fault'.variant) :
    Alike r (.error fault) (.error fault')

/-- Checks in two parts come out alike if the parts do. -/
theorem Alike.bind {r : α → α' → Prop} {q : β → β' → Prop} {x : Answer α} {x' : Answer α'}
    {g : α → Answer β} {g' : α' → Answer β'} (hx : Alike r x x')
    (hg : ∀ a a', x = .ok a → x' = .ok a' → r a a' → Alike q (g a) (g' a')) :
    Alike q (x >>= g) (x' >>= g') := by
  cases hx with
  | ok related => exact hg _ _ rfl rfl related
  | error variant => exact .error variant

theorem Alike.imp {r q : α → α' → Prop} {x : Answer α} {x' : Answer α'} (hx : Alike r x x')
    (himp : ∀ a a', r a a' → q a a') : Alike q x x' := by
  cases hx with
  | ok related => exact .ok (himp _ _ related)
  | error variant => exact .error variant

end Answer

namespace Machine

variable {A B : Type} {f : Handle → Handle} {m : Machine A} {m' : Machine B} {env : Env}

def Live (m : Machine A) (h : Handle) : Prop := m.heap.Reaches m.calls.roots h

/-- Without roots nothing is live. -/
theorem not_live_of_roots {m : Machine A} (hroots : m.calls.roots = []) (h : Handle) :
    ¬ m.Live h := by
  intro hlive
  rw [Live, hroots] at hlive
  induction hlive with
  | root hmem => cases hmem
  | link _ _ ih => exact ih

/-- A machine whose frames hold roots only, whose live handles are cells, and whose handles all fit
in slots, as they do in any memory. -/
structure Regular (m : Machine A) : Prop where
  held : ∀ g h, h ∈ (m.calls.frame g).handles → h ∈ m.calls.roots
  cell : ∀ h, m.Live h → m.heap.contains h = true
  small : m.heap.size ≤ Handle.greatest + 1

/-- The other machine is this one with its live cells renamed. -/
structure Mirrors (f : Handle → Handle) (m : Machine A) (m' : Machine B) : Prop where
  calls : m'.calls = m.calls.image f
  words : ∀ h, m.Live h → m'.heap.words (f h) = (m.heap.words h).map (Word.carry f)
  cells : ∀ h, m.Live h → m'.heap.contains (f h) = true
  apart : Set.InjOn f {h | m.Live h}
  maxCallDepth : m'.config.maxCallDepth = m.config.maxCallDepth
  small : m'.heap.size ≤ Handle.greatest + 1

/-- Handles that correspond: null to null, a live one to its image. -/
def Matches (f : Handle → Handle) (m : Machine A) (h h' : Handle) : Prop :=
  h = Handle.null ∧ h' = Handle.null ∨ m.Live h ∧ h' = f h

/-- Words that correspond: the same null or data, or a live handle and its image. -/
def Carries (f : Handle → Handle) (m : Machine A) (word word' : Word) : Prop :=
  word' = word.carry f ∧ ∀ k, word.target? = some k → m.Live k

theorem Regular.live_of_held (hm : m.Regular) {g : FrameRef} {h : Handle}
    (hh : h ∈ (m.calls.frame g).handles) : m.Live h :=
  .root (hm.held g h hh)

theorem Regular.le_greatest (hm : m.Regular) {h : Handle} (hh : m.Live h) :
    h ≠ Handle.null ∧ h ≤ Handle.greatest := by
  obtain ⟨h0, hlt⟩ := Heap.contains_iff.1 (hm.cell h hh)
  exact ⟨h0, Nat.le_of_lt_succ (Nat.lt_of_lt_of_le hlt hm.small)⟩

namespace Mirrors

variable {h h' o o' : Handle} {slot : Nat} {word word' : Word}

theorem frame_eq (hmm : m.Mirrors f m') (env : Env) :
    m'.frame env = (m.frame env).image f := by
  rw [frame, frame, hmm.calls, CallStacks.frame_image]

theorem image_le_greatest (hmm : m.Mirrors f m') (hh : m.Live h) :
    f h ≠ Handle.null ∧ f h ≤ Handle.greatest := by
  obtain ⟨h0, hlt⟩ := Heap.contains_iff.1 (hmm.cells h hh)
  exact ⟨h0, Nat.le_of_lt_succ (Nat.lt_of_lt_of_le hlt hmm.small)⟩

/-- Handles on one side are the same if those that correspond are. -/
theorem eq_iff_of_matches (hmm : m.Mirrors f m') (hm : m.Regular) (hh : m.Matches f h h')
    (ho : m.Matches f o o') : h' = o' ↔ h = o := by
  rcases hh with ⟨rfl, rfl⟩ | ⟨hh, rfl⟩ <;> rcases ho with ⟨rfl, rfl⟩ | ⟨ho, rfl⟩
  · simp
  · exact iff_of_false (Ne.symm (hmm.image_le_greatest ho).1) (Ne.symm (hm.le_greatest ho).1)
  · exact iff_of_false (hmm.image_le_greatest hh).1 (hm.le_greatest hh).1
  · exact hmm.apart.eq_iff hh ho

/-! ### Words and handles -/

/-- Corresponding words name corresponding handles. -/
theorem target?_eq (hmm : m.Mirrors f m') (hword : m.Carries f word word') :
    word'.target? = word.target?.map f := by
  obtain ⟨rfl, hlive⟩ := hword
  cases hk : word.target? with
  | none => rw [Word.carry_of_none hk, hk, Option.map_none]
  | some k =>
    obtain ⟨h0, hle⟩ := hmm.image_le_greatest (hlive k hk)
    rw [Word.carry_of_some hk, Handle.target?_toWord hle, Option.map_some]
    exact if_neg h0

/-- A word that names no handle corresponds to itself. -/
theorem eq_of_target?_none (hword : m.Carries f word word') (hnone : word.target? = none) :
    word' = word :=
  hword.1.trans (Word.carry_of_none hnone)

/-- Corresponding words are data alike. -/
theorem neg_iff (hmm : m.Mirrors f m') (hword : m.Carries f word word') : word' < 0 ↔ word < 0 := by
  cases hk : word.target? with
  | none => rw [eq_of_target?_none hword hk]
  | some k =>
    obtain ⟨-, hle⟩ := hmm.image_le_greatest (hword.2 k hk)
    have hnot : ¬ word < 0 := fun hneg => by
      rw [Word.target?_of_neg hneg] at hk
      cases hk
    rw [hword.1, Word.carry_of_some hk]
    exact ⟨fun hneg => absurd hneg (Handle.not_toWord_neg hle), fun hneg => absurd hneg hnot⟩

/-- The words of corresponding handles correspond. -/
theorem carries_toWord (hm : m.Regular) (hh : m.Matches f h h') :
    m.Carries f h.toWord h'.toWord := by
  rcases hh with ⟨rfl, rfl⟩ | ⟨hlive, rfl⟩
  · exact ⟨rfl, fun k hk => nomatch hk⟩
  · obtain ⟨h0, hle⟩ := hm.le_greatest hlive
    have htarget : Word.target? h.toWord = some h :=
      (Handle.target?_toWord hle).trans (if_neg h0)
    refine ⟨(Word.carry_of_some htarget).symm, fun k hk => ?_⟩
    obtain rfl := Option.some.inj (htarget.symm.trans hk)
    exact hlive

/-- A frame holds an object if the frame of the other machine holds what corresponds to it. -/
theorem mem_handles_iff (hmm : m.Mirrors f m') (hm : m.Regular) (ho : m.Matches f o o') :
    o' ∈ (m'.frame env).handles ↔ o ∈ (m.frame env).handles := by
  rw [hmm.frame_eq, Frame.handles_image]
  rcases ho with ⟨rfl, rfl⟩ | ⟨hlive, rfl⟩
  · constructor
    · intro hmem
      obtain ⟨k, hk, hzero⟩ := List.mem_map.1 hmem
      exact absurd hzero (hmm.image_le_greatest (hm.live_of_held hk)).1
    · exact fun hmem => absurd rfl (hm.le_greatest (hm.live_of_held hmem)).1
  · exact mem_map_iff_of_injOn hmm.apart (fun k hk => hm.live_of_held hk) hlive

/-- What corresponds to an object that a frame holds is its image. -/
theorem eq_image_of_mem (hm : m.Regular) (ho : m.Matches f o o')
    (hheld : o ∈ (m.frame env).handles) : o' = f o := by
  rcases ho with ⟨rfl, -⟩ | ⟨-, heq⟩
  · exact absurd rfl (hm.le_greatest (hm.live_of_held hheld)).1
  · exact heq

/-! ### Checks -/

theorem checkActive (hmm : m.Mirrors f m') (env : Env) :
    (m.checkActive env).Alike Eq (m'.checkActive env) := by
  have heq : m'.checkActive env = m.checkActive env := by
    unfold Machine.checkActive
    rw [hmm.frame_eq]
    rfl
  rw [heq]
  cases m.checkActive env with
  | error fault => exact .error rfl
  | ok _ => exact .ok rfl

theorem checkHeld (hmm : m.Mirrors f m') (hm : m.Regular) (ho : m.Matches f o o') :
    (m.checkHeld env o).Alike Eq (m'.checkHeld env o') := by
  rw [checkHeld_eq, checkHeld_eq]
  have hiff : o' ∈ (m'.frame env).handles ↔ o ∈ (m.frame env).handles := hmm.mem_handles_iff hm ho
  by_cases hheld : o ∈ (m.frame env).handles
  · rw [if_pos hheld, if_pos (hiff.2 hheld)]
    exact .ok rfl
  · rw [if_neg hheld, if_neg fun hin => hheld (hiff.1 hin)]
    exact .error rfl

/-- Checks that first ask for an active frame that holds an object go on with a live one. -/
theorem held {β β' : Type} {q : β → β' → Prop} {g : Answer β} {g' : Answer β'}
    (hmm : m.Mirrors f m') (hm : m.Regular) (ho : m.Matches f o o')
    (hg : m.Live o → o' = f o → g.Alike q g') :
    Answer.Alike q
      (do m.checkActive env; m.checkHeld env o; g)
      (do m'.checkActive env; m'.checkHeld env o'; g') := by
  refine (hmm.checkActive env).bind fun _ _ _ _ _ => ?_
  refine (hmm.checkHeld hm ho).bind fun _ _ hheld _ _ => ?_
  have hheld := checkHeld_eq_ok.1 hheld
  exact hg (hm.live_of_held hheld) (eq_image_of_mem hm ho hheld)

theorem read (hmm : m.Mirrors f m') (hm : m.Regular) (hlive : m.Live o) :
    (m.heap.read o slot).Alike (m.Carries f) (m'.heap.read (f o) slot) := by
  rw [Heap.read_eq (hm.cell o hlive), Heap.read_eq (hmm.cells o hlive), hmm.words o hlive,
    List.getElem?_map]
  cases hword : (m.heap.words o)[slot]? with
  | none => exact .error rfl
  | some word =>
    refine .ok ⟨rfl, fun k hk => .link hlive ?_⟩
    rw [Heap.references_eq]
    exact List.mem_filterMap.2 ⟨word, List.mem_of_getElem? hword, hk⟩

theorem referenceAt (hmm : m.Mirrors f m') (hm : m.Regular) (ho : m.Matches f o o') :
    (m.referenceAt env o slot).Alike (m.Matches f) (m'.referenceAt env o' slot) := by
  refine hmm.held hm ho fun hlive heq => ?_
  subst heq
  refine (hmm.read hm hlive).bind fun word word' _ _ hword => ?_
  have htarget := hmm.target?_eq hword
  cases hk : word.target? with
  | none =>
    rw [hk] at htarget
    rw [htarget, eq_of_target?_none hword hk]
    dsimp only [Option.map_none]
    split
    · exact .error rfl
    · exact .ok (.inl ⟨rfl, rfl⟩)
  | some k =>
    have hlive := hword.2 k hk
    obtain ⟨cell, hcell, -⟩ := Heap.cell_of_contains (hm.cell k hlive)
    obtain ⟨cell', hcell', -⟩ := Heap.cell_of_contains (hmm.cells k hlive)
    rw [hk] at htarget
    rw [htarget]
    dsimp only [Option.map_some]
    rw [hcell, hcell']
    exact .ok (.inr ⟨hlive, rfl⟩)

theorem dataAt (hmm : m.Mirrors f m') (hm : m.Regular) (ho : m.Matches f o o') :
    (m.dataAt env o slot).Alike (fun word word' => word' = word ∧ word < 0)
      (m'.dataAt env o' slot) := by
  refine hmm.held hm ho fun hlive heq => ?_
  subst heq
  refine (hmm.read hm hlive).bind fun word word' _ _ hword => ?_
  by_cases hneg : word < 0
  · rw [if_pos hneg, if_pos ((hmm.neg_iff hword).2 hneg)]
    exact .ok ⟨eq_of_target?_none hword (Word.target?_of_neg hneg), hneg⟩
  · rw [if_neg hneg, if_neg fun hneg' => hneg ((hmm.neg_iff hword).1 hneg')]
    exact .error rfl

theorem length_words (hmm : m.Mirrors f m') (hlive : m.Live o) :
    (m'.heap.words (f o)).length = (m.heap.words o).length := by
  rw [hmm.words o hlive, List.length_map]

theorem storableReference (hmm : m.Mirrors f m') (hm : m.Regular) (ho : m.Matches f o o')
    (hh : m.Matches f h h') :
    (m.storableReference env o slot h).Alike (m.Carries f)
      (m'.storableReference env o' slot h') := by
  have htarget : (m.checkTarget env h).Alike Eq (m'.checkTarget env h') := by
    unfold checkTarget
    rcases hh with ⟨rfl, rfl⟩ | ⟨hlive, rfl⟩
    · exact .ok rfl
    · rw [if_neg (hm.le_greatest hlive).1, if_neg (hmm.image_le_greatest hlive).1]
      exact hmm.checkHeld hm (.inr ⟨hlive, rfl⟩)
  refine hmm.held hm ho fun hlive heq => ?_
  subst heq
  refine htarget.bind fun _ _ _ _ _ => ?_
  have hstore : ∀ k, k ≤ Handle.greatest → Handle.store? k = some k.toWord :=
    fun k hk => Handle.store?_eq_some_iff.2 ⟨hk, rfl⟩
  have hle : h ≤ Handle.greatest ∧ h' ≤ Handle.greatest := by
    rcases hh with ⟨rfl, rfl⟩ | ⟨hlive, rfl⟩
    · exact ⟨Nat.zero_le _, Nat.zero_le _⟩
    · exact ⟨(hm.le_greatest hlive).2, (hmm.image_le_greatest hlive).2⟩
  rw [Heap.referenceWord_eq (hm.cell o hlive), Heap.referenceWord_eq (hmm.cells o hlive),
    hstore h hle.1, hstore h' hle.2, hmm.length_words hlive]
  dsimp only
  split
  · exact .ok (carries_toWord hm hh)
  · exact .error rfl

theorem storableData (hmm : m.Mirrors f m') (hm : m.Regular) (ho : m.Matches f o o') :
    (m.storableData env o slot word).Alike (m.Carries f) (m'.storableData env o' slot word) := by
  refine hmm.held hm ho fun hlive heq => ?_
  subst heq
  rw [Heap.checkSlot_eq (hm.cell o hlive), Heap.checkSlot_eq (hmm.cells o hlive),
    hmm.length_words hlive]
  split
  · rename_i hneg
    split
    · refine .ok ⟨(Word.carry_of_none (Word.target?_of_neg hneg)).symm, fun k hk => ?_⟩
      rw [Word.target?_of_neg hneg] at hk
      cases hk
    · exact .error rfl
  · exact .error rfl

theorem releasable (hmm : m.Mirrors f m') (hm : m.Regular) (ho : m.Matches f o o') :
    (m.releasable env o).Alike Eq (m'.releasable env o') :=
  (hmm.checkActive env).bind fun _ _ _ _ _ => hmm.checkHeld hm ho

/-- The objects among corresponding words correspond. -/
theorem filterMap_target?_eq (hmm : m.Mirrors f m') {args args' : List Word}
    (hargs : List.Forall₂ (m.Carries f) args args') :
    args'.filterMap Word.target? = (args.filterMap Word.target?).map f := by
  induction hargs with
  | nil => rfl
  | @cons word word' args args' hword _ ih =>
    rw [List.filterMap_cons, List.filterMap_cons, hmm.target?_eq hword, ih]
    cases word.target? with
    | none => rfl
    | some k => rfl

theorem live_of_mem_filterMap {args args' : List Word}
    (hargs : List.Forall₂ (m.Carries f) args args') :
    ∀ h ∈ args.filterMap Word.target?, m.Live h := by
  induction hargs with
  | nil => exact fun h hh => nomatch hh
  | cons hword _ ih =>
    intro h hh
    obtain ⟨word, hmem, htarget⟩ := List.mem_filterMap.1 hh
    rcases List.mem_cons.1 hmem with rfl | hmem
    · exact hword.2 h htarget
    · exact ih h (List.mem_filterMap.2 ⟨word, hmem, htarget⟩)

theorem handedOver (hmm : m.Mirrors f m') (hm : m.Regular) {args args' : List Word}
    (hargs : List.Forall₂ (m.Carries f) args args') :
    (m.handedOver env args).Alike
      (fun objects objects' => objects' = objects.map f ∧ ∀ h ∈ objects, m.Live h)
      (m'.handedOver env args') := by
  have hlive := live_of_mem_filterMap hargs
  unfold Machine.handedOver
  dsimp only
  rw [hmm.filterMap_target?_eq hargs]
  generalize args.filterMap Word.target? = objects at hlive
  have hiff : ∀ h ∈ objects, (m'.frame env).holds (f h) = (m.frame env).holds h := by
    intro h hh
    rw [Bool.eq_iff_iff, Frame.holds_iff, Frame.holds_iff]
    exact hmm.mem_handles_iff hm (.inr ⟨hlive h hh, rfl⟩)
  cases hfind : objects.find? fun h => !(m.frame env).holds h with
  | none =>
    have hfind' : ((objects.map f).find? fun h => !(m'.frame env).holds h) = none := by
      refine List.find?_eq_none.2 fun h' hh' => ?_
      obtain ⟨h, hh, rfl⟩ := List.mem_map.1 hh'
      rw [hiff h hh]
      exact List.find?_eq_none.1 hfind h hh
    rw [hfind']
    exact .ok ⟨rfl, hlive⟩
  | some missing =>
    have hmem := List.mem_of_find?_eq_some hfind
    have hmissing := List.find?_some hfind
    have hfind' : ((objects.map f).find? fun h => !(m'.frame env).holds h).isSome := by
      refine List.find?_isSome.2 ⟨f missing, List.mem_map_of_mem hmem, ?_⟩
      rw [hiff missing hmem]
      exact hmissing
    obtain ⟨missing', hfind'⟩ := Option.isSome_iff_exists.1 hfind'
    rw [hfind']
    exact .error rfl

theorem callable (hmm : m.Mirrors f m') (hm : m.Regular) {args args' : List Word}
    (hargs : List.Forall₂ (m.Carries f) args args') :
    (m.callable env args).Alike
      (fun objects objects' => objects' = objects.map f ∧ ∀ h ∈ objects, m.Live h)
      (m'.callable env args') := by
  refine (hmm.checkActive env).bind fun _ _ _ _ _ => ?_
  have hdepth : m'.calls.depth env.stack = m.calls.depth env.stack := by
    rw [hmm.calls]
    rfl
  rw [hmm.maxCallDepth, hdepth]
  split
  · exact .error rfl
  · exact hmm.handedOver hm hargs

theorem checkResult (hmm : m.Mirrors f m') (hm : m.Regular) {outcome outcome' : Answer Word}
    (houtcome : outcome.Alike (m.Carries f) outcome') :
    (m.checkResult env outcome).Alike (m.Carries f) (m'.checkResult env outcome') := by
  refine houtcome.bind fun word word' _ _ hword => ?_
  have htarget := hmm.target?_eq hword
  cases hk : word.target? with
  | none =>
    rw [hk] at htarget
    rw [htarget]
    exact .ok hword
  | some k =>
    rw [hk] at htarget
    rw [htarget]
    exact (hmm.checkHeld hm (.inr ⟨hword.2 k hk, rfl⟩)).bind fun _ _ _ _ _ => .ok hword

/-- Corresponding arguments are refused to a run alike. -/
theorem findSome?_target?_eq (hmm : m.Mirrors f m') {args args' : List Word}
    (hargs : List.Forall₂ (m.Carries f) args args') :
    args'.findSome? Word.target? = (args.findSome? Word.target?).map f := by
  induction hargs with
  | nil => rfl
  | @cons word word' args args' hword _ ih =>
    rw [List.findSome?_cons, List.findSome?_cons, hmm.target?_eq hword, ih]
    cases word.target? with
    | none => rfl
    | some k => rfl

/-! ### Reach -/

/-- The links of a live cell correspond to those of its image. -/
theorem references_eq (hmm : m.Mirrors f m') (hlive : m.Live o) :
    m'.heap.references (f o) = (m.heap.references o).map f := by
  rw [Heap.references_eq, Heap.references_eq, hmm.words o hlive]
  refine hmm.filterMap_target?_eq ?_
  rw [List.forall₂_map_right_iff, List.forall₂_same]
  intro word hword
  refine ⟨rfl, fun k hk => .link hlive ?_⟩
  rw [Heap.references_eq]
  exact List.mem_filterMap.2 ⟨word, hword, hk⟩

theorem live_image (hmm : m.Mirrors f m') (hh : m.Live h) : m'.Live (f h) := by
  unfold Live at hh
  induction hh with
  | root hmem =>
    refine .root ?_
    rw [hmm.calls, CallStacks.roots_image]
    exact List.mem_map_of_mem hmem
  | link hlive hmem ih =>
    refine .link ih ?_
    rw [hmm.references_eq hlive]
    exact List.mem_map_of_mem hmem

theorem exists_of_live (hmm : m.Mirrors f m') (hh : m'.Live h') : ∃ h, m.Live h ∧ f h = h' := by
  unfold Live at hh
  induction hh with
  | root hmem =>
    rw [hmm.calls, CallStacks.roots_image] at hmem
    obtain ⟨h, hh, heq⟩ := List.mem_map.1 hmem
    exact ⟨h, .root hh, heq⟩
  | link _ hmem ih =>
    obtain ⟨o, hlive, rfl⟩ := ih
    rw [hmm.references_eq hlive] at hmem
    obtain ⟨h, hh, heq⟩ := List.mem_map.1 hmem
    exact ⟨h, .link hlive hh, heq⟩

/-- The renaming takes the live cells of one machine to those of the other, one to one. -/
theorem bijOn (hmm : m.Mirrors f m') : Set.BijOn f {h | m.Live h} {h | m'.Live h} :=
  ⟨fun _ hh => hmm.live_image hh, hmm.apart, fun _ hh => hmm.exists_of_live hh⟩

/-! ### Changes -/

variable {m₁ : Machine A} {m₁' : Machine B}

/-- A change of tables that makes nothing live that was not. -/
theorem keep (hmm : m.Mirrors f m') (hlive : ∀ k, m₁.Live k → m.Live k)
    (hcalls : m₁'.calls = m₁.calls.image f) (hheap : m₁.heap = m.heap) (hheap' : m₁'.heap = m'.heap)
    (hconfig : m₁.config = m.config) (hconfig' : m₁'.config = m'.config) : m₁.Mirrors f m₁' where
  calls := hcalls
  words k hk := by
    rw [hheap, hheap']
    exact hmm.words k (hlive k hk)
  cells k hk := by
    rw [hheap']
    exact hmm.cells k (hlive k hk)
  apart := hmm.apart.mono hlive
  maxCallDepth := by rw [hconfig, hconfig', hmm.maxCallDepth]
  small := by
    rw [hheap']
    exact hmm.small

/-- A frame comes to hold a live object, and its image comes to hold the object's. -/
theorem calls_insert (hmm : m.Mirrors f m') (hm : m.Regular) (hh : m.Live h) {g : FrameRef} :
    m'.calls.change g (·.insert (f h)) = (m.calls.change g (·.insert h)).image f := by
  have hinsert : ((m.calls.frame g).insert h).image f = ((m.calls.frame g).image f).insert (f h) :=
    Frame.image_insert hmm.apart (fun _ => hm.live_of_held) hh
  rw [hmm.calls]
  exact (CallStacks.image_change hinsert).symm

/-- A frame lets go of a live object, and its image lets go of the object's. -/
theorem calls_remove (hmm : m.Mirrors f m') (hm : m.Regular) (hh : m.Live h) {g : FrameRef} :
    m'.calls.change g (·.remove (f h)) = (m.calls.change g (·.remove h)).image f := by
  have hremove : ((m.calls.frame g).remove h).image f = ((m.calls.frame g).image f).remove (f h) :=
    Frame.image_remove hmm.apart (fun _ => hm.live_of_held) hh
  rw [hmm.calls]
  exact (CallStacks.image_change hremove).symm

/-- Corresponding words are put into corresponding slots. -/
theorem putWord (hmm : m.Mirrors f m') (ho : m.Live o) (hword : m.Carries f word word') :
    (m.putWord o slot word).Mirrors f (m'.putWord (f o) slot word') := by
  have hlive : ∀ k, (m.putWord o slot word).Live k → m.Live k := fun k hk =>
    Heap.Reaches.of_putWord (fun r hr => .root hr) hword.2 hk
  refine ⟨hmm.calls, fun k hk => ?_, fun k hk => ?_, hmm.apart.mono hlive, hmm.maxCallDepth, ?_⟩
  · have hk := hlive k hk
    show (m'.heap.putWord (f o) slot word').words (f k) =
      ((m.heap.putWord o slot word).words k).map (Word.carry f)
    rw [Heap.words_putWord, Heap.words_putWord, hmm.words k hk]
    by_cases hok : o = k
    · rw [if_pos hok, if_pos (congrArg f hok), List.map_set, hword.1]
    · rw [if_neg hok, if_neg fun heq => hok (hmm.apart ho hk heq)]
  · show (m'.heap.putWord (f o) slot word').contains (f k) = true
    rw [Heap.contains_putWord]
    exact hmm.cells k (hlive k hk)
  · show (m'.heap.putWord (f o) slot word').size ≤ Handle.greatest + 1
    rw [Heap.size_putWord]
    exact hmm.small

/-- The renaming with a new object of one machine sent to a new one of the other. -/
theorem update_eq (hnew : ¬ m.Live h) {k : Handle} (hk : m.Live k) :
    Function.update f h h' k = f k :=
  Function.update_of_ne (fun heq : k = h => hnew (heq ▸ hk)) _ _

/-- Two machines that each hand a frame a cell that was out of reach. -/
theorem made (hmm : m.Mirrors f m') (hm : m.Regular) (hactive : env.frame < m.calls.frames.size)
    (hnew : ¬ m.Live h) (hnew' : ¬ m'.Live h') (hcell' : m'.heap.contains h' = true)
    (hlength : (m'.heap.words h').length = (m.heap.words h).length)
    (hcalls : m₁.calls = m.calls.change env.frame (·.insert h))
    (hcalls' : m₁'.calls = m'.calls.change env.frame (·.insert h'))
    (hheap : m₁.heap = m.heap.clear h) (hheap' : m₁'.heap = m'.heap.clear h')
    (hconfig : m₁.config = m.config) (hconfig' : m₁'.config = m'.config) :
    m₁.Mirrors (Function.update f h h') m₁' := by
  have hlive : ∀ k, m₁.Live k → k = h ∨ m.Live k := by
    intro k hk
    unfold Live at hk
    rw [hheap, hcalls] at hk
    exact Heap.Reaches.of_clear (fun r hr =>
      (CallStacks.mem_roots_hold hactive hr).imp_right .root) hk
  have hold : ∀ k, m.Live k → Function.update f h h' k = f k := fun k => update_eq hnew
  have happart : Set.InjOn (Function.update f h h') {k | k = h ∨ m.Live k} := by
    rintro k (rfl | hk) l (rfl | hl) heq
    · rfl
    · rw [Function.update_self, hold l hl] at heq
      exact absurd (heq ▸ hmm.live_image hl) hnew'
    · rw [Function.update_self, hold k hk] at heq
      exact absurd (heq ▸ hmm.live_image hk) hnew'
    · rw [hold k hk, hold l hl] at heq
      exact hmm.apart hk hl heq
  refine ⟨?_, fun k hk => ?_, fun k hk => ?_, happart.mono hlive, ?_, ?_⟩
  · have himage : m.calls.image (Function.update f h h') = m.calls.image f :=
      CallStacks.image_congr fun g k hk => hold k (hm.live_of_held hk)
    have hinsert : ((m.calls.frame env.frame).insert h).image (Function.update f h h') =
        ((m.calls.frame env.frame).image (Function.update f h h')).insert h' := by
      rw [Frame.image_insert happart (fun k hk => .inr (hm.live_of_held hk)) (.inl rfl),
        Function.update_self]
    have hchange : (m.calls.change env.frame (·.insert h)).image (Function.update f h h') =
        (m.calls.image (Function.update f h h')).change env.frame (·.insert h') :=
      CallStacks.image_change hinsert
    rw [hcalls, hcalls', hchange, himage, hmm.calls]
  · rw [hheap, hheap', Heap.words_clear, Heap.words_clear]
    rcases hlive k hk with rfl | hk
    · rw [Function.update_self, if_pos rfl, if_pos rfl, hlength, List.map_replicate]
      rfl
    · have hne : h ≠ k := fun heq => hnew (heq ▸ hk)
      have hne' : h' ≠ f k := fun heq => hnew' (heq ▸ hmm.live_image hk)
      rw [hold k hk, if_neg hne, if_neg hne', hmm.words k hk]
      refine List.map_congr_left fun word hword => ?_
      cases htarget : word.target? with
      | none => rw [Word.carry_of_none htarget, Word.carry_of_none htarget]
      | some l =>
        have hl : m.Live l := .link hk (by
          rw [Heap.references_eq]
          exact List.mem_filterMap.2 ⟨word, hword, htarget⟩)
        rw [Word.carry_of_some htarget, Word.carry_of_some htarget, hold l hl]
  · rw [hheap', Heap.contains_clear]
    rcases hlive k hk with rfl | hk
    · rw [Function.update_self]
      exact hcell'
    · rw [hold k hk]
      exact hmm.cells k hk
  · rw [hconfig, hconfig', hmm.maxCallDepth]
  · rw [hheap', Heap.size_clear]
    exact hmm.small

end Mirrors

end Machine

end RootedHeap
