import RootedHeap.Proofs.GrantedOperations
import RootedHeap.Workload.RandomGraph

/-!
Tags that stay where they were put. A frame that is alone on its stack gives each of its objects a
tag, a word of data in the first slot, and keeps a list of the tags given. `Heap.TagsMatch` says
that every cell in its reach, held or only linked to, carries the tag that the list has for it, in
front of slots without data; a new object is the one exception, for as long as it has no tag.

One lemma for each operation of a frame says that it is answered and keeps the tags right. Cells
that come to be out of reach may lose their tags, for the list then speaks of them in vain: nothing
is known of a cell but while it is in reach.
-/

namespace RootedHeap

open Workload (Tags tagSlot)

/-! ### Cells that match their tags -/

namespace Heap

/-- Whether a cell carries the tag that a list has for it, in front of slots without data. -/
def Tagged (heap : Heap) (tags : Tags) (h : Handle) : Prop :=
  ∃ tag links, heap.words h = tag :: links ∧ tag < 0 ∧ tags.lookup h = some tag ∧
    ∀ word ∈ links, ¬ word < 0

/-- Whether all cells in reach of some objects carry their tags, but for a new one that is held and
blank. -/
structure TagsMatch (heap : Heap) (tags : Tags) (new : Option Handle) (held : List Handle) :
    Prop where
  tagged : ∀ h, heap.Reaches held h → new ≠ some h → heap.Tagged tags h
  blank : ∀ h, new = some h → h ∈ held ∧ ∀ word ∈ heap.words h, word = 0

variable {heap heap' : Heap} {tags : Tags} {new : Option Handle} {held held' : List Handle}
  {h k object target : Handle} {slot : Nat} {word tag : Word}

theorem Tagged.of_words (hh : heap.Tagged tags h) (hwords : heap'.words h = heap.words h) :
    heap'.Tagged tags h := by
  obtain ⟨tag, links, heq, hrest⟩ := hh
  exact ⟨tag, links, hwords.trans heq, hrest⟩

/-- A cell is no longer tagged amiss by a tag that another cell is given. -/
theorem Tagged.set (hh : heap.Tagged tags h) (hne : h ≠ k) : heap.Tagged (tags.set k tag) h := by
  obtain ⟨old, links, heq, hneg, hlookup, hlinks⟩ := hh
  refine ⟨old, links, heq, hneg, ?_, hlinks⟩
  rw [Assignment.lookup_set, if_neg hne]
  exact hlookup

namespace TagsMatch

theorem nil : heap.TagsMatch [] none [] :=
  ⟨fun _ hh => absurd hh not_reaches_empty, fun _ => (nomatch ·)⟩

/-- Objects in reach of those that match their tags do too. -/
theorem mono (h : heap.TagsMatch tags none held) (hheld : ∀ r ∈ held', heap.Reaches held r) :
    heap.TagsMatch tags none held' where
  tagged k hk := h.tagged k (hk.of_closed hheld fun _ _ => .link)
  blank _ := (nomatch ·)

/-- Cells match their tags as before when nothing in reach is written. -/
theorem of_words (h : heap.TagsMatch tags new held)
    (hreach : ∀ k, heap'.Reaches held k ↔ heap.Reaches held k)
    (hwords : ∀ k, heap.Reaches held k → heap'.words k = heap.words k) :
    heap'.TagsMatch tags new held where
  tagged k hk hne :=
    have hk := (hreach k).1 hk
    (h.tagged k hk hne).of_words (hwords k hk)
  blank k hk := by
    obtain ⟨hheld, hblank⟩ := h.blank k hk
    refine ⟨hheld, ?_⟩
    rw [hwords k (.root hheld)]
    exact hblank

/-- A cell is cleared and held: it is the new one. -/
theorem clear (h : heap.TagsMatch tags none held) :
    (heap.clear k).TagsMatch tags (some k) (held ++ [k]) where
  tagged x hx hne := by
    have hroots : ∀ r ∈ held ++ [k], r = k ∨ heap.Reaches held r := fun r hr =>
      (List.mem_append.1 hr).symm.imp List.mem_singleton.1 .root
    have hreach := (hx.of_clear hroots).resolve_left fun heq => hne (congrArg some heq.symm)
    refine (h.tagged x hreach (nomatch ·)).of_words ?_
    rw [words_clear, if_neg fun heq => hne (congrArg some heq)]
  blank x hx := by
    obtain rfl := Option.some.inj hx
    refine ⟨List.mem_append_right _ (List.mem_singleton.2 rfl), fun word hword => ?_⟩
    rw [words_clear, if_pos rfl] at hword
    exact List.eq_of_mem_replicate hword

/-- The new cell is given a tag. -/
theorem putTag (h : heap.TagsMatch tags (some k) held) (hwide : 0 < (heap.words k).length)
    (htag : tag < 0) : (heap.putWord k tagSlot tag).TagsMatch (tags.set k tag) none held where
  tagged x hx _ := by
    have hreach : heap.Reaches held x := hx.of_putWord (fun _ => .root) fun target htarget => by
      rw [Word.target?_of_neg htag] at htarget
      cases htarget
    by_cases heq : k = x
    · subst heq
      obtain ⟨first, links, hwords⟩ := List.exists_cons_of_length_pos hwide
      refine ⟨tag, links, ?_, htag, ?_, fun word hword => ?_⟩
      · rw [words_putWord, if_pos rfl, hwords]
        rfl
      · rw [Assignment.lookup_set, if_pos rfl]
      · obtain rfl := (h.blank k rfl).2 word (hwords ▸ List.mem_cons_of_mem _ hword)
        decide
    · have hwords : (heap.putWord k tagSlot tag).words x = heap.words x := by
        rw [words_putWord, if_neg heq]
      exact ((h.tagged x hreach fun hx => heq (Option.some.inj hx)).of_words hwords).set
        (Ne.symm heq)
  blank _ := (nomatch ·)

/-- A link between objects that are held is written behind a tag. -/
theorem putLink (h : heap.TagsMatch tags none held) (htarget : target ∈ held)
    (hsmall : target ≤ Handle.greatest) (hslot : 0 < slot) :
    (heap.putWord object slot target.toWord).TagsMatch tags none held where
  tagged x hx _ := by
    have hreach : heap.Reaches held x := hx.of_putWord (fun _ => .root) fun k hk => by
      rw [Handle.target?_toWord hsmall] at hk
      split at hk
      · cases hk
      · obtain rfl := Option.some.inj hk
        exact .root htarget
    obtain ⟨tag, links, hwords, hneg, hlookup, hlinks⟩ := h.tagged x hreach (nomatch ·)
    by_cases heq : object = x
    · subst heq
      obtain ⟨n, rfl⟩ := Nat.exists_eq_succ_of_ne_zero (Nat.ne_of_gt hslot)
      refine ⟨tag, links.set n target.toWord, ?_, hneg, hlookup, fun word hword => ?_⟩
      · rw [words_putWord, if_pos rfl, hwords]
        rfl
      · rcases List.mem_or_eq_of_mem_set hword with hold | rfl
        · exact hlinks word hold
        · exact Handle.not_toWord_neg hsmall
    · refine ⟨tag, links, ?_, hneg, hlookup, hlinks⟩
      rw [words_putWord, if_neg heq, hwords]
  blank _ := (nomatch ·)

end TagsMatch

end Heap

namespace Session

variable {A : Type} {s s' : Session A} {t : Thread} {env : Env} {tags : Tags}
  {new : Option Handle} {held : List Handle} {h object target : Handle} {slot width : Nat}
  {tag : Word}

/-! ### A frame whose objects match their tags -/

/-- Whether all cells in reach of a frame that is alone on its stack match their tags. -/
structure MatchesTags (env : Env) (tags : Tags) (new : Option Handle) (held : List Handle)
    (s : Session A) : Prop extends s.AloneHolding env held where
  tagsMatch : s.machine.heap.TagsMatch tags new held

theorem MatchesTags.unnoticed (hs : s.MatchesTags env tags new held) (hun : s.Unnoticed env s') :
    s'.MatchesTags env tags new held := by
  have hholding := hs.toAloneHolding.unnoticed hun
  have hreach := hun.reach
  have hwords := hun.words
  rw [hholding.stackRoots, hs.stackRoots] at hreach
  rw [hs.stackRoots] at hwords
  exact ⟨hholding, hs.tagsMatch.of_words hreach hwords⟩

variable [Allocator A] [LawfulCollector A]

namespace MatchesTags

theorem contains (h : s.MatchesTags env tags new held) (hs : s.WellFormed width)
    (hobject : object ∈ held) :
    s.machine.heap.contains object = true := by
  rw [← h.holds] at hobject
  exact hs.contains_of_reaches (.root (hs.mem_roots hobject))

/-- A frame that asks for an object gets a new one, or there is no memory. -/
theorem newObject (h : s.MatchesTags env tags none held) (hs : s.WellFormed width) :
    (∃ o, s.reply t (.newObject env) = .ok o ∧
      (s.after t (.newObject env)).MatchesTags env tags (some o) (held ++ [o])) ∨
    s.reply t (.newObject env) = .error .outOfMemory ∧
      (s.after t (.newObject env)).MatchesTags env tags none held := by
  have hledger : (s.after t (.newObject env)).ledger = s.ledger := rfl
  rcases hs.newObject_granted (t := t) h.active with
    ⟨o, hreply, -, hunreached, hcalls, hheap⟩ | ⟨hreply, hcalls, hheap⟩
  · have hholding := h.toAloneHolding.of_change hledger hcalls Frame.state_insert
    have hfree : o ∉ (s.machine.frame env).handles := fun hheld =>
      hunreached (.root (hs.mem_roots hheld))
    rw [Frame.handles_insert, if_neg hfree, h.holds] at hholding
    refine .inl ⟨o, hreply, hholding, ?_⟩
    rw [hheap]
    exact h.tagsMatch.clear
  · refine .inr ⟨hreply, h.toAloneHolding.of_same hledger hcalls, ?_⟩
    rw [hheap]
    exact h.tagsMatch

/-- The new object is given a tag. -/
theorem setData (h : s.MatchesTags env tags (some object) held) (hs : s.WellFormed width)
    (hwidth : 0 < width) (htag : tag < 0) :
    s.reply t (.setData env object tagSlot tag) = .ok () ∧
      (s.after t (.setData env object tagSlot tag)).MatchesTags env
      (tags.set object tag) none held := by
  have hheld := (h.tagsMatch.blank object rfl).1
  have hwide : 0 < (s.machine.heap.words object).length :=
    (hs.wide object (h.contains hs hheld)).symm ▸ hwidth
  have hslot : tagSlot < width := hwidth
  obtain ⟨hreply, hcalls, hheap⟩ := hs.setData_granted (t := t) h.active (h.holds ▸ hheld) hslot
    htag
  refine ⟨hreply, h.toAloneHolding.of_same rfl hcalls, ?_⟩
  rw [hheap]
  exact h.tagsMatch.putTag hwide htag

/-- An object that is held is linked to another. -/
theorem setReference (h : s.MatchesTags env tags none held) (hs : s.WellFormed width)
    (hobject : object ∈ held) (htarget : target ∈ held) (hpos : 0 < slot) (hslot : slot < width) :
    s.reply t (.setReference env object slot target) = .ok () ∧
      (s.after t (.setReference env object slot target)).MatchesTags env tags none held := by
  have hsmall : target ≤ Handle.greatest :=
    Nat.le_of_lt_succ ((Heap.contains_iff.1 (h.contains hs htarget)).2.trans_le hs.small)
  obtain ⟨hreply, hcalls, hheap⟩ := hs.setReference_granted (t := t) h.active (h.holds ▸ hobject)
    (h.holds ▸ htarget) hslot
  refine ⟨hreply, h.toAloneHolding.of_same rfl hcalls, ?_⟩
  rw [hheap]
  exact h.tagsMatch.putLink htarget hsmall hpos

/-- The tag of an object that is held is what the list has for it. -/
theorem getData (h : s.MatchesTags env tags none held) (hobject : object ∈ held)
    (hs : s.WellFormed width) :
    ∃ tag, s.reply t (.getData env object tagSlot) = .ok tag ∧ tags.lookup object = some tag ∧
      (s.after t (.getData env object tagSlot)).MatchesTags env tags none held := by
  obtain ⟨tag, links, hwords, hneg, hlookup, -⟩ := h.tagsMatch.tagged object (.root hobject)
    (nomatch ·)
  have hread : (s.machine.heap.words object)[tagSlot]? = some tag := by
    rw [hwords]
    rfl
  obtain ⟨hreply, hcalls, hheap⟩ :=
    hs.getData_granted (t := t) h.active (h.holds ▸ hobject) hread hneg
  refine ⟨tag, hreply, hlookup, h.toAloneHolding.of_same rfl hcalls, ?_⟩
  rw [hheap]
  exact h.tagsMatch

/-- What a slot behind the tag names is in reach, or null. -/
theorem referenceAt (h : s.MatchesTags env tags none held) (hs : s.WellFormed width)
    (hobject : object ∈ held) (hpos : 0 < slot) (hslot : slot < width) :
    ∃ o, s.machine.referenceAt env object slot = .ok o := by
  have hcell := h.contains hs hobject
  obtain ⟨tag, links, hwords, -, -, hlinks⟩ := h.tagsMatch.tagged object (.root hobject) (nomatch ·)
  obtain ⟨n, rfl⟩ := Nat.exists_eq_succ_of_ne_zero (Nat.ne_of_gt hpos)
  have hwide := hs.wide object hcell
  rw [hwords, List.length_cons] at hwide
  obtain ⟨word, hword⟩ : ∃ word, links[n]? = some word := ⟨_, List.getElem?_eq_getElem (by omega)⟩
  have hread : s.machine.heap.read object n.succ = .ok word := by
    rw [Heap.read_eq hcell, hwords, List.getElem?_cons_succ, hword]
  have hheld : object ∈ (s.machine.frame env).handles := h.holds ▸ hobject
  cases htarget : word.target? with
  | some o => exact ⟨o, hs.referenceAt_eq h.active hheld hread htarget⟩
  | none =>
    have hdata : ¬ word < 0 := hlinks word (List.mem_of_getElem? hword)
    exact ⟨Handle.null, Machine.referenceAt_null h.active hheld hread htarget hdata⟩

/-- A link is followed, and what it names is held. -/
theorem getReference (h : s.MatchesTags env tags none held) (hs : s.WellFormed width)
    (hobject : object ∈ held) (hpos : 0 < slot) (hslot : slot < width) :
    ∃ o held', s.reply t (.getReference env object slot) = .ok o ∧
      held'.length ≤ held.length + 1 ∧
      (s.after t (.getReference env object slot)).MatchesTags env tags none held' := by
  obtain ⟨o, hcheck⟩ := h.referenceAt hs hobject hpos hslot
  obtain ⟨hreply, hcalls, hheap⟩ := getReference_granted (t := t) hcheck
  split at hcalls
  · refine ⟨o, held, hreply, Nat.le_succ _, h.toAloneHolding.of_same rfl hcalls, ?_⟩
    rw [hheap]
    exact h.tagsMatch
  · rename_i h0
    have hlink := (Machine.of_referenceAt_eq_ok hcheck).2.2 h0
    have hledger : (s.after t (.getReference env object slot)).ledger = s.ledger := rfl
    have hholding := h.toAloneHolding.of_change hledger hcalls Frame.state_insert
    have hheld : ∀ r ∈ ((s.machine.frame env).insert o).handles, s.machine.heap.Reaches held r := by
      intro r hr
      rw [Frame.mem_handles_insert, h.holds] at hr
      rcases hr with rfl | hr
      · exact .link (.root hobject) hlink
      · exact .root hr
    refine ⟨o, _, hreply, ?_, hholding, ?_⟩
    · rw [Frame.handles_insert, h.holds]
      split
      · exact Nat.le_succ _
      · exact (List.length_append ..).le
    · rw [hheap]
      exact h.tagsMatch.mono hheld

omit [LawfulCollector A] in
/-- An object that is held is let go. -/
theorem release (h : s.MatchesTags env tags none held) (hobject : object ∈ held) :
    s.reply t (.release env object) = .ok () ∧
      (s.after t (.release env object)).MatchesTags env tags none (held.erase object) := by
  obtain ⟨hreply, hcalls, hheap⟩ := release_granted (t := t) h.active (h.holds ▸ hobject)
  have hledger : (s.after t (.release env object)).ledger = s.ledger := rfl
  have hholding := h.toAloneHolding.of_change hledger hcalls Frame.state_remove
  rw [Frame.handles_remove, h.holds] at hholding
  refine ⟨hreply, hholding, ?_⟩
  rw [hheap]
  exact h.tagsMatch.mono fun r hr => .root (List.mem_of_mem_erase hr)

end MatchesTags

end Session

end RootedHeap
