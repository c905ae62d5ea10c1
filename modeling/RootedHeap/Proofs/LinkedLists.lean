import RootedHeap.Proofs.Reach
import RootedHeap.Workload.Slots

/-!
Linked lists in the heap. A `Heap.Chain` is a list of cells that the links run through from its head
to null, with tags that fall from its tail to its head, as a builder of lists leaves it. A frame
that works on a list holds its head, or what is left of it; `Heap.ListHeld` says that, and what a
new cell looks like while it waits to be put in front. The cells of the list and the new one are all
that the frame has in reach, which bounds what it keeps from being collected.
-/

namespace RootedHeap

open Workload (tagSlot linkSlot)

namespace Word

variable {w below : Word} {n : Nat}

theorem toInt_below (hbelow : w.below? n = some below) : below.toInt = w.toInt - n := by
  unfold below? at hbelow
  split at hbelow
  · rename_i hle
    obtain rfl := Option.some.inj hbelow
    have hlt := Int64.toInt_lt w
    exact Int64.toInt_ofInt_of_le hle (by omega)
  · cases hbelow

/-- What is below data is data. -/
theorem below_neg (hw : w < 0) (hbelow : w.below? n = some below) : below < 0 := by
  rw [Int64.lt_iff_toInt_lt, Int64.toInt_zero] at hw ⊢
  rw [toInt_below hbelow]
  omega

/-- A word has one below it that is not too far below. -/
theorem exists_below (hle : -0x8000000000000000 ≤ w.toInt - n) :
    ∃ below, w.below? n = some below := by
  rw [below?, if_pos hle]
  exact ⟨_, rfl⟩

end Word

namespace Heap

/-- Whether a cell carries a tag and a link, in front of slots that are null. -/
def ListCell (heap : Heap) (h : Handle) (tag : Word) (next : Handle) : Prop :=
  ∃ rest, heap.words h = tag :: next.toWord :: rest ∧ ∀ word ∈ rest, word = 0

/-- Whether a handle can name a cell and be stored in a slot. -/
def Valid (h : Handle) : Prop := h ≠ Handle.null ∧ h ≤ Handle.greatest

/-- Whether cells make a list: each is linked to the next, the last to null, and each carries the
tag that is as far below `base` as there are cells after it. -/
def Chain (heap : Heap) (base : Word) : List Handle → Prop
  | [] => True
  | h :: cells => Valid h ∧ h ∉ cells ∧
      (∃ tag, base.below? cells.length = some tag ∧ heap.ListCell h tag (cells.headD Handle.null)) ∧
      heap.Chain base cells

variable {heap heap' : Heap} {base tag old : Word} {cells suffix held held' roots : List Handle}
  {h k o next : Handle}

namespace ListCell

theorem of_words (hlistCell : heap.ListCell h tag next) (hwords : heap'.words h = heap.words h) :
    heap'.ListCell h tag next := by
  obtain ⟨rest, heq, hrest⟩ := hlistCell
  exact ⟨rest, hwords.trans heq, hrest⟩

/-- A cell is linked to what its link names, and to nothing else. -/
theorem mem_references_iff (hlistCell : heap.ListCell h tag next) (htag : tag ≤ 0)
    (hnext : next ≤ Handle.greatest) : k ∈ heap.references h ↔ next ≠ Handle.null ∧ k = next := by
  obtain ⟨rest, hwords, hrest⟩ := hlistCell
  have hnone : rest.filterMap Word.target? = [] := by
    rw [List.filterMap_eq_nil_iff]
    intro word hword
    rw [hrest word hword]
    rfl
  rw [references_eq, hwords, List.filterMap_cons_none (Word.target?_eq_none_iff.2 htag)]
  by_cases hnull : next = 0
  · subst hnull
    have htarget : (Handle.toWord 0).target? = none := rfl
    rw [List.filterMap_cons_none htarget, hnone]
    simp [Handle.null]
  · have htarget : next.toWord.target? = some next := by
      rw [Handle.target?_toWord hnext, if_neg hnull]
    rw [List.filterMap_cons_some htarget, hnone]
    simp [Handle.null, hnull]

theorem clear (hwide : 2 ≤ (heap.words o).length) : (heap.clear o).ListCell o 0 Handle.null := by
  refine ⟨List.replicate ((heap.words o).length - 2) 0, ?_, fun _ => List.eq_of_mem_replicate⟩
  rw [words_clear, if_pos rfl]
  obtain ⟨n, hn⟩ := Nat.exists_eq_add_of_le' hwide
  rw [hn]
  rfl

theorem putTag (hlistCell : heap.ListCell o old next) :
    (heap.putWord o tagSlot tag).ListCell o tag next := by
  obtain ⟨rest, hwords, hrest⟩ := hlistCell
  refine ⟨rest, ?_, hrest⟩
  rw [words_putWord, if_pos rfl, hwords]
  rfl

theorem putLink (hlistCell : heap.ListCell o tag next) :
    (heap.putWord o linkSlot k.toWord).ListCell o tag k := by
  obtain ⟨rest, hwords, hrest⟩ := hlistCell
  refine ⟨rest, ?_, hrest⟩
  rw [words_putWord, if_pos rfl, hwords]
  rfl

end ListCell

namespace Chain

/-- A list stays one when its cells are not written. -/
theorem of_words (hchain : heap.Chain base cells)
    (hwords : ∀ h ∈ cells, heap'.words h = heap.words h) : heap'.Chain base cells := by
  induction cells with
  | nil => trivial
  | cons h cells ih =>
    obtain ⟨hvalid, hfresh, ⟨tag, htag, hlistCell⟩, hrest⟩ := hchain
    obtain ⟨hh, hcells⟩ := List.forall_mem_cons.1 hwords
    exact ⟨hvalid, hfresh, ⟨tag, htag, hlistCell.of_words hh⟩, ih hrest hcells⟩

theorem of_suffix (hchain : heap.Chain base cells) (hsuffix : suffix <:+ cells) :
    heap.Chain base suffix := by
  induction cells with
  | nil =>
    obtain rfl := List.suffix_nil.1 hsuffix
    trivial
  | cons h cells ih =>
    rcases List.suffix_cons_iff.1 hsuffix with rfl | hsuffix
    · exact hchain
    · exact ih hchain.2.2.2 hsuffix

theorem nodup (hchain : heap.Chain base cells) : cells.Nodup := by
  induction cells with
  | nil => exact List.nodup_nil
  | cons h cells ih => exact List.nodup_cons.2 ⟨hchain.2.1, ih hchain.2.2.2⟩

theorem valid (hchain : heap.Chain base cells) (hh : h ∈ cells) : Valid h := by
  induction cells with
  | nil => cases hh
  | cons x cells ih =>
    rcases List.mem_cons.1 hh with rfl | hh
    · exact hchain.1
    · exact ih hchain.2.2.2 hh

theorem headD_le (hchain : heap.Chain base cells) :
    cells.headD Handle.null ≤ Handle.greatest := by
  cases cells with
  | nil => exact Nat.zero_le _
  | cons h cells => exact hchain.1.2

/-- What the head of a list is linked to. -/
theorem mem_references_iff (hchain : heap.Chain base (h :: cells)) (hbase : base < 0) :
    k ∈ heap.references h ↔ k ∈ cells.head? := by
  obtain ⟨-, -, ⟨tag, htag, hlistCell⟩, hrest⟩ := hchain
  rw [hlistCell.mem_references_iff (Int64.le_of_lt (Word.below_neg hbase htag)) hrest.headD_le]
  cases cells with
  | nil => simp
  | cons x cells =>
    have hx : x ≠ Handle.null := hrest.1.1
    simp [hx, eq_comm]

/-- The links of a list stay in it. -/
theorem closed (hchain : heap.Chain base cells) (hbase : base < 0) (hh : h ∈ cells)
    (hk : k ∈ heap.references h) : k ∈ cells := by
  induction cells with
  | nil => cases hh
  | cons x cells ih =>
    rcases List.mem_cons.1 hh with rfl | hh
    · exact List.mem_cons_of_mem _ (List.mem_of_mem_head? ((hchain.mem_references_iff hbase).1 hk))
    · exact List.mem_cons_of_mem _ (ih hchain.2.2.2 hh)

/-- Whoever reaches the head of a list reaches all of it. -/
theorem reaches (hchain : heap.Chain base cells) (hbase : base < 0)
    (hhead : ∀ h ∈ cells.head?, heap.Reaches roots h) : ∀ h ∈ cells, heap.Reaches roots h := by
  induction cells with
  | nil => exact fun _ => (nomatch ·)
  | cons x cells ih =>
    have hx : heap.Reaches roots x := hhead x rfl
    have hcells := ih hchain.2.2.2 fun h hh =>
      .link hx ((hchain.mem_references_iff hbase).2 hh)
    exact List.forall_mem_cons.2 ⟨hx, hcells⟩

end Chain

/-! ### A list and a frame that works on it -/

/-- Whether a frame that holds these objects works on a list of these cells, held by its head, and
on a new cell with some tag, if there is one. -/
structure ListHeld (heap : Heap) (base : Word) (new : Option (Handle × Word))
    (cells held : List Handle) : Prop where
  negative : base < 0
  chain : heap.Chain base cells
  head : ∀ h ∈ cells.head?, h ∈ held
  fresh : ∀ o tag, new = some (o, tag) →
    o ∈ held ∧ (Valid o ∧ o ∉ cells) ∧ tag ≤ 0 ∧ heap.ListCell o tag Handle.null
  only : ∀ h ∈ held, h ∈ cells ∨ ∃ tag, new = some (h, tag)

namespace ListHeld

variable {new : Option (Handle × Word)}

theorem nil (hbase : base < 0) : heap.ListHeld base none [] [] :=
  ⟨hbase, trivial, fun _ => (nomatch ·), fun _ _ => (nomatch ·), fun _ => (nomatch ·)⟩

/-- The cells of the list are in reach. -/
theorem reaches (hs : heap.ListHeld base new cells held) (hh : h ∈ cells) : heap.Reaches held h :=
  hs.chain.reaches hs.negative (fun _ hhead => .root (hs.head _ hhead)) h hh

/-- Nothing is in reach but the list and the new cell. -/
theorem mem_of_reaches (hs : heap.ListHeld base new cells held) (hh : heap.Reaches held h) :
    h ∈ cells ∨ ∃ tag, new = some (h, tag) := by
  induction hh with
  | root hheld => exact hs.only _ hheld
  | link _ hlink ih =>
    rcases ih with hcell | ⟨tag, hnew⟩
    · exact .inl (hs.chain.closed hs.negative hcell hlink)
    · obtain ⟨-, -, htag, hlistCell⟩ := hs.fresh _ tag hnew
      obtain ⟨hnull, -⟩ := (hlistCell.mem_references_iff htag (Nat.zero_le _)).1 hlink
      exact absurd rfl hnull

/-- A frame works on its list as before when nothing in its reach is written. -/
theorem of_words (hs : heap.ListHeld base new cells held)
    (hwords : ∀ h, heap.Reaches held h → heap'.words h = heap.words h) :
    heap'.ListHeld base new cells held where
  negative := hs.negative
  chain := hs.chain.of_words fun h hh => hwords h (hs.reaches hh)
  head := hs.head
  fresh o tag hnew := by
    obtain ⟨hheld, hfresh, htag, hlistCell⟩ := hs.fresh o tag hnew
    exact ⟨hheld, hfresh, htag, hlistCell.of_words (hwords o (.root hheld))⟩
  only := hs.only

/-- Fewer objects of the list are held, but still its head. -/
theorem mono (hs : heap.ListHeld base none cells held) (hhead : ∀ h ∈ cells.head?, h ∈ held')
    (hheld : ∀ h ∈ held', h ∈ cells) : heap.ListHeld base none cells held' :=
  ⟨hs.negative, hs.chain, hhead, fun _ _ => (nomatch ·), fun h hh => .inl (hheld h hh)⟩

/-- A cell out of reach is cleared and held: it is the new one. -/
theorem clear (hs : heap.ListHeld base none cells held) (hvalid : Valid o)
    (hfree : ¬ heap.Reaches held o) (hwide : 2 ≤ (heap.words o).length) :
    (heap.clear o).ListHeld base (some (o, 0)) cells (held ++ [o]) where
  negative := hs.negative
  chain := hs.chain.of_words fun h hh => by
    rw [words_clear, if_neg]
    rintro rfl
    exact hfree (hs.reaches hh)
  head h hh := List.mem_append_left _ (hs.head h hh)
  fresh x tag hnew := by
    obtain ⟨rfl, rfl⟩ := Prod.mk.inj (Option.some.inj hnew)
    exact ⟨List.mem_append_right _ (List.mem_singleton.2 rfl),
      ⟨hvalid, fun hcell => hfree (hs.reaches hcell)⟩, Int64.le_refl 0, .clear hwide⟩
  only h hh := by
    rcases List.mem_append.1 hh with hold | hnew
    · exact .inl ((hs.only h hold).resolve_right fun ⟨_, hnone⟩ => nomatch hnone)
    · obtain rfl := List.mem_singleton.1 hnew
      exact .inr ⟨0, rfl⟩

/-- The new cell is given a tag. -/
theorem putTag (hs : heap.ListHeld base (some (o, old)) cells held) (htag : tag ≤ 0) :
    (heap.putWord o tagSlot tag).ListHeld base (some (o, tag)) cells held := by
  obtain ⟨hheld, hfresh, -, hlistCell⟩ := hs.fresh o old rfl
  refine ⟨hs.negative, hs.chain.of_words fun h hh => ?_, hs.head, fun x tag' hnew => ?_,
    fun h hh => (hs.only h hh).imp_right fun ⟨tag', hnew⟩ => ?_⟩
  · rw [words_putWord, if_neg]
    rintro rfl
    exact hfresh.2 hh
  · obtain ⟨rfl, rfl⟩ := Prod.mk.inj (Option.some.inj hnew)
    exact ⟨hheld, hfresh, htag, hlistCell.putTag⟩
  · obtain ⟨rfl, -⟩ := Prod.mk.inj (Option.some.inj hnew)
    exact ⟨tag, rfl⟩

/-- A new cell with the next tag stands in front of the list once its link says so. -/
theorem cons (hs : heap.ListHeld base (some (o, tag)) cells held)
    (htag : base.below? cells.length = some tag)
    (hlistCell : heap'.ListCell o tag (cells.headD Handle.null))
    (hwords : ∀ h, h ≠ o → heap'.words h = heap.words h) :
    heap'.ListHeld base none (o :: cells) held := by
  obtain ⟨hheld, ⟨hvalid, hfresh⟩, -, -⟩ := hs.fresh o tag rfl
  have hchain : heap'.Chain base cells := hs.chain.of_words fun h hh => hwords h fun heq =>
    hfresh (heq ▸ hh)
  refine ⟨hs.negative, ⟨hvalid, hfresh, ⟨tag, htag, hlistCell⟩, hchain⟩, fun h hh => ?_,
    fun _ _ => (nomatch ·), fun h hh => .inl ?_⟩
  · obtain rfl := Option.some.inj hh
    exact hheld
  · rcases hs.only h hh with hcell | ⟨tag', hnew⟩
    · exact List.mem_cons_of_mem _ hcell
    · obtain ⟨rfl, -⟩ := Prod.mk.inj (Option.some.inj hnew)
      exact List.mem_cons_self

/-- The new cell is linked to the head of the list. -/
theorem putLink (hs : heap.ListHeld base (some (o, tag)) cells held)
    (htag : base.below? cells.length = some tag) :
    (heap.putWord o linkSlot (cells.headD Handle.null).toWord).ListHeld base none (o :: cells)
      held := by
  obtain ⟨-, -, -, hlistCell⟩ := hs.fresh o tag rfl
  refine hs.cons htag hlistCell.putLink fun h hne => ?_
  rw [words_putWord, if_neg (Ne.symm hne)]

/-- A new cell is a list by itself. -/
theorem single (hs : heap.ListHeld base (some (o, tag)) [] held)
    (htag : base.below? 0 = some tag) : heap.ListHeld base none [o] held :=
  hs.cons htag (hs.fresh o tag rfl).2.2.2 fun _ _ => rfl

/-- Another cell of the list is held. -/
theorem follow (hs : heap.ListHeld base none cells held) (hk : k ∈ cells) :
    heap.ListHeld base none cells (held ++ [k]) := by
  refine hs.mono (fun h hh => List.mem_append_left _ (hs.head h hh)) fun h hh => ?_
  rcases List.mem_append.1 hh with hold | hnew
  · exact (hs.only h hold).resolve_right fun ⟨_, hnone⟩ => nomatch hnone
  · exact List.mem_singleton.1 hnew ▸ hk

end ListHeld

end Heap

end RootedHeap
