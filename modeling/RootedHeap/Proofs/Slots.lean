import RootedHeap.Heap.Basic
import RootedHeap.Proofs.Words

/-!
A heap as a table of words. `Heap.words` gives the slots of a cell as a list, which is empty for a
handle that names no cell. Reads and slot checks are told by this view, and a write, like a
clearing, changes the words of its own cell and nothing else.
-/

namespace RootedHeap.Heap

variable {heap : Heap} {h k : Handle} {slot : Nat} {word : Word}

/-- The words of a cell, in slot order; a handle that names no cell has none. -/
def words (heap : Heap) (h : Handle) : List Word :=
  match heap.cell? h with
  | some cell => cell.snapshot
  | none => []

/-! ### Which handles name a cell -/

theorem contains_iff : heap.contains h = true ↔ h ≠ 0 ∧ h < heap.size := by
  simp only [contains, Bool.and_eq_true, decide_eq_true_eq, Nat.one_le_iff_ne_zero]

theorem contains_iff_cell? : heap.contains h = true ↔ ∃ cell, heap.cell? h = some cell := by
  rw [contains_iff, cell?, size]
  split
  · rename_i h0
    simp only [h0, ne_eq, not_true_eq_false, false_and, reduceCtorEq, exists_false]
  · rename_i h0
    rw [← Option.isSome_iff_exists, isSome_getElem?]
    exact ⟨fun hh => Nat.sub_one_lt_of_le (Nat.pos_of_ne_zero h0) (Nat.le_of_lt_succ hh.2),
      fun hlt => ⟨h0, (Nat.sub_lt_iff_lt_add (Nat.pos_of_ne_zero h0)).1 hlt⟩⟩

theorem cell_of_contains (hh : heap.contains h = true) :
    ∃ cell, heap.cell h = .ok cell ∧ heap.words h = cell.slots.toList := by
  obtain ⟨cell, hcell⟩ := contains_iff_cell?.1 hh
  refine ⟨cell, ?_, ?_⟩
  · rw [Heap.cell, hcell]
  · rw [words, hcell]
    rfl

theorem cell_of_not_contains (hh : heap.contains h = false) :
    heap.cell h = .error (heap.outOfRange h) := by
  cases hcell : heap.cell? h with
  | none => rw [Heap.cell, hcell]
  | some cell => rw [contains_iff_cell?.2 ⟨cell, hcell⟩] at hh; cases hh

theorem mem_handles_iff : h ∈ heap.handles ↔ heap.contains h = true := by
  rw [handles, List.mem_range'_1, contains_iff, size, Nat.one_le_iff_ne_zero, Nat.add_comm 1]

theorem words_of_not_contains (hh : heap.contains h = false) : heap.words h = [] := by
  cases hcell : heap.cell? h with
  | none => rw [words, hcell]
  | some cell => rw [contains_iff_cell?.2 ⟨cell, hcell⟩] at hh; cases hh

theorem references_eq : heap.references h = (heap.words h).filterMap Word.target? := by
  rw [references, words]
  cases heap.cell? h <;> rfl

/-! ### Reads and slot checks -/

theorem read_eq (hh : heap.contains h = true) :
    heap.read h slot =
      match (heap.words h)[slot]? with
      | some word => .ok word
      | none => .error (.indexOutOfRange slot 0 (heap.words h).length) := by
  obtain ⟨cell, hcell, hwords⟩ := cell_of_contains hh
  rw [read, hcell, hwords, Array.getElem?_toList, Array.length_toList]
  rfl

/-- A word that is read and names a cell is a link. -/
theorem mem_references_of_read (hread : heap.read h slot = .ok word)
    (htarget : word.target? = some k) : k ∈ heap.references h := by
  cases hh : heap.contains h with
  | false =>
    rw [read, cell_of_not_contains hh] at hread
    cases hread
  | true =>
    rw [read_eq hh] at hread
    split at hread
    · rename_i w hslot
      obtain rfl := Except.ok.inj hread
      rw [references_eq]
      exact List.mem_filterMap.2 ⟨w, List.mem_of_getElem? hslot, htarget⟩
    · cases hread

theorem checkSlot_eq (hh : heap.contains h = true) :
    heap.checkSlot h slot =
      if slot < (heap.words h).length then .ok ()
      else .error (.indexOutOfRange slot 0 (heap.words h).length) := by
  obtain ⟨cell, hcell, hwords⟩ := cell_of_contains hh
  rw [checkSlot, hcell, hwords, Array.length_toList]
  rfl

theorem referenceWord_eq (hh : heap.contains h = true) (target : Handle) :
    heap.referenceWord h slot target =
      match target.store? with
      | some word =>
        if slot < (heap.words h).length then .ok word
        else .error (.indexOutOfRange slot 0 (heap.words h).length)
      | none => .error (.indexOutOfRange target 0 Handle.greatest) := by
  obtain ⟨cell, hcell, hwords⟩ := cell_of_contains hh
  have hcell' : heap.referenceWord h slot target = cell.referenceWord slot target := by
    rw [referenceWord, hcell]
    rfl
  rw [hcell', hwords, Array.length_toList, Cell.referenceWord]
  cases target.store? with
  | none => rfl
  | some word =>
    dsimp only
    rw [Cell.checkSlot, Cell.width]
    split
    · rfl
    · rfl

/-! ### Changes -/

variable {change : Cell → Cell}

theorem size_modify : (heap.modify h change).size = heap.size := by
  unfold modify size
  split
  · rfl
  · simp only [Array.size_modify]

theorem cell?_modify :
    (heap.modify h change).cell? k = if h = k then (heap.cell? k).map change else heap.cell? k := by
  unfold modify cell?
  by_cases hk : k = 0
  · simp only [hk, ↓reduceIte, Option.map_none, ite_self]
  by_cases hh : h = 0
  · simp only [hh, hk, ↓reduceIte]
    rw [if_neg (Ne.symm hk)]
  · simp only [hk, hh, ↓reduceIte, Array.getElem?_modify]
    have : h - 1 = k - 1 ↔ h = k := by
      constructor
      · intro e
        rw [← Nat.succ_pred_eq_of_ne_zero hh, ← Nat.succ_pred_eq_of_ne_zero hk]
        exact congrArg Nat.succ e
      · rintro rfl; rfl
    simp only [this]

@[simp] theorem size_putWord : (heap.putWord h slot word).size = heap.size := size_modify

@[simp] theorem size_clear : (heap.clear h).size = heap.size := size_modify

@[simp] theorem contains_putWord : (heap.putWord h slot word).contains k = heap.contains k := by
  simp only [contains, size_putWord]

@[simp] theorem contains_clear : (heap.clear h).contains k = heap.contains k := by
  simp only [contains, size_clear]

theorem words_modify :
    (heap.modify h change).words k =
      match heap.cell? k with
      | some cell => if h = k then (change cell).snapshot else cell.snapshot
      | none => [] := by
  rw [words, cell?_modify]
  by_cases hk : h = k <;> cases heap.cell? k <;> simp only [hk, ↓reduceIte] <;> rfl

theorem words_putWord :
    (heap.putWord h slot word).words k =
      if h = k then (heap.words k).set slot word else heap.words k := by
  rw [putWord, words_modify, words]
  cases heap.cell? k with
  | none => simp only [List.set_nil, ite_self]
  | some cell => simp only [Cell.snapshot, Cell.put, Array.toList_setIfInBounds]

theorem words_clear :
    (heap.clear h).words k =
      if h = k then List.replicate (heap.words k).length 0 else heap.words k := by
  rw [clear, words_modify, words]
  cases heap.cell? k with
  | none => simp only [List.length_nil, List.replicate_zero, ite_self]
  | some cell =>
    simp only [Cell.snapshot, Cell.clear, Cell.width, Array.toList_replicate, Array.length_toList]

theorem length_words_putWord :
    ((heap.putWord h slot word).words k).length = (heap.words k).length := by
  rw [words_putWord]
  split
  · rw [List.length_set]
  · rfl

theorem length_words_clear : ((heap.clear h).words k).length = (heap.words k).length := by
  rw [words_clear]
  split
  · rw [List.length_replicate]
  · rfl

/-! ### A new heap -/

variable {size width : Nat}

theorem size_ofSize : (ofSize size width).size = max size 1 := by
  simp only [Heap.size, ofSize, List.size_toArray, List.length_map, List.length_range']
  omega

/-- Every cell of a new heap has the heap's width, and all its slots are null. -/
theorem words_ofSize (hh : (ofSize size width).contains h = true) :
    (ofSize size width).words h = List.replicate width 0 := by
  obtain ⟨cell, hcell⟩ := contains_iff_cell?.1 hh
  have h0 := (contains_iff.1 hh).1
  rw [words, hcell]
  simp only [cell?, h0, ↓reduceIte, ofSize, List.getElem?_toArray, List.getElem?_map,
    Option.map_eq_some_iff] at hcell
  obtain ⟨position, -, rfl⟩ := hcell
  simp only [Cell.snapshot, Cell.fresh, Array.toList_replicate]

end RootedHeap.Heap
