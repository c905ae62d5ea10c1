import RootedHeap.Allocator.Marking
import RootedHeap.Proofs.Slots

/-!
What roots reach, and that marking finds it. `Heap.Reaches` is the least set that holds the roots
and, with a cell, every handle in its slots. Marking is shown to be this set, cut down to the
handles that name a cell: `mark_sound` says that nothing else is marked, `mark_closed` that the
marks are closed under links, and `has_mark_iff` puts both together.
-/

namespace RootedHeap.Heap

/-- The handles that can be had from the roots by following slots. -/
inductive Reaches (heap : Heap) (roots : List Handle) : Handle → Prop
  | root {h : Handle} : h ∈ roots → Reaches heap roots h
  | link {h k : Handle} : Reaches heap roots h → k ∈ heap.references h → Reaches heap roots k

variable {heap heap' : Heap} {roots roots' work : List Handle} {marks : Marks} {h k : Handle}

/-- Only a cell has links. -/
theorem contains_of_mem_references (hk : k ∈ heap.references h) : heap.contains h = true := by
  cases hh : heap.contains h with
  | true => rfl
  | false =>
    rw [references_eq, words_of_not_contains hh] at hk
    cases hk

namespace Reaches

/-- What another heap reaches is reached here, if its roots are and its links stay inside. -/
theorem of_closed (hroots : ∀ r ∈ roots', heap.Reaches roots r)
    (hlinks : ∀ h k, heap.Reaches roots h → k ∈ heap'.references h → heap.Reaches roots k)
    (hh : heap'.Reaches roots' h) : heap.Reaches roots h := by
  induction hh with
  | root hmem => exact hroots _ hmem
  | link _ hmem ih => exact hlinks _ _ ih hmem

theorem mono (hroots : ∀ r ∈ roots', r ∈ roots) (hh : heap.Reaches roots' h) :
    heap.Reaches roots h :=
  of_closed (fun r hr => .root (hroots r hr)) (fun _ _ => .link) hh

/-- A write adds no reach if what it stores is in reach already. -/
theorem of_putWord {object : Handle} {slot : Nat} {word : Word}
    (hroots : ∀ r ∈ roots', heap.Reaches roots r)
    (htarget : ∀ target, Word.target? word = some target → heap.Reaches roots target)
    (hh : (heap.putWord object slot word).Reaches roots' h) : heap.Reaches roots h := by
  refine of_closed hroots (fun h k hh hmem => ?_) hh
  rw [references_eq, words_putWord] at hmem
  split at hmem
  · obtain ⟨w, hw, htw⟩ := List.mem_filterMap.1 hmem
    rcases List.mem_or_eq_of_mem_set hw with hold | rfl
    · exact .link hh (by rw [references_eq]; exact List.mem_filterMap.2 ⟨w, hold, htw⟩)
    · exact htarget k htw
  · exact .link hh (by rw [references_eq]; exact hmem)

theorem references_clear (object : Handle) :
    (heap.clear object).references h = if object = h then [] else heap.references h := by
  rw [references_eq, words_clear, references_eq]
  split
  · refine List.filterMap_eq_nil_iff.2 fun w hw => ?_
    rw [List.eq_of_mem_replicate hw]
    rfl
  · rfl

/-- Clearing a cell adds nothing to what is reached, but for the cell itself if it is a root. -/
theorem of_clear {object : Handle} (hroots : ∀ r ∈ roots', r = object ∨ heap.Reaches roots r)
    (hh : (heap.clear object).Reaches roots' h) : h = object ∨ heap.Reaches roots h := by
  induction hh with
  | root hmem => exact hroots _ hmem
  | link _ hmem ih =>
    rw [references_clear] at hmem
    split at hmem
    · cases hmem
    · rename_i hne
      exact .inr (.link (ih.resolve_left (Ne.symm hne)) hmem)

end Reaches

end RootedHeap.Heap

namespace RootedHeap.Marks

variable {marks : Marks} {h k : Handle}

theorem has_add : (marks.add h).has k = true ↔ h = k ∧ h < marks.size ∨ marks.has k = true := by
  unfold add has
  rw [Array.getElem?_setIfInBounds]
  by_cases hk : h = k
  · subst hk
    by_cases hlt : h < marks.size
    · simp only [hlt, ↓reduceIte, Option.getD_some, true_and, true_or]
    · have hnone : marks[h]? = Option.none := Array.getElem?_eq_none (Nat.le_of_not_lt hlt)
      simp only [hlt, hnone, ↓reduceIte, and_false, false_or]
  · simp only [hk, ↓reduceIte, false_and, false_or]

@[simp] theorem size_add : (marks.add h).size = marks.size := Array.size_setIfInBounds

theorem has_none {size : Nat} : (Marks.none size).has h = false := by
  unfold has Marks.none
  rw [Array.getElem?_replicate]
  split <;> rfl

theorem has_of_getElem?_ne (hlt : h < marks.size) (hh : marks[h]? ≠ some false) :
    marks.has h = true := by
  rw [Array.getElem?_eq_getElem hlt] at hh
  rw [has, Array.getElem?_eq_getElem hlt]
  simpa using hh

end RootedHeap.Marks

namespace RootedHeap.Heap

variable {heap : Heap} {roots work : List Handle} {marks : Marks} {h k : Handle}

theorem size_mark : (heap.mark work marks).size = marks.size := by
  fun_induction heap.mark work marks with
  | case1 marks => rfl
  | case2 h work marks hnew ih => rw [ih, Marks.size_add]
  | case3 h work marks hold ih => exact ih

theorem has_mark_of_has (hh : marks.has k = true) : (heap.mark work marks).has k = true := by
  fun_induction heap.mark work marks with
  | case1 marks => exact hh
  | case2 h work marks hnew ih => exact ih (Marks.has_add.2 (.inr hh))
  | case3 h work marks hold ih => exact ih hh

/-- Every cell of the work list ends up marked. -/
theorem has_mark_of_mem (hsize : marks.size = heap.size) (hk : k ∈ work)
    (hcell : heap.contains k = true) : (heap.mark work marks).has k = true := by
  have hlt : k < marks.size := hsize ▸ (contains_iff.1 hcell).2
  fun_induction heap.mark work marks with
  | case1 marks => cases hk
  | case2 h work marks hnew ih =>
    rcases List.mem_cons.1 hk with rfl | hk
    · exact has_mark_of_has (Marks.has_add.2 (.inl ⟨rfl, hlt⟩))
    · exact ih (by rw [Marks.size_add, hsize]) (List.mem_append_right _ hk)
        (by rw [Marks.size_add]; exact hlt)
  | case3 h work marks hold ih =>
    rcases List.mem_cons.1 hk with rfl | hk
    · exact has_mark_of_has (Marks.has_of_getElem?_ne hlt fun hfalse => hold ⟨hcell, hfalse⟩)
    · exact ih hsize hk hlt

/-- Only cells in reach of the work list become marked. -/
theorem mark_sound (hk : (heap.mark work marks).has k = true) :
    marks.has k = true ∨ heap.contains k = true ∧ heap.Reaches work k := by
  fun_induction heap.mark work marks with
  | case1 marks => exact .inl hk
  | case2 h work marks hnew ih =>
    rcases ih hk with hadd | ⟨hcell, hreach⟩
    · rcases Marks.has_add.1 hadd with ⟨rfl, -⟩ | hold
      · exact .inr ⟨hnew.1, .root List.mem_cons_self⟩
      · exact .inl hold
    · refine .inr ⟨hcell, hreach.of_closed (fun r hr => ?_) fun _ _ => .link⟩
      rcases List.mem_append.1 hr with hlink | hwork
      · exact .link (.root List.mem_cons_self) hlink
      · exact .root (List.mem_cons_of_mem _ hwork)
  | case3 h work marks hold ih =>
    refine (ih hk).imp_right fun hreach => ⟨hreach.1, ?_⟩
    exact hreach.2.mono fun r hr => List.mem_cons_of_mem _ hr

/-- The cells that a newly marked cell links to are marked as well. -/
theorem mark_closed (hsize : marks.size = heap.size) (hold : marks.has h = false)
    (hh : (heap.mark work marks).has h = true) (hk : k ∈ heap.references h)
    (hcell : heap.contains k = true) : (heap.mark work marks).has k = true := by
  fun_induction heap.mark work marks with
  | case1 marks => rw [hold] at hh; cases hh
  | case2 g work marks hnew ih =>
    have hsize' : (marks.add g).size = heap.size := by rw [Marks.size_add, hsize]
    by_cases hg : g = h
    · subst hg
      exact has_mark_of_mem hsize' (List.mem_append_left _ hk) hcell
    · refine ih hsize' (Bool.eq_false_iff.2 fun hadd => ?_) hh
      rcases Marks.has_add.1 hadd with ⟨hgh, -⟩ | hhas
      · exact hg hgh
      · rw [hold] at hhas; cases hhas
  | case3 g work marks hmarked ih => exact ih hsize hold hh

/-- Marking from the roots marks exactly the cells in their reach. -/
theorem has_mark_iff :
    (heap.mark roots (Marks.none heap.size)).has h = true ↔
      heap.contains h = true ∧ heap.Reaches roots h := by
  have hsize : (Marks.none heap.size).size = heap.size := Array.size_replicate
  constructor
  · intro hh
    refine (mark_sound hh).resolve_left fun hnone => ?_
    rw [Marks.has_none] at hnone
    cases hnone
  · rintro ⟨hcell, hreach⟩
    induction hreach with
    | root hmem => exact has_mark_of_mem hsize hmem hcell
    | link hreach hmem ih =>
      -- a handle with links names a cell, so the marks have got to it
      exact mark_closed hsize Marks.has_none (ih (contains_of_mem_references hmem)) hmem hcell

end RootedHeap.Heap
