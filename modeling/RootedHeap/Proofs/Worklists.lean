import Mathlib.Tactic.ByContra
import Mathlib.Tactic.Tauto
import RootedHeap.Proofs.Reach

/-!
Marking as a loop over a stack. A handle is looked up among the marks only where it names a cell;
one without a mark gets it and goes on the stack; the loop takes a handle off the stack, counts it,
and visits what its cell refers to. `Heap.trace` is this loop with every lookup checked. `trace_eq`
says that it comes to its end with no lookup out of range, whatever words the heap holds and
whatever the roots are, with the marks of `Heap.mark` and their number.
-/

namespace RootedHeap

namespace Heap

/-- The cells that can be had from those among the roots by following positive words to cells. -/
inductive Finds (heap : Heap) (roots : List Handle) : Handle → Prop
  | root {h : Handle} : h ∈ roots → heap.contains h = true → Finds heap roots h
  | word {h : Handle} {w : Word} : Finds heap roots h → w ∈ heap.words h → 0 < w →
    heap.contains w.toHandle = true → Finds heap roots w.toHandle

variable {heap : Heap} {roots : List Handle} {h : Handle}

theorem Finds.contains (hh : heap.Finds roots h) : heap.contains h = true := by
  cases hh with
  | root _ hcell => exact hcell
  | word _ _ _ hcell => exact hcell

/-- What is found is what is in reach and names a cell. -/
theorem finds_iff : heap.Finds roots h ↔ heap.contains h = true ∧ heap.Reaches roots h := by
  constructor
  · intro hh
    refine ⟨hh.contains, ?_⟩
    induction hh with
    | root hmem _ => exact .root hmem
    | @word g w _ hword hpos _ ih =>
      refine .link ih ?_
      rw [references_eq, List.mem_filterMap]
      exact ⟨w, hword, by simp [Word.target?, hpos]⟩
  · rintro ⟨hcell, hreach⟩
    induction hreach with
    | root hmem => exact .root hmem hcell
    | @link g k _ hmem ih =>
      have hg : heap.Finds roots g := ih (contains_of_mem_references hmem)
      rw [references_eq, List.mem_filterMap] at hmem
      obtain ⟨w, hword, htarget⟩ := hmem
      have hpos : 0 < w := by
        by_contra hneg
        simp [Word.target?, hneg] at htarget
      obtain rfl : w.toHandle = k := by simpa [Word.target?, hpos] using htarget
      exact .word hg hword hpos hcell

/-! ### The loop -/

/-- Visits handles: each that names a cell without a mark gets one and goes on the stack. There is
no answer if a handle that is looked up has no place among the marks. -/
def visit (heap : Heap) : List Handle → Marks × List Handle → Option (Marks × List Handle)
  | [], found => some found
  | h :: rest, (marks, stack) =>
    if heap.contains h then
      match marks[h]? with
      | none => none
      | some true => visit heap rest (marks, stack)
      | some false => visit heap rest (marks.add h, h :: stack)
    else visit heap rest (marks, stack)

theorem missing_visit {hs : List Handle} {marks marks' : Marks} {stack stack' : List Handle}
    (hvisit : heap.visit hs (marks, stack) = some (marks', stack')) :
    marks'.missing + stack'.length ≤ marks.missing + stack.length := by
  induction hs generalizing marks stack with
  | nil =>
    obtain ⟨rfl, rfl⟩ := Prod.mk.inj (Option.some.inj hvisit)
    exact Nat.le_refl _
  | cons h rest ih =>
    rw [visit] at hvisit
    by_cases hcell : heap.contains h = true
    · rw [if_pos hcell] at hvisit
      rcases hmark : marks[h]? with _ | (_ | _)
      · rw [hmark] at hvisit
        cases hvisit
      · rw [hmark] at hvisit
        have hlt := Marks.missing_add_lt hmark
        have hle := ih hvisit
        simp only [List.length_cons] at hle
        omega
      · rw [hmark] at hvisit
        exact ih hvisit
    · rw [if_neg hcell] at hvisit
      exact ih hvisit

/-- Takes handles off the stack, counts them and visits what their cells refer to, until the stack
is empty: the count and the marks. There is no answer if a handle on the stack names no cell. -/
def walk (heap : Heap) (marks : Marks) (stack : List Handle) (marked : Nat) :
    Option (Nat × Marks) :=
  match stack with
  | [] => some (marked, marks)
  | h :: stack =>
    match heap.cell? h with
    | none => none
    | some cell =>
      match _hvisit : heap.visit cell.references (marks, stack) with
      | none => none
      | some (marks', stack') => walk heap marks' stack' (marked + 1)
termination_by marks.missing + stack.length
decreasing_by
  have hle := missing_visit _hvisit
  simp only [List.length_cons]
  omega

/-- The loop from the roots, over marks that are all taken away at first. -/
def trace (heap : Heap) (roots : List Handle) (marks : Marks) : Option (Nat × Marks) :=
  match heap.visit roots (Marks.none marks.size, []) with
  | none => none
  | some (marks', stack) => heap.walk marks' stack 0

end Heap

namespace Marks

variable {marks marks' : Marks} {h : Handle} {size : Nat}

theorem present_add (hmark : marks[h]? = some false) :
    (marks.add h).present = marks.present + 1 := by
  obtain ⟨hlt, hval⟩ := Array.getElem?_eq_some_iff.1 hmark
  simp [present, add, Array.setIfInBounds, hlt, Array.count_set, hval]

theorem present_none : (Marks.none size).present = 0 := by
  simp [present, none, Array.count_replicate]

/-- Marks are told by the handles that have one. -/
theorem ext_has (hsize : marks.size = marks'.size) (hhas : ∀ h, marks.has h = marks'.has h) :
    marks = marks' := by
  refine Array.ext hsize fun i hi hi' => ?_
  simpa [has, hi, hi'] using hhas i

/-- The marks and the list of the handles that have one. -/
theorem present_eq_length (marks : Marks) :
    ∃ cells : List Handle, cells.Nodup ∧ (∀ h, h ∈ cells ↔ marks.has h = true) ∧
      marks.present = cells.length := by
  refine ⟨(List.range marks.size).filter marks.has, List.nodup_range.filter _, fun h => ?_, ?_⟩
  · simp only [List.mem_filter, List.mem_range, and_iff_right_iff_imp]
    intro hh
    by_contra hge
    simp [has, Array.getElem?_eq_none (Nat.le_of_not_lt hge)] at hh
  · have hlist : marks.toList = (List.range marks.size).map marks.has := by
      refine List.ext_getElem (by simp) fun i hi _ => ?_
      have hlt : i < marks.size := by simpa using hi
      simp [has, hlt]
    rw [present, ← Array.count_toList, hlist, List.count_eq_length_filter, List.filter_map,
      List.length_map]
    congr 1
    exact List.filter_congr fun h _ => by simp

end Marks

namespace Heap

variable {heap : Heap} {roots hs : List Handle} {marks : Marks} {stack : List Handle} {marked : Nat}

/-- What a visit leads to: the handles visited that name cells have their marks, and those that had
none before are on top of the stack. -/
theorem visit_spec (hs stack : List Handle) (hsize : marks.size = heap.size) :
    ∃ marks' new, heap.visit hs (marks, stack) = some (marks', new ++ stack) ∧
      marks'.size = heap.size ∧ marks'.present = marks.present + new.length ∧
      (∀ k, marks'.has k = true ↔ marks.has k = true ∨ k ∈ new) ∧
      (∀ k ∈ new, k ∈ hs ∧ heap.contains k = true) ∧
      ∀ k ∈ hs, heap.contains k = true → marks'.has k = true := by
  induction hs generalizing marks stack with
  | nil => exact ⟨marks, [], rfl, hsize, rfl, by simp, by simp, by simp⟩
  | cons h rest ih =>
    by_cases hcell : heap.contains h = true
    · have hlt : h < marks.size := hsize ▸ (contains_iff.1 hcell).2
      rcases hmark : marks[h]? with _ | (_ | _)
      · simp [hlt] at hmark
      · have hadd : (marks.add h).size = heap.size := by rw [Marks.size_add, hsize]
        obtain ⟨marks', new, hvisit, hsize', hpresent, hhas, hnew, hdone⟩ := ih (h :: stack) hadd
        refine ⟨marks', new ++ [h], ?_, hsize', ?_, fun k => ?_, fun k hk => ?_, fun k hk hk' => ?_⟩
        · rw [visit, if_pos hcell, hmark]
          simpa using hvisit
        · rw [hpresent, Marks.present_add hmark]
          simp only [List.length_append, List.length_singleton]
          omega
        · rw [hhas, Marks.has_add]
          simp only [hlt, and_true, List.mem_append, List.mem_singleton]
          tauto
        · rcases List.mem_append.1 hk with hk | hk
          · exact ⟨List.mem_cons_of_mem _ (hnew k hk).1, (hnew k hk).2⟩
          · obtain rfl := List.mem_singleton.1 hk
            exact ⟨List.mem_cons_self, hcell⟩
        · rcases List.mem_cons.1 hk with rfl | hk
          · exact (hhas k).2 (.inl (Marks.has_add.2 (.inl ⟨rfl, hlt⟩)))
          · exact hdone k hk hk'
      · obtain ⟨marks', new, hvisit, hsize', hpresent, hhas, hnew, hdone⟩ := ih stack hsize
        refine ⟨marks', new, ?_, hsize', hpresent, hhas, fun k hk => ?_, fun k hk hk' => ?_⟩
        · rw [visit, if_pos hcell, hmark]
          exact hvisit
        · exact ⟨List.mem_cons_of_mem _ (hnew k hk).1, (hnew k hk).2⟩
        · rcases List.mem_cons.1 hk with rfl | hk
          · exact (hhas k).2 (.inl (by simp [Marks.has, hmark]))
          · exact hdone k hk hk'
    · obtain ⟨marks', new, hvisit, hsize', hpresent, hhas, hnew, hdone⟩ := ih stack hsize
      refine ⟨marks', new, ?_, hsize', hpresent, hhas, fun k hk => ?_, fun k hk hk' => ?_⟩
      · rw [visit, if_neg hcell]
        exact hvisit
      · exact ⟨List.mem_cons_of_mem _ (hnew k hk).1, (hnew k hk).2⟩
      · rcases List.mem_cons.1 hk with rfl | hk
        · exact absurd hk' hcell
        · exact hdone k hk hk'

/-- Where the loop is: what has a mark is in reach, the roots have theirs, and what is marked and
not on the stack was counted and has only marked cells behind it. -/
structure Walking (heap : Heap) (roots : List Handle) (marks : Marks) (stack : List Handle)
    (marked : Nat) : Prop where
  size : marks.size = heap.size
  sound : ∀ h, marks.has h = true → heap.Finds roots h
  stacked : ∀ h ∈ stack, marks.has h = true
  rooted : ∀ h ∈ roots, heap.contains h = true → marks.has h = true
  closed : ∀ h, marks.has h = true → h ∉ stack → ∀ k ∈ heap.references h,
    heap.contains k = true → marks.has k = true
  counted : marks.present = marked + stack.length

theorem Walking.opening (heap : Heap) (roots : List Handle) :
    ∃ marks stack, heap.visit roots (Marks.none heap.size, []) = some (marks, stack) ∧
      heap.Walking roots marks stack 0 := by
  have hnone : (Marks.none heap.size).size = heap.size := Array.size_replicate
  obtain ⟨marks, new, hvisit, hsize, hpresent, hhas, hnew, hdone⟩ := visit_spec roots [] hnone
  rw [List.append_nil] at hvisit
  simp only [Marks.has_none, Bool.false_eq_true, false_or] at hhas
  refine ⟨marks, new, hvisit, hsize, ?_, ?_, hdone, ?_, ?_⟩
  · intro h hh
    obtain ⟨hroot, hcell⟩ := hnew h ((hhas h).1 hh)
    exact .root hroot hcell
  · intro h hh
    exact (hhas h).2 hh
  · intro h hh hoff
    exact absurd ((hhas h).1 hh) hoff
  · rw [hpresent, Marks.present_none]

/-- One round of the loop. -/
theorem Walking.step {h : Handle} (hw : heap.Walking roots marks (h :: stack) marked) :
    ∃ cell marks' stack', heap.cell? h = some cell ∧
      heap.visit cell.references (marks, stack) = some (marks', stack') ∧
      heap.Walking roots marks' stack' (marked + 1) := by
  have hfound : heap.Finds roots h := hw.sound h (hw.stacked h List.mem_cons_self)
  obtain ⟨cell, hcell⟩ := contains_iff_cell?.1 hfound.contains
  have hreferences : heap.references h = cell.references := by rw [references, hcell]
  obtain ⟨marks', new, hvisit, hsize, hpresent, hhas, hnew, hdone⟩ :=
    visit_spec cell.references stack hw.size
  refine ⟨cell, marks', new ++ stack, hcell, hvisit, hsize, ?_, ?_, ?_, ?_, ?_⟩
  · intro k hk
    rcases (hhas k).1 hk with hold | hmem
    · exact hw.sound k hold
    · obtain ⟨hlink, hk⟩ := hnew k hmem
      exact finds_iff.2 ⟨hk, .link (finds_iff.1 hfound).2 (hreferences ▸ hlink)⟩
  · intro k hk
    rcases List.mem_append.1 hk with hk | hk
    · exact (hhas k).2 (.inr hk)
    · exact (hhas k).2 (.inl (hw.stacked k (List.mem_cons_of_mem _ hk)))
  · intro k hk hcell
    exact (hhas k).2 (.inl (hw.rooted k hk hcell))
  · intro g hg hoff k hk hkcell
    rw [List.mem_append, not_or] at hoff
    have hold : marks.has g = true := ((hhas g).1 hg).resolve_right hoff.1
    by_cases hgh : g = h
    · exact hdone k (hreferences ▸ hgh ▸ hk) hkcell
    · have hoff' : g ∉ h :: stack := by simp [hgh, hoff.2]
      exact (hhas k).2 (.inl (hw.closed g hold hoff' k hk hkcell))
  · have hcounted := hw.counted
    simp only [List.length_cons] at hcounted
    simp only [hpresent, List.length_append]
    omega

/-- Once the stack is empty, exactly what is in reach has a mark. -/
theorem Walking.has_iff {h : Handle} (hw : heap.Walking roots marks [] marked) :
    marks.has h = true ↔ heap.Finds roots h := by
  refine ⟨hw.sound h, fun hh => ?_⟩
  induction hh with
  | root hmem hcell => exact hw.rooted _ hmem hcell
  | @word g w _ hword hpos hcell ih =>
    refine hw.closed g ih List.not_mem_nil _ ?_ hcell
    rw [references_eq, List.mem_filterMap]
    exact ⟨w, hword, by simp [Word.target?, hpos]⟩

/-- From wherever it is, the loop comes to its end. -/
theorem Walking.walk_eq (hw : heap.Walking roots marks stack marked) :
    ∃ marked' marks', heap.walk marks stack marked = some (marked', marks') ∧
      heap.Walking roots marks' [] marked' := by
  fun_induction heap.walk marks stack marked with
  | case1 marks marked => exact ⟨marked, marks, rfl, hw⟩
  | case2 marks marked h stack hnone =>
    obtain ⟨cell, marks', stack', hcell, -⟩ := hw.step
    rw [hnone] at hcell
    cases hcell
  | case3 marks marked h stack cell hcell hvisit =>
    obtain ⟨cell', marks', stack', hcell', hvisit', -⟩ := hw.step
    obtain rfl := Option.some.inj (hcell.symm.trans hcell')
    rw [hvisit] at hvisit'
    cases hvisit'
  | case4 marks marked h stack cell hcell marks' stack' hvisit ih =>
    obtain ⟨cell', marks'', stack'', hcell', hvisit', hw'⟩ := hw.step
    obtain rfl := Option.some.inj (hcell.symm.trans hcell')
    obtain ⟨rfl, rfl⟩ := Prod.mk.inj (Option.some.inj (hvisit.symm.trans hvisit'))
    exact ih hw'

/-- The loop comes to its end with every lookup in range; its marks are those of marking by
recursion, and its count is their number. -/
theorem trace_eq (hsize : marks.size = heap.size) :
    heap.trace roots marks =
      some ((heap.mark roots (Marks.none heap.size)).present,
        heap.mark roots (Marks.none heap.size)) := by
  obtain ⟨marks₀, stack₀, hvisit, hopening⟩ := Walking.opening heap roots
  obtain ⟨marked, marks', hwalk, hw⟩ := hopening.walk_eq
  have hmarks : marks' = heap.mark roots (Marks.none heap.size) := by
    refine Marks.ext_has ?_ fun h => ?_
    · rw [hw.size, size_mark]
      exact Array.size_replicate.symm
    · rw [Bool.eq_iff_iff, hw.has_iff, has_mark_iff, finds_iff]
  have hcount : marks'.present = marked := hw.counted
  rw [trace, hsize, hvisit]
  show heap.walk marks₀ stack₀ 0 = _
  rw [hwalk, ← hmarks, hcount]

end Heap

end RootedHeap
