import RootedHeap.Heap.Basic

/-!
Marking. From a list of handles, follow every positive word to the cell that it names, and mark each
cell met on the way once. Words that name no cell are not followed. Each step marks a cell that was
not marked or drops a handle from the list, so the walk ends on cyclic links too.
-/

namespace RootedHeap

/-- One mark for each handle of a heap. -/
abbrev Marks := Array Bool

namespace Marks

def none (size : Nat) : Marks := Array.replicate size false

def add (marks : Marks) (h : Handle) : Marks := marks.setIfInBounds h true

def has (marks : Marks) (h : Handle) : Bool := marks[h]?.getD false

/-- The number of handles without a mark. -/
def missing (marks : Marks) : Nat := marks.count false

/-- The number of handles with a mark. -/
def present (marks : Marks) : Nat := marks.count true

/-- A new mark leaves one handle fewer without one. -/
theorem missing_add_lt {marks : Marks} {h : Handle} (hh : marks[h]? = some false) :
    (marks.add h).missing < marks.missing := by
  obtain ⟨hlt, hval⟩ := Array.getElem?_eq_some_iff.1 hh
  have hpos : 0 < marks.count false :=
    Array.count_pos_iff.2 (hval ▸ Array.getElem_mem hlt)
  simp only [missing, add, Array.setIfInBounds, hlt, dite_true, Array.count_set, hval]
  show marks.count false - 1 + 0 < marks.count false
  omega

end Marks

namespace Heap

/-- The marks after following every link from the handles of a work list. -/
def mark (heap : Heap) : List Handle → Marks → Marks
  | [], marks => marks
  | h :: work, marks =>
    if _hh : heap.contains h ∧ marks[h]? = some false then
      mark heap (heap.references h ++ work) (marks.add h)
    else mark heap work marks
termination_by work marks => (marks.missing, work.length)
decreasing_by
  · exact Prod.Lex.left _ _ (Marks.missing_add_lt _hh.2)
  · exact Prod.Lex.right _ (by simp)

end Heap

end RootedHeap
