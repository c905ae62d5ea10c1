/-!
Values by key: a list of entries, the latest first, that is only ever extended by `set`, so that no
key has two entries. `lookup_set` says what is found under a key afterwards.
-/

namespace RootedHeap

abbrev Assignment (K V : Type) := List (K × V)

namespace Assignment

variable {K V : Type} [DecidableEq K]

/-- The assignment in which a key has a value, whatever it had before. -/
def set (s : Assignment K V) (k : K) (v : V) : Assignment K V :=
  (k, v) :: s.filter fun entry => entry.1 ≠ k

theorem lookup_filter_ne (s : Assignment K V) {k i : K} (h : i ≠ k) :
    List.lookup i (s.filter fun entry => entry.1 ≠ k) = List.lookup i s := by
  induction s with
  | nil => rfl
  | cons entry s ih =>
    obtain ⟨j, v⟩ := entry
    by_cases hj : j = k
    · subst hj
      have hi : (i == j) = false := beq_false_of_ne h
      rw [List.filter_cons_of_neg (by simp), ih, List.lookup_cons, hi]
    · rw [List.filter_cons_of_pos (by simpa using hj), List.lookup_cons, List.lookup_cons, ih]

theorem lookup_set (s : Assignment K V) (k : K) (v : V) (i : K) :
    List.lookup i (s.set k v) = if i = k then some v else List.lookup i s := by
  by_cases h : i = k
  · subst h
    rw [set, List.lookup_cons, beq_self_eq_true, if_pos rfl]
  · have hi : (i == k) = false := beq_false_of_ne h
    rw [set, List.lookup_cons, hi, if_neg h]
    exact lookup_filter_ne s h

end Assignment

end RootedHeap
