import RootedHeap.Word

/-!
Handles as words and back. A handle up to `Handle.greatest` is stored as a word that is not negative
and that names the same cell when it is read, so nothing stored as a reference is read as data. A
word that was written to a slot is `Written` as the one or the other.
-/

namespace RootedHeap

namespace Handle

variable {h : Nat}

theorem toInt_toWord (hh : h ≤ greatest) : (toWord h).toInt = h :=
  Int64.toInt_ofNat_of_lt (Nat.lt_succ_of_le hh)

theorem toHandle_toWord (hh : h ≤ greatest) : Word.toHandle (toWord h) = h := by
  have hlt : h < 0x8000000000000000 := Nat.lt_succ_of_le hh
  exact UInt64.toNat_ofNat_of_lt' (by simp only [UInt64.size]; omega)

theorem toWord_pos_iff (hh : h ≤ greatest) : 0 < toWord h ↔ h ≠ 0 := by
  rw [Int64.lt_iff_toInt_lt, toInt_toWord hh, Int64.toInt_zero]
  omega

theorem not_toWord_neg (hh : h ≤ greatest) : ¬ toWord h < 0 := by
  rw [Int64.lt_iff_toInt_lt, toInt_toWord hh, Int64.toInt_zero]
  omega

/-- A stored handle is read as a reference. -/
theorem isReference_toWord (hh : h ≤ greatest) : Word.isReference (toWord h) = true :=
  decide_eq_true (Int64.not_lt.1 (not_toWord_neg hh))

/-- A stored handle names the cell that it was stored for; null names none. -/
theorem target?_toWord (hh : h ≤ greatest) :
    Word.target? (toWord h) = if h = 0 then none else some h := by
  simp only [Word.target?, toWord_pos_iff hh, toHandle_toWord hh, ne_eq, ite_not]

theorem store?_eq_some_iff {w : Word} : store? h = some w ↔ h ≤ greatest ∧ w = toWord h := by
  unfold store?
  split
  · rename_i hh
    simp only [Option.some.injEq, hh, true_and, eq_comm]
  · rename_i hh
    simp only [hh, false_and, reduceCtorEq]

end Handle

namespace Word

theorem target?_eq_none_iff {w : Word} : target? w = none ↔ w ≤ 0 := by
  simp only [target?, ite_eq_right_iff, reduceCtorEq, imp_false, Int64.not_lt]

/-- Negative words are data: they name no cell. -/
theorem target?_of_neg {w : Word} (hw : w < 0) : target? w = none :=
  target?_eq_none_iff.2 (Int64.le_of_lt hw)

/-- No word names the null reference. -/
theorem target?_ne_zero {w : Word} {h : Handle} (hw : target? w = some h) : h ≠ 0 := by
  unfold target? at hw
  split at hw
  · rename_i hpos
    obtain rfl := Option.some.inj hw
    intro hz
    have hw0 : w = 0 := congrArg Int64.ofUInt64 (UInt64.toNat_inj.1 hz)
    exact absurd (hw0 ▸ hpos) (by decide)
  · cases hw

/-- A count below 2⁶³ can be told from minus the count. -/
theorem toInt_neg_ofCount {k : Nat} (hk : k < 0x8000000000000000) :
    (-(Word.ofCount k)).toInt = -k := by
  have hvalue : (Word.ofCount k).toInt = k := Int64.toInt_ofNat_of_lt hk
  rw [Int64.toInt_neg, hvalue]
  exact Int.bmod_eq_of_le (by omega) (by omega)

/-- A count with its sign turned refers to nothing. -/
theorem target?_neg_ofCount {k : Nat} (hk : k < 0x8000000000000000) :
    (-(Word.ofCount k)).target? = none := by
  rw [target?_eq_none_iff, Int64.le_iff_toInt_le, toInt_neg_ofCount hk, Int64.toInt_zero]
  omega

/-- A word that names a cell has the number of the cell as its value. -/
theorem toInt_of_target? {w : Word} {h : Handle} (htarget : w.target? = some h) : w.toInt = h := by
  unfold target? at htarget
  split at htarget
  · rename_i hpos
    obtain rfl := Option.some.inj htarget
    rw [Int64.lt_iff_toInt_lt, Int64.toInt_zero] at hpos
    have hvalue : w.toInt = if 2 * w.toBitVec.toNat < 2 ^ 64 then (w.toBitVec.toNat : Int)
        else (w.toBitVec.toNat : Int) - (2 ^ 64 : Nat) := BitVec.toInt_eq_toNat_cond w.toBitVec
    have hbits : w.toHandle = w.toBitVec.toNat := rfl
    have hlt := w.toBitVec.isLt
    rw [hbits]
    omega
  · cases htarget

/-- A word with the value of a handle names it, unless the handle is null. -/
theorem target?_of_toInt {w : Word} {h : Handle} (hvalue : w.toInt = h) :
    w.target? = if h = Handle.null then none else some h := by
  have hlt := Int64.toInt_lt w
  rw [hvalue] at hlt
  have hle : h ≤ Handle.greatest := Nat.le_of_lt_succ (Int.ofNat_lt.1 hlt)
  have hword : w = Handle.toWord h :=
    Int64.toInt_inj.1 (hvalue.trans (Handle.toInt_toWord hle).symm)
  rw [hword, Handle.target?_toWord hle, Handle.null]

/-- The handles among words, as numbers, are the positive values, in the same order. -/
theorem map_filterMap_target? (words : List Word) :
    ((words.filterMap target?).map fun h : Handle => (h : Int)) =
      (words.map fun w : Word => w.toInt).filter (0 < ·) := by
  induction words with
  | nil => rfl
  | cons w words ih =>
    cases htarget : w.target? with
    | none =>
      have hle := target?_eq_none_iff.1 htarget
      rw [Int64.le_iff_toInt_le, Int64.toInt_zero] at hle
      rw [List.filterMap_cons_none htarget, List.map_cons,
        List.filter_cons_of_neg (by simpa using hle), ih]
    | some h =>
      have hvalue := toInt_of_target? htarget
      have hpos : 0 < w.toInt := by
        rw [hvalue]
        exact Int.natCast_pos.2 (Nat.pos_of_ne_zero (target?_ne_zero htarget))
      rw [List.filterMap_cons_some htarget, List.map_cons, List.map_cons,
        List.filter_cons_of_pos (by simpa using hpos), ih, hvalue]

end Word

/-- What was written to a slot. -/
inductive Written where
  | reference (h : Handle)
  | data (word : Word)

namespace Written

def word : Written → Word
  | reference h => h.toWord
  | data word => word

/-- References fit in a slot, and data is negative. -/
def Storable : Written → Prop
  | reference h => h ≤ Handle.greatest
  | data word => word < 0

end Written

end RootedHeap
