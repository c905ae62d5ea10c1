import RootedHeap.Heap.Command
import RootedHeap.Proofs.Slots

/-!
Requests to cells, said of numbers and words alone. `CellCommand.fault?` says why a request is
refused, `CellCommand.reply` what it is answered otherwise, and `CellCommand.stores` what it stores
in which slot. None of them looks at a cell: a cell of a given width, position and words does what
they say, and a copy takes over all words of a cell of the same width.
-/

namespace RootedHeap

def slotFault? (width slot : Nat) : Option Fault :=
  if slot < width then none else some (.indexOutOfRange slot 0 width)

def handleFault? (size : Nat) (h : Handle) : Option Fault :=
  if 0 < h ∧ h < size then none else some (.indexOutOfRange h 1 size)

theorem handleFault?_eq_none {size : Nat} {h : Handle} :
    handleFault? size h = none ↔ 0 < h ∧ h < size := by
  rw [handleFault?]
  split
  · rename_i hh
    exact ⟨fun _ => hh, fun _ => rfl⟩
  · rename_i hh
    exact ⟨(nomatch ·), fun hh' => absurd hh' hh⟩

theorem slotFault?_eq_none {width slot : Nat} : slotFault? width slot = none ↔ slot < width := by
  rw [slotFault?]
  split
  · rename_i hh
    exact ⟨fun _ => hh, fun _ => rfl⟩
  · rename_i hh
    exact ⟨(nomatch ·), fun hh' => absurd hh' hh⟩

namespace CellCommand

/-- Why a cell with so many slots refuses a request. A handle that fits in no slot is refused
whatever the slot. -/
def fault? (width : Nat) : CellCommand → Option Fault
  | .getReference slot | .getData slot | .isReference slot | .setData slot _ =>
    slotFault? width slot
  | .setReference slot target =>
    if target ≤ Handle.greatest then slotFault? width slot
    else some (.indexOutOfRange target 0 Handle.greatest)
  | .position | .width | .clear | .snapshot | .references | .layout => none

/-- What a cell with these words answers to a request that it does not refuse. -/
def reply (position : Handle) (words : List Word) : CellCommand → CellReply
  | .position => .number position
  | .width => .number words.length
  | .getReference slot | .getData slot => .word (words.getD slot 0)
  | .isReference slot => .flag (0 ≤ words.getD slot 0)
  | .setReference _ _ | .setData _ _ | .clear => .done
  | .snapshot => .words words
  | .references => .handles (words.filterMap Word.target?)
  | .layout => .text (Cell.layout ⟨position, words.toArray⟩)

/-- What a request stores in a slot, unless it is refused. -/
def stores (slot : Nat) : CellCommand → Option Written
  | .setReference k target => if k = slot then some (.reference target) else none
  | .setData k word => if k = slot then some (.data word) else none
  | .clear => some (.reference Handle.null)
  | _ => none

/-- The word in a slot after a request, where there was another before. -/
def leaves (command : CellCommand) (slot : Nat) (word : Word) : Word :=
  ((command.stores slot).map Written.word).getD word

/-- A reference is stored only if it fits in a slot. -/
theorem fits_of_stores {command : CellCommand} {width slot : Nat} {target : Handle}
    (hfault : command.fault? width = none)
    (hstores : command.stores slot = some (.reference target)) : target ≤ Handle.greatest := by
  cases command with
  | setReference k given =>
    rw [stores] at hstores
    rw [fault?] at hfault
    split at hfault
    · rename_i hgiven
      split at hstores
      · obtain rfl := Written.reference.inj (Option.some.inj hstores)
        exact hgiven
      · cases hstores
    · cases hfault
  | setData k word =>
    rw [stores] at hstores
    split at hstores
    · cases hstores
    · cases hstores
  | clear =>
    obtain rfl := Written.reference.inj (Option.some.inj hstores)
    exact Nat.zero_le _
  | _ => cases hstores

end CellCommand

namespace Cell

variable {c source : Cell} {slot : Nat} {word : Word} {command : CellCommand} {fault : Fault}

theorem length_snapshot : c.snapshot.length = c.width := Array.length_toList

theorem read_of_lt (hslot : slot < c.width) : c.read slot = .ok (c.snapshot.getD slot 0) := by
  have hslot' : slot < c.slots.size := hslot
  rw [read, Array.getElem?_eq_getElem hslot', snapshot, List.getD_eq_getElem?_getD,
    Array.getElem?_toList, Array.getElem?_eq_getElem hslot', Option.getD_some]

theorem read_of_slotFault (hfault : slotFault? c.width slot = some fault) :
    c.read slot = .error fault := by
  unfold slotFault? at hfault
  split at hfault
  · cases hfault
  · rename_i hslot
    obtain rfl := Option.some.inj hfault
    rw [read, Array.getElem?_eq_none (Nat.le_of_not_lt hslot)]

theorem checkSlot_of_slotFault (hfault : slotFault? c.width slot = some fault) :
    c.checkSlot slot = .error fault := by
  unfold slotFault? at hfault
  split at hfault
  · cases hfault
  · rename_i hslot
    obtain rfl := Option.some.inj hfault
    rw [checkSlot, if_neg hslot]

theorem getElem?_snapshot_put (k : Nat) :
    (c.put slot word).snapshot[k]? =
      (c.snapshot[k]?).map fun old => if slot = k then word else old := by
  simp only [put, snapshot, Array.toList_setIfInBounds, List.getElem?_set]
  by_cases hk : slot = k
  · subst hk
    by_cases hslot : slot < c.slots.toList.length
    · simp only [hslot, ↓reduceIte, List.getElem?_eq_getElem, Option.map_some]
    · simp only [hslot, ↓reduceIte, List.getElem?_eq_none (Nat.le_of_not_lt hslot),
        Option.map_none]
  · simp only [hk, ↓reduceIte, Option.map_id']

theorem getElem?_snapshot_clear (k : Nat) :
    c.clear.snapshot[k]? = (c.snapshot[k]?).map fun _ => 0 := by
  simp only [clear, snapshot, Array.toList_replicate, List.getElem?_replicate, width]
  by_cases hk : k < c.slots.size
  · simp [hk]
  · simp [hk]

/-- A request that is refused. -/
theorem perform_refused (hfault : command.fault? c.width = some fault) :
    c.perform command = .error fault := by
  cases command with
  | getReference slot =>
    rw [perform, read_of_slotFault hfault]
    rfl
  | getData slot =>
    rw [perform, read_of_slotFault hfault]
    rfl
  | isReference slot =>
    rw [perform, isReference, read_of_slotFault hfault]
    rfl
  | setReference slot target =>
    rw [CellCommand.fault?] at hfault
    rw [perform, writeReference, referenceWord, Handle.store?]
    by_cases htarget : target ≤ Handle.greatest
    · rw [if_pos htarget] at hfault ⊢
      dsimp only
      rw [checkSlot_of_slotFault hfault]
      rfl
    · rw [if_neg htarget] at hfault ⊢
      obtain rfl := Option.some.inj hfault
      rfl
  | setData slot word =>
    rw [perform, write, checkSlot_of_slotFault hfault]
    rfl
  | _ => cases hfault

/-- A request that is not refused. -/
theorem perform_accepted (hfault : command.fault? c.width = none) :
    ∃ c', c.perform command = .ok (command.reply c.position c.snapshot, c') ∧
      c'.position = c.position ∧
      ∀ k : Nat, c'.snapshot[k]? = (c.snapshot[k]?).map (command.leaves k) := by
  -- a request that stores nothing
  have hsame : ∀ k : Nat, c.snapshot[k]? = (c.snapshot[k]?).map id := fun k => by
    rw [Option.map_id_fun, id]
  cases command with
  | position => exact ⟨c, rfl, rfl, hsame⟩
  | width => exact ⟨c, by rw [CellCommand.reply, length_snapshot]; rfl, rfl, hsame⟩
  | getReference slot =>
    refine ⟨c, ?_, rfl, hsame⟩
    rw [perform, read_of_lt (slotFault?_eq_none.1 hfault)]
    rfl
  | getData slot =>
    refine ⟨c, ?_, rfl, hsame⟩
    rw [perform, read_of_lt (slotFault?_eq_none.1 hfault)]
    rfl
  | isReference slot =>
    refine ⟨c, ?_, rfl, hsame⟩
    rw [perform, isReference, read_of_lt (slotFault?_eq_none.1 hfault)]
    rfl
  | setReference slot target =>
    rw [CellCommand.fault?] at hfault
    split at hfault
    · rename_i htarget
      refine ⟨c.put slot target.toWord, ?_, rfl, fun k => ?_⟩
      · rw [perform, writeReference, referenceWord, Handle.store?, if_pos htarget]
        dsimp only
        rw [checkSlot, if_pos (slotFault?_eq_none.1 hfault)]
        rfl
      · rw [getElem?_snapshot_put]
        congr 1
        funext old
        simp only [CellCommand.leaves, CellCommand.stores]
        split <;> rfl
    · cases hfault
  | setData slot word =>
    refine ⟨c.put slot word, ?_, rfl, fun k => ?_⟩
    · rw [perform, write, checkSlot, if_pos (slotFault?_eq_none.1 hfault)]
      rfl
    · rw [getElem?_snapshot_put]
      congr 1
      funext old
      simp only [CellCommand.leaves, CellCommand.stores]
      split <;> rfl
  | clear => exact ⟨c.clear, rfl, rfl, getElem?_snapshot_clear⟩
  | snapshot => exact ⟨c, rfl, rfl, hsame⟩
  | references => exact ⟨c, rfl, rfl, hsame⟩
  | layout => exact ⟨c, rfl, rfl, hsame⟩

end Cell

end RootedHeap
