import RootedHeap.Heap.Command
import RootedHeap.Proofs.Slots

/-!
What no write changes: how many cells a heap has, and how many slots each of them. A request to a
cell, whether of a frame or past all frames, leaves the shape of the heap as it was.
-/

namespace RootedHeap

/-! ### Cells -/

namespace Cell

variable {c c' : Cell} {command : CellCommand} {reply : CellReply} {slot : Nat}

theorem width_write {word : Word} (hwrite : c.write slot word = .ok c') : c'.width = c.width := by
  unfold write at hwrite
  cases hslot : c.checkSlot slot with
  | error fault =>
    rw [hslot] at hwrite
    cases hwrite
  | ok _ =>
    rw [hslot] at hwrite
    obtain rfl := Except.ok.inj hwrite
    exact Array.size_setIfInBounds

theorem width_writeReference {target : Handle} (hwrite : c.writeReference slot target = .ok c') :
    c'.width = c.width := by
  unfold writeReference at hwrite
  cases hword : c.referenceWord slot target with
  | error fault =>
    rw [hword] at hwrite
    cases hwrite
  | ok word =>
    rw [hword] at hwrite
    obtain rfl := Except.ok.inj hwrite
    exact Array.size_setIfInBounds

theorem width_clear : c.clear.width = c.width := Array.size_replicate

/-- A request that only looks leaves the cell as it was. -/
theorem eq_of_looked {α : Type} {answer : Answer α} {tell : α → CellReply}
    (hmap : (answer.map fun a => (tell a, c)) = .ok (reply, c')) : c' = c := by
  cases answer with
  | error fault => cases hmap
  | ok a => exact (Prod.mk.inj (Except.ok.inj hmap)).2.symm

/-- No request changes the number of slots. -/
theorem width_perform (hperform : c.perform command = .ok (reply, c')) : c'.width = c.width := by
  cases command with
  | getReference slot => rw [eq_of_looked hperform]
  | getData slot => rw [eq_of_looked hperform]
  | isReference slot => rw [eq_of_looked hperform]
  | setReference slot target =>
    rw [perform] at hperform
    cases hwrite : c.writeReference slot target with
    | error fault =>
      rw [hwrite] at hperform
      cases hperform
    | ok after =>
      rw [hwrite] at hperform
      obtain ⟨-, rfl⟩ := Prod.mk.inj (Except.ok.inj hperform)
      exact width_writeReference hwrite
  | setData slot word =>
    rw [perform] at hperform
    cases hwrite : c.write slot word with
    | error fault =>
      rw [hwrite] at hperform
      cases hperform
    | ok after =>
      rw [hwrite] at hperform
      obtain ⟨-, rfl⟩ := Prod.mk.inj (Except.ok.inj hperform)
      exact width_write hwrite
  | clear =>
    obtain ⟨-, rfl⟩ := Prod.mk.inj (Except.ok.inj hperform)
    exact width_clear
  | _ =>
    obtain ⟨-, rfl⟩ := Prod.mk.inj (Except.ok.inj hperform)
    rfl

end Cell

/-! ### Heaps -/

namespace Heap

variable {heap heap' heap'' : Heap} {h : Handle} {slot : Nat} {word : Word}

structure SameShape (heap heap' : Heap) : Prop where
  size : heap'.size = heap.size
  width : heap'.width = heap.width
  words : ∀ h, (heap'.words h).length = (heap.words h).length

theorem width_modify {change : Cell → Cell} : (heap.modify h change).width = heap.width := by
  unfold modify
  split <;> rfl

namespace SameShape

theorem refl : heap.SameShape heap := ⟨rfl, rfl, fun _ => rfl⟩

theorem trans (hab : heap.SameShape heap') (hbc : heap'.SameShape heap'') :
    heap.SameShape heap'' :=
  ⟨hbc.size.trans hab.size, hbc.width.trans hab.width, fun h => (hbc.words h).trans (hab.words h)⟩

theorem modify {change : Cell → Cell}
    (hchange : ∀ cell, heap.cell? h = some cell → (change cell).width = cell.width) :
    heap.SameShape (heap.modify h change) := by
  refine ⟨size_modify, width_modify, fun k => ?_⟩
  rw [words_modify, Heap.words]
  cases hcell : heap.cell? k with
  | none => rfl
  | some cell =>
    dsimp only
    split
    · rename_i heq
      subst heq
      exact hchange cell hcell
    · rfl

theorem putWord : heap.SameShape (heap.putWord h slot word) :=
  modify fun _ _ => Array.size_setIfInBounds

theorem clear : heap.SameShape (heap.clear h) := modify fun _ _ => Cell.width_clear

/-- A request to a cell leaves the shape of the heap as it was. -/
theorem perform {command : CellCommand} {reply : CellReply}
    (hperform : heap.perform h command = .ok (reply, heap')) : heap.SameShape heap' := by
  unfold Heap.perform at hperform
  cases hcell : heap.cell h with
  | error fault =>
    rw [hcell] at hperform
    cases hperform
  | ok cell =>
    rw [hcell] at hperform
    cases hafter : cell.perform command with
    | error fault =>
      simp only [bind, Except.bind, hafter] at hperform
      cases hperform
    | ok after =>
      simp only [bind, Except.bind, hafter] at hperform
      obtain ⟨-, rfl⟩ := Prod.mk.inj (Except.ok.inj hperform)
      refine modify fun cell' hcell' => ?_
      rw [Heap.cell, hcell'] at hcell
      obtain rfl := Except.ok.inj hcell
      exact Cell.width_perform hafter

end SameShape

end Heap

end RootedHeap
