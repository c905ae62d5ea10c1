import Mathlib.Logic.Function.Basic
import RootedHeap.Proofs.Requests
import RootedHeap.Proofs.Shapes

/-!
Several heaps side by side, with requests to their cells and copies between them. What was last
stored in a slot is read off the requests alone: `Bank.lastStored` goes back through them, follows a
copy to where its words came from, and skips what was refused. `Bank.Shows` says that the heaps hold
just these words; one request keeps it, so it holds after all, and every answer is the one that
`BankCommand.answer` gives without looking at a heap.
-/

namespace RootedHeap

/-- Heaps side by side, each under a name. -/
abbrev Bank (ι : Type) := ι → Heap

inductive BankCommand (ι : Type) where
  | cell (i : ι) (h : Handle) (command : CellCommand)
  | copy (i : ι) (h : Handle) (j : ι) (k : Handle)

/-- What the slots of all cells are said to hold. -/
abbrev Content (ι : Type) := ι → Handle → Nat → Written

variable {ι : Type}

/-- The words that a cell of so many slots is said to hold. -/
def Content.page (width : ι → Nat) (content : Content ι) (i : ι) (h : Handle) : List Word :=
  (List.range (width i)).map fun slot => (content i h slot).word

theorem Content.getElem?_page {width : ι → Nat} {content : Content ι} {i : ι} {h : Handle}
    (slot : Nat) : (content.page width i h)[slot]? =
      if slot < width i then some (content i h slot).word else none := by
  rw [Content.page, List.getElem?_map]
  split
  · rename_i hslot
    rw [List.getElem?_range hslot, Option.map_some]
  · rename_i hslot
    rw [List.getElem?_eq_none (by rw [List.length_range]; exact Nat.le_of_not_lt hslot),
      Option.map_none]

theorem Content.length_page {width : ι → Nat} {content : Content ι} {i : ι} {h : Handle} :
    (content.page width i h).length = width i := by
  rw [Content.page, List.length_map, List.length_range]

namespace BankCommand

/-- Why heaps with so many handles, whose cells have so many slots, refuse a request. -/
def fault? (size width : ι → Nat) : BankCommand ι → Option Fault
  | .cell i h command => (handleFault? (size i) h).or (command.fault? (width i))
  | .copy i h j k =>
    (handleFault? (size i) h).or <| (handleFault? (size j) k).or <|
      if width i = width j then none else some (.sizeMismatch (width i) (width j))

section Faults

variable {size width : ι → Nat} {i j : ι} {h k target : Handle} {slot : Nat}

theorem fault?_copy (hpos : 0 < h) (hlt : h < size i) (hpos' : 0 < k) (hlt' : k < size j) :
    (BankCommand.copy i h j k).fault? size width =
      if width i = width j then none else some (.sizeMismatch (width i) (width j)) := by
  rw [fault?, handleFault?_eq_none.2 ⟨hpos, hlt⟩, handleFault?_eq_none.2 ⟨hpos', hlt'⟩]
  rfl

theorem fault?_of_fit (hpos : 0 < h) (hlt : h < size i) (hslot : slot < width i)
    (hfit : target ≤ Handle.greatest) :
    (BankCommand.cell i h (.setReference slot target)).fault? size width = none := by
  rw [fault?, handleFault?_eq_none.2 ⟨hpos, hlt⟩, CellCommand.fault?, if_pos hfit,
    slotFault?_eq_none.2 hslot]
  rfl

/-- A handle that fits in no slot is refused, if not for itself then for the cell. -/
theorem exists_fault_of_unfit (hunfit : Handle.greatest < target) :
    ∃ fault, (BankCommand.cell i h (.setReference slot target)).fault? size width = some fault := by
  rw [fault?, CellCommand.fault?, if_neg (Nat.not_le.2 hunfit)]
  cases handleFault? (size i) h with
  | some fault => exact ⟨fault, rfl⟩
  | none => exact ⟨_, rfl⟩

end Faults

/-- What a request is answered, unless it is refused. -/
def reply (width : ι → Nat) (content : Content ι) : BankCommand ι → CellReply
  | .cell i h command => command.reply h (content.page width i h)
  | .copy _ _ _ _ => .done

def answer (size width : ι → Nat) (content : Content ι) (command : BankCommand ι) :
    Answer CellReply :=
  match command.fault? size width with
  | some fault => .error fault
  | none => .ok (command.reply width content)

/-- Whether a request is one to store something in a slot. -/
def Aims (i : ι) (h : Handle) (slot : Nat) : BankCommand ι → Prop
  | .cell i' h' command => i' = i ∧ h' = h ∧ (command.stores slot).isSome
  | .copy _ _ j k => j = i ∧ k = h

variable [DecidableEq ι]

/-- What a request stores in a slot, unless it is refused. A copy stores what its source holds. -/
def stores (content : Content ι) (i : ι) (h : Handle) (slot : Nat) :
    BankCommand ι → Option Written
  | .cell i' h' command => if i' = i ∧ h' = h then command.stores slot else none
  | .copy i' h' j k => if j = i ∧ k = h then some (content i' h' slot) else none

/-- What the slots hold after a request. -/
def revise (size width : ι → Nat) (content : Content ι) (command : BankCommand ι) : Content ι :=
  match command.fault? size width with
  | some _ => content
  | none => fun i h slot => (command.stores content i h slot).getD (content i h slot)

end BankCommand

namespace Bank

def fresh (size width : ι → Nat) : Bank ι := fun i => Heap.ofSize (size i) (width i)

section Requests

variable [DecidableEq ι]

/-- The answer of a bank to a request, and the bank after it. -/
def perform (b : Bank ι) : BankCommand ι → Answer CellReply × Bank ι
  | .cell i h command =>
    match (b i).perform h command with
    | .error fault => (.error fault, b)
    | .ok (reply, heap) => (.ok reply, Function.update b i heap)
  | .copy i h j k =>
    let copied := do
      let source ← (b i).cell h
      (b j).copyInto k source
    match copied with
    | .error fault => (.error fault, b)
    | .ok heap => (.ok .done, Function.update b j heap)

/-- The bank after several requests, the latest first. -/
def after (b : Bank ι) : List (BankCommand ι) → Bank ι
  | [] => b
  | command :: past => ((b.after past).perform command).2

/-- What was last stored in the slots, in view of requests of which the latest comes first; null if
nothing was. -/
def lastStored (size width : ι → Nat) : List (BankCommand ι) → Content ι
  | [] => fun _ _ _ => .reference Handle.null
  | command :: past => command.revise size width (lastStored size width past)

end Requests

variable {size width : ι → Nat} {content : Content ι} {b : Bank ι} {i j : ι} {h k : Handle}
  {slot : Nat} {command : BankCommand ι} {fault : Fault}

/-! ### Heaps that hold what is said -/

/-- The heaps of a bank have so many handles, their cells so many slots, and in the slots is what
the content says. -/
structure Shows (size width : ι → Nat) (content : Content ι) (b : Bank ι) : Prop where
  size_eq : ∀ i, (b i).size = size i
  width_eq : ∀ i, (b i).width = width i
  cell : ∀ i h, 0 < h → h < size i → ∃ cell, (b i).cell? h = some cell ∧ cell.position = h ∧
    cell.snapshot = content.page width i h

/-- A new bank holds null everywhere. -/
theorem shows_fresh :
    Shows (fun i => max (size i) 1) width (fun _ _ _ => .reference Handle.null)
      (fresh size width) where
  size_eq i := Heap.size_ofSize
  width_eq i := rfl
  cell i h hpos hlt := by
    have hlt' : h < max (size i) 1 := hlt
    have hplace : h - 1 < size i - 1 := by omega
    have h0 : h ≠ 0 := Nat.ne_of_gt hpos
    refine ⟨Cell.fresh (width i) h, ?_, rfl, ?_⟩
    · simp only [fresh, Heap.cell?, h0, ↓reduceIte, Heap.ofSize, List.getElem?_toArray,
        List.getElem?_map, List.getElem?_range' hplace, Option.map_some]
      rw [Nat.one_mul, Nat.add_sub_cancel' hpos]
    · rw [Cell.snapshot, Cell.fresh, Array.toList_replicate, Content.page, List.map_const',
        List.length_range]
      rfl

namespace Shows

theorem cell_of_fault (hs : Shows size width content b)
    (hfault : handleFault? (size i) h = some fault) : (b i).cell h = .error fault := by
  unfold handleFault? at hfault
  split at hfault
  · cases hfault
  · rename_i hnot
    obtain rfl := Option.some.inj hfault
    have hout : (b i).contains h = false := by
      refine Bool.eq_false_iff.2 fun hcontains => hnot ?_
      obtain ⟨h0, hlt⟩ := Heap.contains_iff.1 hcontains
      exact ⟨Nat.pos_of_ne_zero h0, hs.size_eq i ▸ hlt⟩
    rw [Heap.cell_of_not_contains hout, Heap.outOfRange, hs.size_eq]

theorem cell_of_none (hs : Shows size width content b)
    (hnone : handleFault? (size i) h = none) :
    ∃ cell, (b i).cell h = .ok cell ∧ cell.position = h ∧ cell.width = width i ∧
      cell.snapshot = content.page width i h := by
  obtain ⟨hpos, hlt⟩ := handleFault?_eq_none.1 hnone
  obtain ⟨cell, hcell, hposition, hwords⟩ := hs.cell i h hpos hlt
  refine ⟨cell, by rw [Heap.cell, hcell], hposition, ?_, hwords⟩
  rw [← Cell.length_snapshot, hwords, Content.length_page]

variable [DecidableEq ι]

/-- One cell is written anew. -/
theorem put (hs : Shows size width content b) {cell : Cell} {content' : Content ι}
    (hposition : cell.position = h) (hwords : cell.snapshot = content'.page width i h)
    (haside : ∀ i' h' slot, ¬ (i = i' ∧ h = h') → content' i' h' slot = content i' h' slot) :
    Shows size width content' (Function.update b i ((b i).put h cell)) := by
  have hother : ∀ {i'}, i' ≠ i → Function.update b i ((b i).put h cell) i' = b i' := fun hne =>
    Function.update_of_ne hne _ _
  refine ⟨fun i' => ?_, fun i' => ?_, fun i' h' hpos hlt => ?_⟩
  · by_cases hi : i' = i
    · subst hi
      rw [Function.update_self, Heap.put, Heap.size_modify, hs.size_eq]
    · rw [hother hi, hs.size_eq]
  · by_cases hi : i' = i
    · subst hi
      rw [Function.update_self, Heap.put, Heap.width_modify, hs.width_eq]
    · rw [hother hi, hs.width_eq]
  · obtain ⟨old, hold, holdPosition, holdWords⟩ := hs.cell i' h' hpos hlt
    by_cases hhit : i = i' ∧ h = h'
    · obtain ⟨rfl, rfl⟩ := hhit
      refine ⟨cell, ?_, hposition, hwords⟩
      rw [Function.update_self, Heap.put, Heap.cell?_modify, if_pos rfl, hold, Option.map_some]
    · refine ⟨old, ?_, holdPosition, ?_⟩
      · by_cases hi : i' = i
        · subst hi
          have hne : h ≠ h' := fun heq => hhit ⟨rfl, heq⟩
          rw [Function.update_self, Heap.put, Heap.cell?_modify, if_neg hne, hold]
        · rw [hother hi, hold]
      · rw [holdWords]
        exact List.map_congr_left fun slot _ => by rw [haside i' h' slot hhit]

/-- A request that is refused leaves the bank as it is. -/
theorem refused (hs : Shows size width content b)
    (hfault : command.fault? size width = some fault) :
    b.perform command = (.error fault, b) := by
  cases command with
  | cell i h command =>
    rcases Option.or_eq_some_iff.1 hfault with hhandle | ⟨hhandle, hcommand⟩
    · simp only [perform, Heap.perform, hs.cell_of_fault hhandle, bind, Except.bind]
    · obtain ⟨cell, hcell, -, hwidth, -⟩ := hs.cell_of_none hhandle
      simp only [perform, Heap.perform, hcell, bind, Except.bind,
        Cell.perform_refused (hwidth ▸ hcommand)]
  | copy i h j k =>
    rcases Option.or_eq_some_iff.1 hfault with hsource | ⟨hsource, hrest⟩
    · simp only [perform, hs.cell_of_fault hsource, bind, Except.bind]
    obtain ⟨source, hcell, -, hwidth, -⟩ := hs.cell_of_none hsource
    rcases Option.or_eq_some_iff.1 hrest with htarget | ⟨htarget, hwidths⟩
    · simp only [perform, hcell, Heap.copyInto, hs.cell_of_fault htarget, bind, Except.bind]
    obtain ⟨target, hcell', -, hwidth', -⟩ := hs.cell_of_none htarget
    split at hwidths
    · cases hwidths
    · rename_i hne
      obtain rfl := Option.some.inj hwidths
      simp only [perform, hcell, Heap.copyInto, hcell', Cell.copyFrom, hwidth, hwidth',
        Ne.symm hne, ↓reduceIte, bind, Except.bind]

/-- A request that is not refused is answered as the content says, and the bank then holds what the
request leaves. -/
theorem accepted (hs : Shows size width content b) (hfault : command.fault? size width = none) :
    ∃ b', b.perform command = (.ok (command.reply width content), b') ∧
      Shows size width (command.revise size width content) b' := by
  have hrevise : command.revise size width content =
      fun i h slot => (command.stores content i h slot).getD (content i h slot) := by
    rw [BankCommand.revise, hfault]
  rw [hrevise]
  cases command with
  | cell i h command =>
    obtain ⟨hhandle, hcommand⟩ := Option.or_eq_none_iff.1 hfault
    obtain ⟨cell, hcell, hposition, hwidth, hwords⟩ := hs.cell_of_none hhandle
    obtain ⟨c', hperform, hposition', hleaves⟩ := Cell.perform_accepted (hwidth ▸ hcommand)
    rw [hposition, hwords] at hperform
    refine ⟨Function.update b i ((b i).put h c'), ?_, ?_⟩
    · simp only [perform, Heap.perform, hcell, bind, Except.bind, hperform]
      rfl
    refine hs.put (hposition'.trans hposition) (List.ext_getElem? fun slot => ?_)
      fun i' h' slot hne => ?_
    · rw [hleaves, hwords, Content.getElem?_page, Content.getElem?_page]
      split
      · simp only [CellCommand.leaves, BankCommand.stores, and_self, ↓reduceIte, Option.map_some]
        cases command.stores slot <;> rfl
      · rfl
    · simp only [BankCommand.stores, hne, ↓reduceIte, Option.getD_none]
  | copy i h j k =>
    obtain ⟨hsource, hrest⟩ := Option.or_eq_none_iff.1 hfault
    obtain ⟨htarget, hwidths⟩ := Option.or_eq_none_iff.1 hrest
    obtain ⟨source, hcell, -, hwidth, hwords⟩ := hs.cell_of_none hsource
    obtain ⟨target, hcell', hposition', hwidth', -⟩ := hs.cell_of_none htarget
    have hsame : width i = width j := by
      by_contra hne
      rw [if_neg hne] at hwidths
      cases hwidths
    refine ⟨Function.update b j ((b j).put k { target with slots := source.slots }), ?_, ?_⟩
    · simp only [perform, hcell, Heap.copyInto, hcell', Cell.copyFrom, hwidth, hwidth', hsame,
        ↓reduceIte, bind, Except.bind]
      rfl
    refine hs.put hposition' ?_ fun i' h' slot hne => ?_
    · show source.snapshot = _
      rw [hwords, Content.page, Content.page, hsame]
      exact List.map_congr_left fun slot _ => by
        simp only [BankCommand.stores, and_self, ↓reduceIte, Option.getD_some]
    · simp only [BankCommand.stores, hne, ↓reduceIte, Option.getD_none]

/-- A bank keeps up with a request. -/
theorem perform (hs : Shows size width content b) (command : BankCommand ι) :
    Shows size width (command.revise size width content) (b.perform command).2 := by
  cases hfault : command.fault? size width with
  | some fault =>
    rw [hs.refused hfault, BankCommand.revise, hfault]
    exact hs
  | none =>
    obtain ⟨b', hperform, hs'⟩ := hs.accepted hfault
    rw [hperform]
    exact hs'

/-- A bank answers as the content says. -/
theorem answer_eq (hs : Shows size width content b) (command : BankCommand ι) :
    (b.perform command).1 = command.answer size width content := by
  cases hfault : command.fault? size width with
  | some fault => rw [hs.refused hfault, BankCommand.answer, hfault]
  | none =>
    obtain ⟨b', hperform, -⟩ := hs.accepted hfault
    rw [hperform, BankCommand.answer, hfault]

omit [DecidableEq ι] in
/-- A slot reads as the content says. -/
theorem read_eq (hs : Shows size width content b) (i : ι) (h : Handle) (slot : Nat) :
    (b i).read h slot =
      match (handleFault? (size i) h).or (slotFault? (width i) slot) with
      | some fault => .error fault
      | none => .ok (content i h slot).word := by
  cases hhandle : handleFault? (size i) h with
  | some fault =>
    rw [Heap.read, hs.cell_of_fault hhandle]
    rfl
  | none =>
    obtain ⟨cell, hcell, -, hwidth, hwords⟩ := hs.cell_of_none hhandle
    have hread : (b i).read h slot = cell.read slot := by
      rw [Heap.read, hcell]
      rfl
    rw [hread]
    cases hslot : slotFault? (width i) slot with
    | some fault => exact Cell.read_of_slotFault (hwidth ▸ hslot)
    | none =>
      have hlt := slotFault?_eq_none.1 hslot
      rw [Cell.read_of_lt (hwidth ▸ hlt), hwords, List.getD_eq_getElem?_getD,
        Content.getElem?_page, if_pos hlt]
      rfl

omit [DecidableEq ι] in
theorem read_of_lt (hs : Shows size width content b) (hpos : 0 < h) (hlt : h < size i)
    (hslot : slot < width i) : (b i).read h slot = .ok (content i h slot).word := by
  rw [hs.read_eq, handleFault?_eq_none.2 ⟨hpos, hlt⟩, slotFault?_eq_none.2 hslot]
  rfl

omit [DecidableEq ι] in
/-- The words of a cell are those that the content says. -/
theorem words_eq (hs : Shows size width content b) (hpos : 0 < h) (hlt : h < size i) :
    (b i).words h = content.page width i h := by
  obtain ⟨cell, hcell, -, hwords⟩ := hs.cell i h hpos hlt
  rw [Heap.words, hcell]
  exact hwords

end Shows

variable [DecidableEq ι]

/-- What a request does not aim at keeps what it holds. -/
theorem revise_of_not_aims (haims : ¬ command.Aims i h slot) :
    command.revise size width content i h slot = content i h slot := by
  have hstores : command.stores content i h slot = none := by
    cases command with
    | cell i' h' command =>
      simp only [BankCommand.stores, ite_eq_right_iff]
      rintro ⟨rfl, rfl⟩
      exact Option.not_isSome_iff_eq_none.1 fun hsome => haims ⟨rfl, rfl, hsome⟩
    | copy i' h' j k => exact if_neg haims
  rw [BankCommand.revise]
  cases command.fault? size width with
  | some fault => rfl
  | none =>
    dsimp only
    rw [hstores, Option.getD_none]

/-- References that are stored fit in a slot. -/
theorem fits_of_lastStored {past : List (BankCommand ι)} {target : Handle}
    (hstored : lastStored size width past i h slot = .reference target) :
    target ≤ Handle.greatest := by
  induction past generalizing i h slot with
  | nil =>
    obtain rfl := Written.reference.inj hstored
    exact Nat.zero_le _
  | cons command past ih =>
    rw [lastStored, BankCommand.revise] at hstored
    cases hfault : command.fault? size width with
    | some fault =>
      rw [hfault] at hstored
      exact ih hstored
    | none =>
      simp only [hfault] at hstored
      cases hnew : command.stores (lastStored size width past) i h slot with
      | none =>
        rw [hnew] at hstored
        exact ih hstored
      | some written =>
        rw [hnew] at hstored
        obtain rfl : written = .reference target := hstored
        cases command with
        | copy i' h' j k =>
          rw [BankCommand.stores] at hnew
          split at hnew
          · exact ih (Option.some.inj hnew)
          · cases hnew
        | cell i' h' command =>
          rw [BankCommand.stores] at hnew
          split at hnew
          · exact CellCommand.fits_of_stores (Option.or_eq_none_iff.1 hfault).2 hnew
          · cases hnew

/-! ### After any requests -/

/-- What is said of a bank of heaps after some requests, the latest first. -/
structure Faithful (size width : ι → Nat) (past : List (BankCommand ι)) (b : Bank ι) : Prop where
  shape : ∀ i, (b i).size = size i ∧ (b i).width = width i
  cell : ∀ i h, 0 < h → h < size i →
    ∃ cell, (b i).cell h = .ok cell ∧ cell.position = h ∧ cell.width = width i
  reads : ∀ i h slot, 0 < h → h < size i → slot < width i →
    (b i).read h slot = .ok (lastStored size width past i h slot).word
  /-- Whatever is asked next, whether it is refused and what is answered is told by what was last
  stored. -/
  answers : ∀ command,
    (b.perform command).1 = command.answer size width (lastStored size width past)
  refused : ∀ command fault, (b.perform command).1 = .error fault → (b.perform command).2 = b
  /-- A write changes one slot, and a clearing or a copy one cell. -/
  aside : ∀ command i h slot, ¬ command.Aims i h slot →
    ((b.perform command).2 i).read h slot = (b i).read h slot
  copied : ∀ i h j k, 0 < h → h < size i → 0 < k → k < size j → width i = width j →
    (b.perform (.copy i h j k)).1 = .ok .done ∧
      ((b.perform (.copy i h j k)).2 j).words k = (b i).words h
  mismatched : ∀ i h j k, 0 < h → h < size i → 0 < k → k < size j → width i ≠ width j →
    (b.perform (.copy i h j k)).1 = .error (.sizeMismatch (width i) (width j))
  unfit : ∀ i h slot target, 0x8000000000000000 ≤ target →
    ∃ fault, (b.perform (.cell i h (.setReference slot target))).1 = .error fault
  fit : ∀ i h slot target, 0 < h → h < size i → slot < width i → target < 0x8000000000000000 →
    (b.perform (.cell i h (.setReference slot target))).1 = .ok .done ∧
      ∃ word : Word,
        ((b.perform (.cell i h (.setReference slot target))).2 i).read h slot = .ok word ∧
          word.isReference = true ∧ word.toHandle = target
  /-- Where a handle was last stored, be it by way of copies, none but that handle is read. -/
  reference : ∀ i h slot target, 0 < h → h < size i → slot < width i →
    lastStored size width past i h slot = .reference target →
      ∃ word : Word, (b i).read h slot = .ok word ∧ word.isReference = true ∧
        word.toHandle = target
  references : ∀ i h, 0 < h → h < size i →
    ∃ hs, (b.perform (.cell i h .references)).1 = .ok (.handles hs) ∧
      hs.map (fun h : Handle => (h : Int)) =
        (((b i).words h).map fun w : Word => w.toInt).filter (0 < ·)

/-- What is said of a bank follows from what it shows. -/
theorem Shows.faithful {past : List (BankCommand ι)}
    (hs : Shows size width (lastStored size width past) b) : Faithful size width past b where
  shape i := ⟨hs.size_eq i, hs.width_eq i⟩
  cell i h hpos hlt := by
    obtain ⟨cell, hcell, hposition, hwidth, -⟩ :=
      hs.cell_of_none (handleFault?_eq_none.2 ⟨hpos, hlt⟩)
    exact ⟨cell, hcell, hposition, hwidth⟩
  reads i h slot hpos hlt hslot := hs.read_of_lt hpos hlt hslot
  answers := hs.answer_eq
  refused command fault hfailed := by
    cases hfault : command.fault? size width with
    | some fault' => rw [hs.refused hfault]
    | none =>
      rw [hs.answer_eq, BankCommand.answer, hfault] at hfailed
      cases hfailed
  aside command i h slot haims := by
    rw [(hs.perform command).read_eq, hs.read_eq, revise_of_not_aims haims]
  copied i h j k hpos hlt hpos' hlt' hsame := by
    have hfault := (BankCommand.fault?_copy hpos hlt hpos' hlt').trans (if_pos hsame)
    refine ⟨by rw [hs.answer_eq, BankCommand.answer, hfault]; rfl, ?_⟩
    rw [(hs.perform _).words_eq hpos' hlt', hs.words_eq hpos hlt, Content.page, Content.page, hsame]
    refine List.map_congr_left fun slot _ => ?_
    simp only [BankCommand.revise, hfault, BankCommand.stores, and_self, ↓reduceIte,
      Option.getD_some]
  mismatched i h j k hpos hlt hpos' hlt' hne := by
    rw [hs.answer_eq, BankCommand.answer, BankCommand.fault?_copy hpos hlt hpos' hlt', if_neg hne]
  unfit i h slot target hunfit := by
    obtain ⟨fault, hfault⟩ := BankCommand.exists_fault_of_unfit hunfit
    exact ⟨fault, by rw [hs.answer_eq, BankCommand.answer, hfault]⟩
  fit i h slot target hpos hlt hslot hfit := by
    have hgreatest : target ≤ Handle.greatest := Nat.le_of_lt_succ hfit
    have hfault := BankCommand.fault?_of_fit hpos hlt hslot hgreatest
    refine ⟨by rw [hs.answer_eq, BankCommand.answer, hfault]; rfl, target.toWord, ?_,
      Handle.isReference_toWord hgreatest, Handle.toHandle_toWord hgreatest⟩
    rw [(hs.perform _).read_of_lt hpos hlt hslot]
    simp only [BankCommand.revise, hfault, BankCommand.stores, CellCommand.stores, and_self,
      ↓reduceIte, Option.getD_some]
    rfl
  reference i h slot target hpos hlt hslot hstored := by
    have hgreatest := fits_of_lastStored hstored
    refine ⟨target.toWord, ?_, Handle.isReference_toWord hgreatest,
      Handle.toHandle_toWord hgreatest⟩
    rw [hs.read_of_lt hpos hlt hslot, hstored]
    rfl
  references i h hpos hlt := by
    refine ⟨_, ?_, Word.map_filterMap_target? _⟩
    rw [hs.answer_eq, BankCommand.answer, BankCommand.fault?,
      handleFault?_eq_none.2 ⟨hpos, hlt⟩, hs.words_eq hpos hlt]
    rfl

/-- New heaps of any sizes and widths are faithful after any requests. -/
theorem faithful_after (size width : ι → Nat) (past : List (BankCommand ι)) :
    Faithful (fun i => max (size i) 1) width past ((fresh size width).after past) := by
  refine Shows.faithful ?_
  induction past with
  | nil => exact shows_fresh
  | cons command past ih => exact ih.perform command

/-- A copy is told from what its source held then, whatever becomes of the source. -/
example : lastStored (fun _ : Bool => 3) (fun _ => 1)
    [.cell false 1 .clear, .copy false 1 true 2, .cell false 1 (.setData 0 (-5))] true 2 0 =
      .data (-5) := rfl

end Bank

end RootedHeap
