import RootedHeap.Proofs.LinkedLists
import RootedHeap.Proofs.WorkingFrames

/-!
A working frame and its list of cells. The frame makes a cell and puts it in front, hands the
list over to its host, walks along the links and lets cells go. Each operation is granted, and one
lemma for each says what the frame holds after it and what is left of the list.
-/

namespace RootedHeap

open Workload (tagSlot linkSlot)

namespace Session

variable {A : Type} {s s' : Session A} {t : Thread} {env who caller : Env} {host : Option Env}
  {base old tag : Word} {new : Option (Handle × Word)} {cells rest held held' : List Handle}
  {o object : Handle} {width : Nat} {name : String} {args : List Word}

/-- Whether a working frame has a list of these cells, and a new one if there is one. -/
structure HoldsList (env : Env) (host : Option Env) (who : Env) (base : Word)
    (new : Option (Handle × Word)) (cells held : List Handle) (s : Session A) : Prop
    extends s.WorkingFrame env host who held where
  listHeld : s.machine.heap.ListHeld base new cells held

namespace HoldsList

theorem unnoticed (h : s.HoldsList env host who base new cells held) (hun : s.Unnoticed env s') :
    s'.HoldsList env host who base new cells held := by
  have hwords := hun.words
  rw [h.stackRoots] at hwords
  exact ⟨h.toWorkingFrame.unnoticed hun, h.listHeld.of_words hwords⟩

/-- All that the stack reaches is the list and the new cell. -/
theorem mem_of_reaches (h : s.HoldsList env host who base new cells held)
    (hreach : s.machine.heap.Reaches (s.calls.stackRoots env.stack) o) :
    o ∈ new.toList.map Prod.fst ++ cells := by
  rw [h.stackRoots] at hreach
  rcases h.listHeld.mem_of_reaches hreach with hcell | ⟨tag, rfl⟩
  · exact List.mem_append_right _ hcell
  · exact List.mem_append_left _ (List.mem_singleton.2 rfl)

theorem of_aloneHolding (h : s.AloneHolding env []) (hbase : base < 0) :
    s.HoldsList env none env base none [] [] :=
  ⟨.of_aloneHolding h, .nil hbase⟩

/-- A frame that holds nothing works on no list, so it may work on a list with any tags next. -/
theorem restart (h : s.HoldsList env host who base new cells []) (hbase : tag < 0) :
    s.HoldsList env host who tag none [] [] :=
  ⟨h.toWorkingFrame, .nil hbase⟩

/-- A new cell with the first tag is a list by itself. -/
theorem single (h : s.HoldsList env host who base (some (o, tag)) [] held)
    (htag : base.below? 0 = some tag) : s.HoldsList env host who base none [o] held :=
  ⟨h.toWorkingFrame, h.listHeld.single htag⟩

variable [Allocator A] [LawfulCollector A]

/-! ### A cell in front of the list -/

/-- A frame that asks for an object gets a new cell, if there is memory. -/
theorem newObject (h : s.HoldsList env host who base none cells held) (hs : s.WellFormed width)
    (hwidth : 2 ≤ width) (hroom : s.reply t (.newObject who) ≠ .error .outOfMemory) :
    ∃ o, s.reply t (.newObject who) = .ok o ∧
      (s.after t (.newObject who)).HoldsList env host who base (some (o, 0)) cells
        (held ++ [o]) := by
  have hledger : (s.after t (.newObject who)).ledger = s.ledger := rfl
  rcases hs.newObject_granted (t := t) (h.active hs) with
    ⟨o, hreply, hcell, hunreached, hcalls, hheap⟩ | ⟨hreply, -, -⟩
  · have hframe := h.toWorkingFrame.of_change (h.lt_size hs) hledger hcalls
    have hfree : ∀ {k}, s.machine.heap.Reaches held k → s.machine.heap.Reaches s.calls.roots k :=
      fun hk => hk.mono fun r hr => hs.mem_roots (f := who.frame) (h.holds.symm ▸ hr)
    have hnew : o ∉ (s.machine.frame who).handles := fun hheld =>
      hunreached (.root (hs.mem_roots hheld))
    rw [Frame.handles_insert, if_neg hnew, h.holds] at hframe
    have hvalid : Heap.Valid o := by
      obtain ⟨hpos, hlt⟩ := Heap.contains_iff.1 hcell
      exact ⟨hpos, Nat.le_of_lt_succ (hlt.trans_le hs.small)⟩
    refine ⟨o, hreply, hframe, ?_⟩
    rw [hheap]
    exact h.listHeld.clear hvalid (fun hreach => hunreached (hfree hreach))
      ((hs.wide o hcell).symm ▸ hwidth)
  · exact absurd hreply hroom

/-- The new cell is given its tag. -/
theorem setData (h : s.HoldsList env host who base (some (o, old)) cells held)
    (hs : s.WellFormed width) (hwidth : 2 ≤ width) (htag : tag < 0) :
    s.reply t (.setData who o tagSlot tag) = .ok () ∧
      (s.after t (.setData who o tagSlot tag)).HoldsList env host who base (some (o, tag)) cells
        held := by
  have hheld := (h.listHeld.fresh o old rfl).1
  have hslot : tagSlot < width := Nat.lt_of_lt_of_le Nat.zero_lt_two hwidth
  obtain ⟨hreply, hcalls, hheap⟩ := hs.setData_granted (t := t) (h.active hs)
    (h.holds.symm ▸ hheld) hslot htag
  refine ⟨hreply, h.toWorkingFrame.of_same rfl hcalls, ?_⟩
  rw [hheap]
  exact h.listHeld.putTag (Int64.le_of_lt htag)

/-- The new cell is linked to the head of the list. -/
theorem setReference (h : s.HoldsList env host who base (some (o, tag)) (object :: rest) held)
    (hs : s.WellFormed width) (hwidth : 2 ≤ width)
    (htag : base.below? (object :: rest).length = some tag) :
    s.reply t (.setReference who o linkSlot object) = .ok () ∧
      (s.after t (.setReference who o linkSlot object)).HoldsList env host who base none
        (o :: object :: rest) held := by
  have hheld := (h.listHeld.fresh o tag rfl).1
  have htarget : object ∈ held := h.listHeld.head object rfl
  have hslot : linkSlot < width := hwidth
  obtain ⟨hreply, hcalls, hheap⟩ := hs.setReference_granted (t := t) (h.active hs)
    (h.holds.symm ▸ hheld) (h.holds.symm ▸ htarget) hslot
  refine ⟨hreply, h.toWorkingFrame.of_same rfl hcalls, ?_⟩
  rw [hheap]
  exact h.listHeld.putLink htag

/-! ### Letting go -/

theorem workingFrame_release (h : s.HoldsList env host who base new cells held)
    (hs : s.WellFormed width) (hobject : object ∈ held) :
    s.reply t (.release who object) = .ok () ∧
      (s.after t (.release who object)).WorkingFrame env host who (held.erase object) ∧
      (s.after t (.release who object)).machine.heap = s.machine.heap := by
  have hledger : (s.after t (.release who object)).ledger = s.ledger := rfl
  obtain ⟨hreply, hcalls, hheap⟩ := release_granted (t := t) (h.active hs)
    (h.holds.symm ▸ hobject)
  have hframe := h.toWorkingFrame.of_change (h.lt_size hs) hledger hcalls
  rw [Frame.handles_remove, h.holds] at hframe
  exact ⟨hreply, hframe, hheap⟩

/-- An object is let go while the head of the list is still held. -/
theorem release (h : s.HoldsList env host who base none cells held) (hs : s.WellFormed width)
    (hobject : object ∈ held) (hhead : ∀ x ∈ cells.head?, x ∈ held.erase object) :
    s.reply t (.release who object) = .ok () ∧
      (s.after t (.release who object)).HoldsList env host who base none cells
        (held.erase object) := by
  obtain ⟨hreply, hframe, hheap⟩ := h.workingFrame_release (t := t) hs hobject
  refine ⟨hreply, hframe, ?_⟩
  rw [hheap]
  exact h.listHeld.mono hhead fun x hx =>
    (h.listHeld.only x (List.mem_of_mem_erase hx)).resolve_right fun ⟨_, hnone⟩ => nomatch hnone

/-- The only object that is held is let go, and the list with it. -/
theorem releaseLast (h : s.HoldsList env host who base none cells [object])
    (hs : s.WellFormed width) :
    s.reply t (.release who object) = .ok () ∧
      (s.after t (.release who object)).HoldsList env host who base none [] [] := by
  obtain ⟨hreply, hframe, -⟩ := h.workingFrame_release (t := t) hs (List.mem_singleton.2 rfl)
  rw [List.erase_cons_head] at hframe
  exact ⟨hreply, hframe, .nil h.listHeld.negative⟩

/-! ### Along the list -/

/-- The tag of a cell that is held tells how many cells come after it. -/
theorem getData (h : s.HoldsList env host who base none cells held) (hs : s.WellFormed width)
    (hobject : object ∈ held) (hsuffix : object :: rest <:+ cells)
    (htag : base.below? rest.length = some tag) :
    s.reply t (.getData who object tagSlot) = .ok tag ∧
      (s.after t (.getData who object tagSlot)).HoldsList env host who base none cells held := by
  obtain ⟨-, -, ⟨tag', htag', slots, hwords, -⟩, -⟩ := h.listHeld.chain.of_suffix hsuffix
  obtain rfl := Option.some.inj (htag'.symm.trans htag)
  have hread : (s.machine.heap.words object)[tagSlot]? = some tag' := by
    rw [hwords]
    rfl
  obtain ⟨hreply, hcalls, hheap⟩ := hs.getData_granted (t := t) (h.active hs)
    (h.holds.symm ▸ hobject) hread (Word.below_neg h.listHeld.negative htag)
  refine ⟨hreply, h.toWorkingFrame.of_same rfl hcalls, ?_⟩
  rw [hheap]
  exact h.listHeld

/-- A cell that is held is linked to the one after it, or to null. -/
theorem referenceAt (h : s.HoldsList env host who base none cells held) (hs : s.WellFormed width)
    (hobject : object ∈ held) (hsuffix : object :: rest <:+ cells) :
    s.machine.referenceAt who object linkSlot = .ok (rest.headD Handle.null) := by
  have hheld : object ∈ (s.machine.frame who).handles := h.holds.symm ▸ hobject
  obtain ⟨-, -, ⟨tag, -, slots, hwords, -⟩, hrest⟩ := h.listHeld.chain.of_suffix hsuffix
  have hread : s.machine.heap.read object linkSlot = .ok (rest.headD Handle.null).toWord := by
    rw [Heap.read_eq (hs.contains_of_held hheld), hwords]
    rfl
  cases rest with
  | nil => exact Machine.referenceAt_null (h.active hs) hheld hread rfl (by decide)
  | cons x rest =>
    have htarget : x.toWord.target? = some x := by
      rw [Handle.target?_toWord hrest.1.2]
      exact if_neg hrest.1.1
    exact hs.referenceAt_eq (h.active hs) hheld hread htarget

/-- The next cell of the list is held, if there is one. -/
theorem getReference (h : s.HoldsList env host who base none cells held) (hs : s.WellFormed width)
    (hobject : object ∈ held) (hsuffix : object :: rest <:+ cells)
    (hfresh : ∀ x ∈ rest.head?, x ∉ held) :
    s.reply t (.getReference who object linkSlot) = .ok (rest.headD Handle.null) ∧
      (s.after t (.getReference who object linkSlot)).HoldsList env host who base none cells
        (held ++ rest.head?.toList) := by
  have hledger : (s.after t (.getReference who object linkSlot)).ledger = s.ledger := rfl
  obtain ⟨hreply, hcalls, hheap⟩ := getReference_granted (t := t)
    (h.referenceAt hs hobject hsuffix)
  refine ⟨hreply, ?_⟩
  cases rest with
  | nil =>
    rw [List.head?_nil, Option.toList_none, List.append_nil]
    refine ⟨h.toWorkingFrame.of_same rfl hcalls, ?_⟩
    rw [hheap]
    exact h.listHeld
  | cons x rest =>
    have hx : x ∈ cells := hsuffix.subset (List.mem_cons_of_mem _ List.mem_cons_self)
    have hnull : x ≠ Handle.null := (h.listHeld.chain.valid hx).1
    rw [List.headD_cons, if_neg hnull] at hcalls
    have hframe := h.toWorkingFrame.of_change (h.lt_size hs) hledger hcalls
    rw [Frame.handles_insert, h.holds, if_neg (hfresh x rfl)] at hframe
    refine ⟨hframe, ?_⟩
    rw [hheap]
    exact h.listHeld.follow hx

/-! ### Into a call and out of it -/

/-- A frame that holds nothing calls another, which starts with no list. -/
theorem beginCall (h : s.HoldsList env none who base new cells []) (hs : s.WellFormed width)
    (hdepth : 2 ≤ s.machine.config.maxCallDepth) (hargs : args.filterMap Word.target? = []) :
    ∃ callee, s.reply t (.beginCall who name args) = .ok callee ∧
      (s.after t (.beginCall who name args)).HoldsList env (some who) callee base none [] [] := by
  obtain ⟨callee, hreply, hframe⟩ := h.toWorkingFrame.beginCall hs t name hdepth hargs
  exact ⟨callee, hreply, hframe, .nil h.listHeld.negative⟩

/-- A frame that holds the head of its list returns that, and its host holds the list. -/
theorem endCall (h : s.HoldsList env (some caller) who base none cells cells.head?.toList)
    (hs : s.WellFormed width) :
    s.reply t (.endCall caller who (.ok (cells.headD Handle.null).toWord)) =
        .ok (cells.headD Handle.null).toWord ∧
      (s.after t (.endCall caller who (.ok (cells.headD Handle.null).toWord))).HoldsList env none
        caller base none cells cells.head?.toList := by
  have htarget : (cells.headD Handle.null).toWord.target? = cells.head? := by
    rw [Handle.target?_toWord h.listHeld.chain.headD_le]
    cases cells with
    | nil => rfl
    | cons x rest => exact if_neg h.listHeld.chain.1.1
  obtain ⟨hreply, hframe⟩ := h.toWorkingFrame.endCall (t := t) hs fun o ho => by
    rw [htarget] at ho
    exact Option.mem_toList.2 ho
  rw [htarget] at hframe
  have hpermits : s.ledger.permits
      (.endCall caller who (.ok (cells.headD Handle.null).toWord)) := (h.idle caller rfl).2.2
  refine ⟨hreply, hframe, ?_⟩
  rw [(hs.arena hpermits rfl).2]
  exact h.listHeld

end HoldsList

end Session

end RootedHeap
