import RootedHeap.Proofs.LinkedLists
import RootedHeap.Proofs.Crowds
import RootedHeap.Proofs.GrantedOperations

/-!
A frame on the only stack of a machine. What it holds is what the collector starts from, so it can
tell from its own doings what is in reach. `Lone` says so, and one lemma for each operation says
what the frame holds after it and what has become of the heap; `Linked` says that the frame holds an
object and that another hangs on the link of that one, whether it is held too or not.
-/

namespace RootedHeap

open Workload (tagSlot linkSlot)

namespace Session

variable {A : Type} {s s' : Session A} {t : Thread} {entry : Env} {held : List Handle}
  {a b o object target : Handle} {slot width : Nat} {word : Word}

/-! ### A frame on the only stack -/

/-- Whether a frame at work holds these objects, on the only registered stack of a well-formed
session. -/
structure Lone [Allocator A] [LawfulCollector A] (width : Nat) (entry : Env) (held : List Handle)
    (s : Session A) : Prop extends s.WellFormed width where
  aloneHolding : s.AloneHolding entry held
  only : s.calls.registered = [entry.stack]

section Lone

variable [Allocator A] [LawfulCollector A]

namespace Lone

/-- The roots are what the frame holds. -/
theorem roots (hs : s.Lone width entry held) : s.calls.roots = held := by
  rw [CallStacks.roots, hs.only, List.flatMap_cons, List.flatMap_nil, List.append_nil]
  exact hs.aloneHolding.stackRoots

theorem mem_frame (hs : s.Lone width entry held) (hobject : object ∈ held) :
    object ∈ (s.machine.frame entry).handles :=
  hs.aloneHolding.holds.symm ▸ hobject

theorem contains (hs : s.Lone width entry held) (hobject : object ∈ held) :
    s.machine.heap.contains object = true :=
  hs.contains_of_held (hs.mem_frame hobject)

theorem valid (hs : s.Lone width entry held) (hcell : s.machine.heap.contains o = true) :
    Heap.Valid o := by
  obtain ⟨hpos, hlt⟩ := Heap.contains_iff.1 hcell
  exact ⟨hpos, Nat.le_of_lt_succ (hlt.trans_le hs.small)⟩

/-- The frame is left as it was. -/
theorem of_same (hs : s.Lone width entry held) (hformed : s'.WellFormed width)
    (hledger : s'.ledger = s.ledger) (hcalls : s'.calls = s.calls) : s'.Lone width entry held :=
  ⟨hformed, hs.aloneHolding.of_same hledger hcalls, hcalls ▸ hs.only⟩

/-- The frame is edited. -/
theorem of_change (hs : s.Lone width entry held) (hformed : s'.WellFormed width)
    {edit : Frame → Frame} (hledger : s'.ledger = s.ledger)
    (hcalls : s'.calls = s.calls.change entry.frame edit)
    (hedit : (edit (s.machine.frame entry)).state = (s.machine.frame entry).state) :
    s'.Lone width entry (edit (s.machine.frame entry)).handles :=
  ⟨hformed, hs.aloneHolding.of_change hledger hcalls hedit, by rw [hcalls]; exact hs.only⟩

/-- A new object, if there is memory: a cell that was out of reach, cleared. -/
theorem newObject (hs : s.Lone width entry held)
    (hroom : s.reply t (.newObject entry) ≠ .error .outOfMemory) :
    ∃ o, s.reply t (.newObject entry) = .ok o ∧ s.machine.heap.contains o = true ∧
      ¬ s.machine.heap.Reaches held o ∧
      (s.after t (.newObject entry)).Lone width entry (held ++ [o]) ∧
      (s.after t (.newObject entry)).machine.heap = s.machine.heap.clear o := by
  rcases hs.newObject_granted (t := t) hs.aloneHolding.active with
    ⟨o, hreply, hcell, hunreached, hcalls, hheap⟩ | ⟨hreply, -, -⟩
  · have hformed : (s.after t (.newObject entry)).WellFormed width :=
      hs.toWellFormed.after hs.aloneHolding.known rfl
    have hlone := hs.of_change hformed rfl hcalls Frame.state_insert
    rw [hs.roots] at hunreached
    rw [Frame.handles_insert, hs.aloneHolding.holds,
      if_neg fun hheld => hunreached (.root hheld)] at hlone
    exact ⟨o, hreply, hcell, hunreached, hlone, hheap⟩
  · exact absurd hreply hroom

/-- A request for which there is no memory is no business of the frame. -/
theorem newObject_out (hs : s.Lone width entry held)
    (hout : s.reply t (.newObject entry) = .error .outOfMemory) :
    (s.after t (.newObject entry)).Lone width entry held ∧
      (s.after t (.newObject entry)).machine.heap = s.machine.heap := by
  rcases hs.newObject_granted (t := t) hs.aloneHolding.active with
    ⟨o, hreply, -⟩ | ⟨-, hcalls, hheap⟩
  · cases hout.symm.trans hreply
  · have hformed : (s.after t (.newObject entry)).WellFormed width :=
      hs.toWellFormed.after hs.aloneHolding.known rfl
    exact ⟨hs.of_same hformed rfl hcalls, hheap⟩

theorem setData (hs : s.Lone width entry held) (hobject : object ∈ held) (hslot : slot < width)
    (hword : word < 0) :
    s.reply t (.setData entry object slot word) = .ok () ∧
      (s.after t (.setData entry object slot word)).Lone width entry held ∧
      (s.after t (.setData entry object slot word)).machine.heap =
        s.machine.heap.putWord object slot word := by
  obtain ⟨hreply, hcalls, hheap⟩ :=
    hs.setData_granted (t := t) hs.aloneHolding.active (hs.mem_frame hobject) hslot hword
  have hformed : (s.after t (.setData entry object slot word)).WellFormed width :=
    hs.toWellFormed.after hs.aloneHolding.known rfl
  exact ⟨hreply, hs.of_same hformed rfl hcalls, hheap⟩

theorem setReference (hs : s.Lone width entry held) (hobject : object ∈ held)
    (htarget : target ∈ held) (hslot : slot < width) :
    s.reply t (.setReference entry object slot target) = .ok () ∧
      (s.after t (.setReference entry object slot target)).Lone width entry held ∧
      (s.after t (.setReference entry object slot target)).machine.heap =
        s.machine.heap.putWord object slot target.toWord := by
  obtain ⟨hreply, hcalls, hheap⟩ := hs.setReference_granted (t := t) hs.aloneHolding.active
    (hs.mem_frame hobject) (hs.mem_frame htarget) hslot
  have hformed : (s.after t (.setReference entry object slot target)).WellFormed width :=
    hs.toWellFormed.after hs.aloneHolding.known rfl
  exact ⟨hreply, hs.of_same hformed rfl hcalls, hheap⟩

/-- A link that is followed: what it names is held, if it was not. -/
theorem getReference (hs : s.Lone width entry held)
    (hcheck : s.machine.referenceAt entry object slot = .ok target) (hnull : target ≠ Handle.null) :
    s.reply t (.getReference entry object slot) = .ok target ∧
      (s.after t (.getReference entry object slot)).Lone width entry
        (if target ∈ held then held else held ++ [target]) ∧
      (s.after t (.getReference entry object slot)).machine.heap = s.machine.heap := by
  obtain ⟨hreply, hcalls, hheap⟩ := getReference_granted (t := t) hcheck
  rw [if_neg hnull] at hcalls
  have hformed : (s.after t (.getReference entry object slot)).WellFormed width :=
    hs.toWellFormed.after hs.aloneHolding.known rfl
  have hlone := hs.of_change hformed rfl hcalls Frame.state_insert
  rw [Frame.handles_insert, hs.aloneHolding.holds] at hlone
  exact ⟨hreply, hlone, hheap⟩

theorem release (hs : s.Lone width entry held) (hobject : object ∈ held) :
    s.reply t (.release entry object) = .ok () ∧
      (s.after t (.release entry object)).Lone width entry (held.erase object) ∧
      (s.after t (.release entry object)).machine.heap = s.machine.heap := by
  obtain ⟨hreply, hcalls, hheap⟩ :=
    release_granted (t := t) hs.aloneHolding.active (hs.mem_frame hobject)
  have hformed : (s.after t (.release entry object)).WellFormed width :=
    hs.toWellFormed.after hs.aloneHolding.known rfl
  have hlone := hs.of_change hformed rfl hcalls Frame.state_remove
  rw [Frame.handles_remove, hs.aloneHolding.holds] at hlone
  exact ⟨hreply, hlone, hheap⟩

/-- A collection is no business of the frame. -/
theorem collect (hs : s.Lone width entry held) :
    (s.after t .collect).Lone width entry held ∧
      (s.after t .collect).machine.heap = s.machine.heap := by
  have hformed : (s.after t .collect).WellFormed width := hs.toWellFormed.after trivial rfl
  exact ⟨hs.of_same hformed rfl rfl, hs.toSound.collect.2⟩

/-- A line in the log is no business of the frame. -/
theorem note (hs : s.Lone width entry held) {level : Level} {text : String} :
    (s.after t (.note level text)).Lone width entry held :=
  hs.of_same (hs.toWellFormed.after trivial rfl) rfl rfl

/-- A run that begins while no stack is registered. -/
theorem of_begun {name : String} {args : List Word} (hs : s.WellFormed width)
    (hnone : s.calls.registered = []) (hbegun : s.reply t (.beginRun name args) = .ok entry) :
    (s.after t (.beginRun name args)).Lone width entry [] := by
  obtain ⟨rfl, hcalls, -⟩ := beginRun_ok hbegun
  refine ⟨hs.after trivial rfl, aloneHolding_begun hbegun, ?_⟩
  rw [hcalls, CallStacks.registered_opened]
  show s.calls.registered ++ [s.calls.known.size] = [s.calls.known.size]
  rw [hnone]
  rfl

end Lone

/-! ### One object that hangs on another -/

/-- Whether a lone frame holds an object, and another hangs on its link. -/
structure Linked (width : Nat) (entry : Env) (a b : Handle) (held : List Handle) (s : Session A) :
    Prop extends s.Lone width entry held where
  holds : a ∈ held
  valid : Heap.Valid b
  holder : s.machine.heap.ListCell a (-1) b
  kept : s.machine.heap.ListCell b (-2) Handle.null

namespace Linked

theorem mem_references_iff (hs : s.Linked width entry a b held) :
    o ∈ s.machine.heap.references a ↔ o = b := by
  rw [hs.holder.mem_references_iff (by decide) hs.valid.2]
  exact and_iff_right hs.valid.1

theorem reaches (hs : s.Linked width entry a b held) : s.machine.heap.Reaches held b :=
  .link (.root hs.holds) (hs.mem_references_iff.2 rfl)

/-- A frame that holds the one object reaches the two. -/
theorem reaches_iff (hs : s.Linked width entry a b [a]) :
    s.machine.heap.Reaches [a] o ↔ o = a ∨ o = b := by
  constructor
  · intro hreach
    induction hreach with
    | root hmem => exact .inl (List.mem_singleton.1 hmem)
    | link _ hlink ih =>
      rcases ih with rfl | rfl
      · exact .inr (hs.mem_references_iff.1 hlink)
      · exact absurd rfl ((hs.kept.mem_references_iff (by decide) (Nat.zero_le _)).1 hlink).1
  · rintro (rfl | rfl)
    · exact .root (List.mem_singleton.2 rfl)
    · exact hs.reaches

/-- The two are left alone, and the frame may hold more. -/
theorem of_words {held' : List Handle} (hs : s.Linked width entry a b held)
    (hlone : s'.Lone width entry held') (hsub : held ⊆ held')
    (ha : s'.machine.heap.words a = s.machine.heap.words a)
    (hb : s'.machine.heap.words b = s.machine.heap.words b) : s'.Linked width entry a b held' :=
  ⟨hlone, hsub hs.holds, hs.valid, hs.holder.of_words ha, hs.kept.of_words hb⟩

/-- A new object is none of the two. -/
theorem newObject (hs : s.Linked width entry a b held)
    (hreply : s.reply t (.newObject entry) = .ok o) :
    o ≠ a ∧ o ≠ b ∧ (s.after t (.newObject entry)).Linked width entry a b (held ++ [o]) := by
  have hroom : s.reply t (.newObject entry) ≠ .error .outOfMemory := hreply ▸ nofun
  obtain ⟨o', hreply', -, hunreached, hlone, hheap⟩ := hs.toLone.newObject hroom
  obtain rfl := Except.ok.inj (hreply.symm.trans hreply')
  have ha : o ≠ a := fun heq => hunreached (heq ▸ .root hs.holds)
  have hb : o ≠ b := fun heq => hunreached (heq ▸ hs.reaches)
  refine ⟨ha, hb, hs.of_words hlone (List.subset_append_left ..) ?_ ?_⟩
  · rw [hheap, Heap.words_clear, if_neg ha]
  · rw [hheap, Heap.words_clear, if_neg hb]

/-- Another object is given a tag. -/
theorem setData (hs : s.Linked width entry a b held) (hobject : object ∈ held) (ha : object ≠ a)
    (hb : object ≠ b) (hslot : slot < width) (hword : word < 0) :
    s.reply t (.setData entry object slot word) = .ok () ∧
      (s.after t (.setData entry object slot word)).Linked width entry a b held := by
  obtain ⟨hreply, hlone, hheap⟩ := hs.toLone.setData (t := t) hobject hslot hword
  refine ⟨hreply, hs.of_words hlone (List.Subset.refl _) ?_ ?_⟩
  · rw [hheap, Heap.words_putWord, if_neg ha]
  · rw [hheap, Heap.words_putWord, if_neg hb]

theorem read_link (hs : s.Linked width entry a b held) :
    s.machine.heap.read a linkSlot = .ok b.toWord := by
  obtain ⟨rest, hwords, -⟩ := hs.holder
  rw [Heap.read_eq (hs.contains hs.holds), hwords]
  rfl

/-- The link is followed. -/
theorem getReference (hs : s.Linked width entry a b held) :
    s.reply t (.getReference entry a linkSlot) = .ok b ∧
      (s.after t (.getReference entry a linkSlot)).Linked width entry a b
        (if b ∈ held then held else held ++ [b]) ∧
      (s.after t (.getReference entry a linkSlot)).machine.heap = s.machine.heap := by
  have htarget : b.toWord.target? = some b := by
    rw [Handle.target?_toWord hs.valid.2]
    exact if_neg hs.valid.1
  have hcheck :=
    hs.referenceAt_eq hs.aloneHolding.active (hs.mem_frame hs.holds) hs.read_link htarget
  obtain ⟨hreply, hlone, hheap⟩ := hs.toLone.getReference (t := t) hcheck hs.valid.1
  refine ⟨hreply, hs.of_words hlone ?_ (by rw [hheap]) (by rw [hheap]), hheap⟩
  split
  · exact List.Subset.refl _
  · exact List.subset_append_left ..

/-- What leaves the frame and the heap alone leaves the two linked. -/
theorem of_same (hs : s.Linked width entry a b held)
    (hsame : s'.Lone width entry held ∧ s'.machine.heap = s.machine.heap) :
    s'.Linked width entry a b held :=
  hs.of_words hsame.1 (List.Subset.refl _) (by rw [hsame.2]) (by rw [hsame.2])

end Linked

end Lone

end Session

end RootedHeap
