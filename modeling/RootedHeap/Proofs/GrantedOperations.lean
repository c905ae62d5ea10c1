import RootedHeap.Proofs.ProgramLogic

/-!
Operations that are granted. A frame that is at work may do with the objects that it holds what the
operations of a frame are for: no check stands in its way, and what each leaves of the machine is
told here once, for all programs that are followed step by step.
-/

namespace RootedHeap

namespace Machine

variable {A : Type} {m : Machine A} {env : Env} {object target : Handle} {slot : Nat} {word : Word}

/-! ### Checks that pass -/

theorem checkActive_of_active (hactive : (m.frame env).state = .active) :
    m.checkActive env = .ok () :=
  checkActive_eq_ok.2 hactive

theorem checkHeld_of_mem (hheld : object ∈ (m.frame env).handles) :
    m.checkHeld env object = .ok () :=
  checkHeld_eq_ok.2 hheld

/-- A frame that holds an object may store data in its slots. -/
theorem storableData_eq (hactive : (m.frame env).state = .active)
    (hheld : object ∈ (m.frame env).handles) (hcell : m.heap.contains object = true)
    (hslot : slot < (m.heap.words object).length) (hword : word < 0) :
    m.storableData env object slot word = .ok word := by
  rw [storableData, checkActive_of_active hactive, checkHeld_of_mem hheld,
    Heap.checkSlot_eq hcell, if_pos hslot]
  simp [hword, bind, Except.bind, pure, Except.pure]

/-- A frame that holds two objects may link one to the other. -/
theorem storableReference_eq (hactive : (m.frame env).state = .active)
    (hheld : object ∈ (m.frame env).handles) (hcell : m.heap.contains object = true)
    (hslot : slot < (m.heap.words object).length) (htarget : target ∈ (m.frame env).handles)
    (hsmall : target ≤ Handle.greatest) :
    m.storableReference env object slot target = .ok target.toWord := by
  have htargetCheck : m.checkTarget env target = .ok () := by
    unfold checkTarget
    split
    · rfl
    · exact checkHeld_of_mem htarget
  rw [storableReference, checkActive_of_active hactive, checkHeld_of_mem hheld, htargetCheck,
    Heap.referenceWord_eq hcell,
    Handle.store?_eq_some_iff.2 ⟨hsmall, rfl⟩]
  simp [hslot, bind, Except.bind]

/-- A frame reads data from an object that it holds. -/
theorem dataAt_eq (hactive : (m.frame env).state = .active)
    (hheld : object ∈ (m.frame env).handles) (hread : m.heap.read object slot = .ok word)
    (hword : word < 0) : m.dataAt env object slot = .ok word := by
  rw [dataAt, checkActive_of_active hactive, checkHeld_of_mem hheld, hread]
  simp [hword, bind, Except.bind, pure, Except.pure]

/-- A frame reads null from a slot of an object that it holds. -/
theorem referenceAt_null (hactive : (m.frame env).state = .active)
    (hheld : object ∈ (m.frame env).handles) (hread : m.heap.read object slot = .ok word)
    (htarget : word.target? = none) (hword : ¬ word < 0) :
    m.referenceAt env object slot = .ok Handle.null := by
  rw [referenceAt, checkActive_of_active hactive, checkHeld_of_mem hheld, hread]
  simp [htarget, hword, bind, Except.bind, pure, Except.pure]

/-! ### A frame at work is edited -/

theorem frame_edited {m' : Machine A} {edit : Frame → Frame}
    (hactive : (m.frame env).state = .active)
    (hcalls : m'.calls = m.calls.change env.frame edit) :
    m'.frame env = edit (m.frame env) := by
  have hlt : env.frame < m.calls.frames.size := CallStacks.lt_size_of_active hactive
  rw [frame, hcalls, CallStacks.frame_change hlt, if_pos rfl]
  rfl

end Machine

namespace Session

variable {A : Type} [Allocator A] {s : Session A} {t : Thread} {env : Env}
  {object target : Handle} {slot width : Nat} {word : Word}

/-! ### Operations and what they leave -/

theorem reply_getData :
    s.reply t (.getData env object slot) = s.machine.dataAt env object slot := by
  have heq : s.reply t (.getData env object slot) = (s.machine.getData t env object slot).1 := rfl
  rw [heq, Machine.getData_eq]
  cases s.machine.dataAt env object slot <;> rfl

/-- Reading data leaves everything as it was. -/
theorem after_getData : s.after t (.getData env object slot) = s := by
  have heq : s.after t (.getData env object slot) =
      ⟨{ s.world with machine := (s.machine.getData t env object slot).2 }, s.ledger⟩ := rfl
  rw [heq, Machine.getData_eq]
  cases s.machine.dataAt env object slot <;> rfl

theorem reply_getReference :
    s.reply t (.getReference env object slot) = s.machine.referenceAt env object slot := by
  have heq : s.reply t (.getReference env object slot) =
      (s.machine.getReference t env object slot).1 := rfl
  rw [heq, Machine.getReference_eq]
  cases s.machine.referenceAt env object slot <;> rfl

theorem reply_release :
    s.reply t (.release env object) = s.machine.releasable env object := by
  have heq : s.reply t (.release env object) = (s.machine.release t env object).1 := rfl
  rw [heq, Machine.release_eq]
  cases s.machine.releasable env object <;> rfl

/-- What a slot that may be followed names is held, unless it is null. -/
theorem getReference_granted (hcheck : s.machine.referenceAt env object slot = .ok target) :
    s.reply t (.getReference env object slot) = .ok target ∧
      (s.after t (.getReference env object slot)).calls =
        (if target = Handle.null then s.calls else s.calls.change env.frame (·.insert target)) ∧
      (s.after t (.getReference env object slot)).machine.heap = s.machine.heap := by
  have heq : s.machine.getReference t env object slot =
      (.ok target, if target = Handle.null then s.machine else s.machine.hold env target) := by
    rw [Machine.getReference_eq, hcheck, Machine.decided_ok]
    rfl
  have hmachine : (s.after t (.getReference env object slot)).machine =
      if target = Handle.null then s.machine else s.machine.hold env target :=
    congrArg Prod.snd heq
  refine ⟨congrArg Prod.fst heq, ?_⟩
  rw [calls, hmachine]
  split <;> exact ⟨rfl, rfl⟩

/-- An object that is held is let go. -/
theorem release_granted (hactive : (s.machine.frame env).state = .active)
    (hheld : object ∈ (s.machine.frame env).handles) :
    s.reply t (.release env object) = .ok () ∧
      (s.after t (.release env object)).calls = s.calls.change env.frame (·.remove object) ∧
      (s.after t (.release env object)).machine.heap = s.machine.heap := by
  have hcheck : s.machine.releasable env object = .ok () :=
    Machine.releasable_eq_ok.2 ⟨hactive, hheld⟩
  have heq : s.machine.release t env object =
      (.ok (), s.machine.changeFrame env (·.remove object)) := by
    rw [Machine.release_eq, hcheck, Machine.decided_ok, id]
  exact ⟨congrArg Prod.fst heq, congrArg (fun answered => answered.2.calls) heq,
    congrArg (fun answered => answered.2.heap) heq⟩

namespace WellFormed

variable [LawfulCollector A]

/-- What a frame holds are cells. -/
theorem contains_of_held (hs : s.WellFormed width)
    (hheld : object ∈ (s.machine.frame env).handles) : s.machine.heap.contains object = true :=
  hs.contains_of_reaches (.root (hs.mem_roots hheld))

/-- A frame at work that asks for an object gets a cell that nothing reaches, cleared, or there is
no memory. -/
theorem newObject_granted (hs : s.WellFormed width)
    (hactive : (s.machine.frame env).state = .active) :
    (∃ o, s.reply t (.newObject env) = .ok o ∧ s.machine.heap.contains o = true ∧
      ¬ s.machine.heap.Reaches s.calls.roots o ∧
      (s.after t (.newObject env)).calls = s.calls.change env.frame (·.insert o) ∧
      (s.after t (.newObject env)).machine.heap = s.machine.heap.clear o) ∨
    s.reply t (.newObject env) = .error .outOfMemory ∧
      (s.after t (.newObject env)).calls = s.calls ∧
      (s.after t (.newObject env)).machine.heap = s.machine.heap := by
  have hcreation := hs.toSound.newObject t env
  have hreply : s.reply t (.newObject env) = (s.machine.newObject t env).1 := rfl
  have hcalls : (s.after t (.newObject env)).calls = (s.machine.newObject t env).2.calls := rfl
  have hheap : (s.after t (.newObject env)).machine.heap = (s.machine.newObject t env).2.heap := rfl
  rw [hreply, hcalls, hheap]
  generalize s.machine.newObject t env = created at hcreation ⊢
  cases hcreation with
  | refused inactive => exact absurd hactive inactive
  | exhausted active calls config heap ready => exact .inr ⟨rfl, calls, heap⟩
  | @made o m active cell unreached calls config heap ready =>
    exact .inl ⟨o, rfl, cell, unreached, calls, heap⟩

/-- Data is stored in an object that is held. -/
theorem setData_granted (hs : s.WellFormed width) (hactive : (s.machine.frame env).state = .active)
    (hheld : object ∈ (s.machine.frame env).handles) (hslot : slot < width) (hword : word < 0) :
    s.reply t (.setData env object slot word) = .ok () ∧
      (s.after t (.setData env object slot word)).calls = s.calls ∧
      (s.after t (.setData env object slot word)).machine.heap =
        s.machine.heap.putWord object slot word := by
  have hcell := hs.contains_of_held hheld
  have hwide : slot < (s.machine.heap.words object).length := (hs.wide object hcell).symm ▸ hslot
  have heq : s.machine.setData t env object slot word =
      (.ok (), s.machine.putWord object slot word) := by
    rw [Machine.setData_eq, Machine.storableData_eq hactive hheld hcell hwide hword,
      Machine.decided_ok]
  exact ⟨congrArg Prod.fst heq, congrArg (fun answered => answered.2.calls) heq,
    congrArg (fun answered => answered.2.heap) heq⟩

/-- An object that is held is linked to another. -/
theorem setReference_granted (hs : s.WellFormed width)
    (hactive : (s.machine.frame env).state = .active)
    (hheld : object ∈ (s.machine.frame env).handles)
    (htarget : target ∈ (s.machine.frame env).handles) (hslot : slot < width) :
    s.reply t (.setReference env object slot target) = .ok () ∧
      (s.after t (.setReference env object slot target)).calls = s.calls ∧
      (s.after t (.setReference env object slot target)).machine.heap =
        s.machine.heap.putWord object slot target.toWord := by
  have hcell := hs.contains_of_held hheld
  have hwide : slot < (s.machine.heap.words object).length := (hs.wide object hcell).symm ▸ hslot
  have hsmall : target ≤ Handle.greatest :=
    Nat.le_of_lt_succ ((Heap.contains_iff.1 (hs.contains_of_held htarget)).2.trans_le hs.small)
  have heq : s.machine.setReference t env object slot target =
      (.ok (), s.machine.putWord object slot target.toWord) := by
    rw [Machine.setReference_eq, Machine.storableReference_eq hactive hheld hcell hwide htarget
      hsmall, Machine.decided_ok]
  exact ⟨congrArg Prod.fst heq, congrArg (fun answered => answered.2.calls) heq,
    congrArg (fun answered => answered.2.heap) heq⟩

/-- Data is read from an object that is held. -/
theorem getData_granted (hs : s.WellFormed width) (hactive : (s.machine.frame env).state = .active)
    (hheld : object ∈ (s.machine.frame env).handles)
    (hread : (s.machine.heap.words object)[slot]? = some word) (hword : word < 0) :
    s.reply t (.getData env object slot) = .ok word ∧
      (s.after t (.getData env object slot)).calls = s.calls ∧
      (s.after t (.getData env object slot)).machine.heap = s.machine.heap := by
  have hread : s.machine.heap.read object slot = .ok word := by
    rw [Heap.read_eq (hs.contains_of_held hheld), hread]
  have heq : s.machine.getData t env object slot = (.ok word, s.machine) := by
    rw [Machine.getData_eq, Machine.dataAt_eq hactive hheld hread hword, Machine.decided_ok]
    rfl
  exact ⟨congrArg Prod.fst heq, congrArg (fun answered => answered.2.calls) heq,
    congrArg (fun answered => answered.2.heap) heq⟩

end WellFormed

end Session

end RootedHeap
