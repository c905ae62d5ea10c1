import RootedHeap.Proofs.Safety

/-!
A held object reads back its last write. The moves of a session say what was last written to a slot:
the latest reference or data that some frame stored there since the object was made, or null. In a
session of orderly moves on a new heap, the words in the cells are these, so what an active frame
reads from an object that it holds is what was last written, whoever wrote it and however many cells
were given out and taken back in between.
-/

namespace RootedHeap

/-- What an answered action wrote to a slot of an object, if it did. A new object has null in all
its slots. -/
def Action.wrote (object : Handle) (slot : Nat) : (action : Action) → action.Reply → Option Written
  | .newObject _, .ok h => if h = object then some (.reference Handle.null) else none
  | .setReference _ o k target, .ok _ =>
    if o = object ∧ k = slot then some (.reference target) else none
  | .setData _ o k word, .ok _ => if o = object ∧ k = slot then some (.data word) else none
  | _, _ => none

/-- What was last written to a slot of an object, the latest move first; null if nothing was. -/
def lastWrite (past : List Move) (object : Handle) (slot : Nat) : Written :=
  (past.findSome? fun move => move.action.wrote object slot move.reply).getD
    (.reference Handle.null)

variable {past : List Move} {object : Handle} {slot width : Nat} {heap : Heap}

theorem lastWrite_cons {move : Move} :
    lastWrite (move :: past) object slot =
      (move.action.wrote object slot move.reply).getD (lastWrite past object slot) := by
  rw [lastWrite, List.findSome?_cons]
  cases move.action.wrote object slot move.reply <;> rfl

namespace Heap

/-- A slot of a cell after a word was put somewhere. -/
theorem getElem?_words_putWord {o : Handle} {k : Nat} {word : Word}
    (hslot : slot < (heap.words object).length) :
    ((heap.putWord o k word).words object)[slot]? =
      if o = object ∧ k = slot then some word else (heap.words object)[slot]? := by
  rw [words_putWord]
  by_cases ho : o = object
  · simp only [ho, ↓reduceIte, true_and, List.getElem?_set]
    by_cases hk : k = slot
    · simp only [hk, hslot, ↓reduceIte]
    · simp only [hk, ↓reduceIte]
  · simp only [ho, ↓reduceIte, false_and]

/-- After an answered action a slot holds what the action wrote there, else what it held. -/
theorem getElem?_words_after {action : Action} {reply : action.Reply}
    (hslot : slot < (heap.words object).length) :
    ((heap.after action reply).words object)[slot]? =
      match action.wrote object slot reply with
      | some written => some written.word
      | none => (heap.words object)[slot]? := by
  cases action with
  | newObject env =>
    cases reply with
    | error fault => rfl
    | ok h =>
      simp only [after, Action.wrote, words_clear]
      by_cases ho : h = object
      · simp only [ho, ↓reduceIte, List.getElem?_replicate, hslot]
        rfl
      · simp only [ho, ↓reduceIte]
  | setReference env o k target =>
    cases reply with
    | error fault => rfl
    | ok _ =>
      simp only [after, Action.wrote, getElem?_words_putWord hslot]
      split <;> rfl
  | setData env o k word =>
    cases reply with
    | error fault => rfl
    | ok _ =>
      simp only [after, Action.wrote, getElem?_words_putWord hslot]
      split <;> rfl
  | _ => rfl

end Heap

/-- The words in the cells are those last written. -/
structure Recorded (past : List Move) (width : Nat) (heap : Heap) : Prop where
  length : ∀ object, heap.contains object = true → (heap.words object).length = width
  word : ∀ object slot, heap.contains object = true → slot < width →
    (heap.words object)[slot]? = some (lastWrite past object slot).word
  storable : ∀ object slot, (lastWrite past object slot).Storable

namespace Recorded

/-- A new heap holds null everywhere. -/
theorem ofSize {size : Nat} : Recorded [] width (Heap.ofSize size width) where
  length object hcell := by rw [Heap.words_ofSize hcell, List.length_replicate]
  word object slot hcell hslot := by
    rw [Heap.words_ofSize hcell, List.getElem?_replicate, if_pos hslot]
    rfl
  storable object slot := Nat.zero_le _

/-- The words keep up with the moves. -/
theorem move (h : Recorded past width heap) {t : Thread} {action : Action} {reply : action.Reply}
    (hwrote : ∀ object slot written, action.wrote object slot reply = some written →
      written.Storable) :
    Recorded (⟨t, action, reply⟩ :: past) width (heap.after action reply) where
  length object hcell := by
    rw [Heap.contains_after] at hcell
    rw [Heap.length_words_after]
    exact h.length object hcell
  word object slot hcell hslot := by
    rw [Heap.contains_after] at hcell
    rw [Heap.getElem?_words_after (by rw [h.length object hcell]; exact hslot), lastWrite_cons]
    cases action.wrote object slot reply with
    | none => exact h.word object slot hcell hslot
    | some written => rfl
  storable object slot := by
    rw [lastWrite_cons]
    cases heq : action.wrote object slot reply with
    | none => exact h.storable object slot
    | some written => exact hwrote object slot written heq

end Recorded

namespace Session

/-- What an active frame reads from a slot of an object that it holds is what was last written
there: data is read as data, and a reference as a reference, which the frame then holds unless it is
null. -/
def ReadsBack {A : Type} (past : List Move) (width : Nat) (s : Session A) : Prop :=
  ∀ t env object slot, (s.machine.frame env).state = .active →
    object ∈ (s.machine.frame env).handles → slot < width →
    match lastWrite past object slot with
    | .data word =>
      (s.machine.getData t env object slot).1 = .ok word ∧
        ∃ reason, (s.machine.getReference t env object slot).1 = .error (.illegalReference reason)
    | .reference h =>
      (∃ reason, (s.machine.getData t env object slot).1 = .error (.illegalReference reason)) ∧
        (s.machine.getReference t env object slot).1 = .ok h ∧
        ((s.machine.getReference t env object slot).2.frame env).handles =
          if h = Handle.null ∨ h ∈ (s.machine.frame env).handles then (s.machine.frame env).handles
          else (s.machine.frame env).handles ++ [h]

variable {A : Type} [Allocator A] {start : Machine A} {s : Session A} {t : Thread}

/-- What an accepted action writes fits in a slot. -/
theorem storable_of_wrote {action : Action} {written : Written}
    (hwrote : action.wrote object slot (s.reply t action) = some written) : written.Storable := by
  cases action with
  | newObject env =>
    generalize s.reply t (.newObject env) = reply at hwrote
    cases reply with
    | error fault => cases hwrote
    | ok h =>
      simp only [Action.wrote] at hwrote
      split at hwrote
      · obtain rfl := Option.some.inj hwrote
        exact Nat.zero_le _
      · cases hwrote
  | setReference env o k target =>
    have hreply : s.reply t (.setReference env o k target) =
        (s.machine.setReference t env o k target).1 := rfl
    rw [hreply, Machine.setReference_eq] at hwrote
    cases hcheck : s.machine.storableReference env o k target with
    | error fault =>
      rw [hcheck] at hwrote
      cases hwrote
    | ok w =>
      rw [hcheck] at hwrote
      simp only [Machine.decided_ok, Action.wrote] at hwrote
      split at hwrote
      · obtain rfl := Option.some.inj hwrote
        exact (Machine.of_storableReference_eq_ok hcheck).2.2.2.1
      · cases hwrote
  | setData env o k word =>
    have hreply : s.reply t (.setData env o k word) = (s.machine.setData t env o k word).1 := rfl
    rw [hreply, Machine.setData_eq] at hwrote
    cases hcheck : s.machine.storableData env o k word with
    | error fault =>
      rw [hcheck] at hwrote
      cases hwrote
    | ok w =>
      rw [hcheck] at hwrote
      simp only [Machine.decided_ok, Action.wrote] at hwrote
      split at hwrote
      · obtain rfl := Option.some.inj hwrote
        exact (Machine.of_storableData_eq_ok hcheck).2.2.1
      · cases hwrote
  | _ => cases hwrote

variable [LawfulCollector A]

theorem Ran.recorded {size : Nat} {allocator : A} {config : MachineConfig}
    (hbuild : Machine.build t (.ofSize size width) allocator config = .ok start)
    (hran : Ran start past s) (horderly : Orderly past) :
    Recorded past width s.machine.heap := by
  induction hran with
  | opening =>
    have hheap : (Session.opening start).machine.heap = Heap.ofSize size width :=
      (ready_of_build hbuild).2
    rw [hheap]
    exact Recorded.ofSize
  | @move past s hran t action permitted ih =>
    have hpast : Orderly past := fun move hmove => horderly move (List.mem_cons_of_mem _ hmove)
    have hsound := hran.sound hbuild hpast
    rw [(hsound.arena permitted (horderly _ List.mem_cons_self)).2]
    exact (ih hpast).move fun _ _ _ => storable_of_wrote

/-- Over recorded words, a sound session reads back. -/
theorem Sound.reads_back (hs : s.Sound) (hrecorded : Recorded past width s.machine.heap) :
    s.ReadsBack past width := by
  intro t env object slot hactive hheld hslot
  have hcell := hs.contains_of_reaches (.root (hs.mem_roots hheld))
  have hword := hrecorded.word object slot hcell hslot
  have hstorable := hrecorded.storable object slot
  have hread : s.machine.heap.read object slot = .ok (lastWrite past object slot).word := by
    rw [Heap.read_eq hcell, hword]
  have hactiveCheck : s.machine.checkActive env = .ok () := Machine.checkActive_eq_ok.2 hactive
  have hheldCheck : s.machine.checkHeld env object = .ok () := Machine.checkHeld_eq_ok.2 hheld
  cases hlast : lastWrite past object slot with
  | data word =>
    rw [hlast] at hread hstorable
    have hneg : word < 0 := hstorable
    have hdata : s.machine.dataAt env object slot = .ok word := by
      rw [Machine.dataAt, hactiveCheck, hheldCheck, hread]
      exact if_pos hneg
    have hreference : s.machine.referenceAt env object slot =
        .error (.illegalReference (.otherKind object slot word)) := by
      rw [Machine.referenceAt, hactiveCheck, hheldCheck, hread]
      simp only [bind, Except.bind, Written.word, Word.target?_of_neg hneg, hneg, ↓reduceIte]
    dsimp only
    rw [Machine.getData_eq, hdata, Machine.getReference_eq, hreference]
    exact ⟨rfl, _, rfl⟩
  | reference h =>
    rw [hlast] at hread hstorable
    have hle : h ≤ Handle.greatest := hstorable
    have hnot := Handle.not_toWord_neg hle
    have hdata : s.machine.dataAt env object slot =
        .error (.illegalReference (.otherKind object slot h.toWord)) := by
      rw [Machine.dataAt, hactiveCheck, hheldCheck, hread]
      exact if_neg hnot
    have hreference : s.machine.referenceAt env object slot = .ok h := by
      by_cases h0 : h = Handle.null
      · subst h0
        rw [Machine.referenceAt, hactiveCheck, hheldCheck, hread]
        rfl
      · refine hs.referenceAt_eq hactive hheld hread ?_
        rw [Written.word, Handle.target?_toWord hle]
        exact if_neg h0
    dsimp only
    rw [Machine.getData_eq, hdata, Machine.getReference_eq, hreference]
    refine ⟨⟨_, rfl⟩, rfl, ?_⟩
    rw [Machine.decided_ok]
    by_cases h0 : h = Handle.null
    · simp only [h0, ↓reduceIte, true_or]
    · simp only [h0, ↓reduceIte, false_or]
      have hframe : (s.machine.hold env h).frame env = (s.machine.frame env).insert h :=
        (CallStacks.frame_change (CallStacks.lt_size_of_active hactive)).trans (if_pos rfl)
      rw [hframe, Frame.handles_insert]

/-- Over mark and sweep and over a counter, every session of orderly moves on a new heap reads back
its last writes. -/
theorem reads_back_of_orderly :
    (∀ (t : Thread) (size width : Nat) (allocator : MarkSweep) (config : MachineConfig)
      (start : Machine MarkSweep) (past : List Move) (s : Session MarkSweep),
      Machine.build t (.ofSize size width) allocator config = .ok start → Ran start past s →
        Orderly past → s.ReadsBack past width) ∧
    ∀ (t : Thread) (size width : Nat) (allocator : Bump) (config : MachineConfig)
      (start : Machine Bump) (past : List Move) (s : Session Bump),
      Machine.build t (.ofSize size width) allocator config = .ok start → Ran start past s →
        Orderly past → s.ReadsBack past width := by
  constructor
  · intro t size width allocator config start past s hbuild hran horderly
    exact (hran.sound hbuild horderly).reads_back (hran.recorded hbuild horderly)
  · intro t size width allocator config start past s hbuild hran horderly
    exact (hran.sound hbuild horderly).reads_back (hran.recorded hbuild horderly)

/-- What there is to see of the frame of the entry, and of what was last written to both slots of
the first object and to a slot of the last one. -/
def lastWrites (last : Handle) (past : List Move) (s : Session A) :
    FrameState × List Handle × Written × Written × Written :=
  ((s.machine.frame ⟨0, 0⟩).state, (s.machine.frame ⟨0, 0⟩).handles, lastWrite past 1 0,
    lastWrite past 1 1, lastWrite past last 0)

omit [Allocator A] [LawfulCollector A] in
/-- What the entry reads, if sessions read back. -/
theorem ReadsBack.of_lastWrites {last : Handle} (hreads : s.ReadsBack past 2)
    (hsights : lastWrites last past s =
      (.active, [1, last], .reference 2, .data (-5), .reference Handle.null)) :
    (s.machine.getReference 0 ⟨0, 0⟩ 1 0).1 = .ok 2 ∧
      (s.machine.getData 0 ⟨0, 0⟩ 1 1).1 = .ok (-5) ∧
      (s.machine.getReference 0 ⟨0, 0⟩ last 0).1 = .ok Handle.null := by
  simp only [lastWrites, Prod.mk.injEq] at hsights
  obtain ⟨hactive, hhandles, hlink, hdata, hnull⟩ := hsights
  have hfirst : 1 ∈ (s.machine.frame ⟨0, 0⟩).handles := hhandles ▸ List.mem_cons_self
  have hlast : last ∈ (s.machine.frame ⟨0, 0⟩).handles :=
    hhandles ▸ List.mem_cons_of_mem _ (List.mem_singleton.2 rfl)
  have hlinkRead := hreads 0 ⟨0, 0⟩ 1 0 hactive hfirst (by decide)
  have hdataRead := hreads 0 ⟨0, 0⟩ 1 1 hactive hfirst (by decide)
  have hnullRead := hreads 0 ⟨0, 0⟩ last 0 hactive hlast (by decide)
  rw [hlink] at hlinkRead
  rw [hdata] at hdataRead
  rw [hnull] at hnullRead
  exact ⟨hlinkRead.2.1, hdataRead.1, hnullRead.2.1⟩

/-- What is said of all sessions of orderly moves, said of one that links, writes, releases and
collects. The object that is made last reads null; over mark and sweep it is in the third cell, to
which data was written before. -/
theorem reads_back_of_writing :
    (∃ (start : Machine MarkSweep) (past : List Move) (s : Session MarkSweep),
      Machine.build Thread.first (.ofSize 5 2) (MarkSweep.fresh .zero) .standard = .ok start ∧
        Ran start past s ∧
        past.map (fun move => (move.thread, move.action)) = writing.reverse ∧
        s.ReadsBack past 2 ∧ (s.machine.frame ⟨0, 0⟩).handles = [1, 3] ∧
        (s.machine.getReference 0 ⟨0, 0⟩ 1 0).1 = .ok 2 ∧
        (s.machine.getData 0 ⟨0, 0⟩ 1 1).1 = .ok (-5) ∧
        (s.machine.getReference 0 ⟨0, 0⟩ 3 0).1 = .ok Handle.null) ∧
    ∃ (start : Machine Bump) (past : List Move) (s : Session Bump),
      Machine.build Thread.first (.ofSize 7 2) Bump.fresh .standard = .ok start ∧
        Ran start past s ∧
        past.map (fun move => (move.thread, move.action)) = writing.reverse ∧
        s.ReadsBack past 2 ∧ (s.machine.frame ⟨0, 0⟩).handles = [1, 5] ∧
        (s.machine.getReference 0 ⟨0, 0⟩ 1 0).1 = .ok 2 ∧
        (s.machine.getData 0 ⟨0, 0⟩ 1 1).1 = .ok (-5) ∧
        (s.machine.getReference 0 ⟨0, 0⟩ 5 0).1 = .ok Handle.null := by
  constructor
  · have hseen : observed (.ofSize 5 2) (MarkSweep.fresh .zero) writing (lastWrites 3) =
        some (.active, [1, 3], .reference 2, .data (-5), .reference 0) := by cbv
    obtain ⟨start, past, s, hbuild, hran, hpast, hsights⟩ := exists_ran_of_observed hseen
    have hreads := reads_back_of_orderly.1 _ _ _ _ _ _ _ _ hbuild hran
      (orderly_of_script hpast (by decide))
    obtain ⟨hlinked, hdata, hnull⟩ := hreads.of_lastWrites hsights
    exact ⟨start, past, s, hbuild, hran, hpast, hreads, congrArg (·.2.1) hsights, hlinked, hdata,
      hnull⟩
  · have hseen : observed (.ofSize 7 2) Bump.fresh writing (lastWrites 5) =
        some (.active, [1, 5], .reference 2, .data (-5), .reference 0) := by cbv
    obtain ⟨start, past, s, hbuild, hran, hpast, hsights⟩ := exists_ran_of_observed hseen
    have hreads := reads_back_of_orderly.2 _ _ _ _ _ _ _ _ hbuild hran
      (orderly_of_script hpast (by decide))
    obtain ⟨hlinked, hdata, hnull⟩ := hreads.of_lastWrites hsights
    exact ⟨start, past, s, hbuild, hran, hpast, hreads, congrArg (·.2.1) hsights, hlinked, hdata,
      hnull⟩

end Session

end RootedHeap
