import RootedHeap.Proofs.LinkedLists
import RootedHeap.Proofs.GrantedOperations
import RootedHeap.Workload.Lists

/-!
What a walk along a list accepts. A frame that verifies a list reads the tag and the link of one
cell after another, whatever is behind them: cells of the list, cells linked in a circle, or words
that are no links at all. `Heap.Listed` says what a list is without saying how it is walked. The
walk takes a bounded number of steps whatever it is answered, writes nothing, finds the lists and
nothing but the lists, and leaves the frame with the head alone of what it came upon.
-/

namespace RootedHeap

open Workload (tagSlot linkSlot verifyRest verifyList)

/-! ### Lists in the heap -/

namespace Heap

/-- Whether cells make a list: the tag of each is as far below `base` as there are cells after it,
its link is the next cell, and that of the last is null. -/
def Listed (heap : Heap) (base : Word) : List Handle → Prop
  | [] => True
  | h :: cells =>
    (∃ tag, heap.read h tagSlot = .ok tag ∧ tag.toInt = base.toInt - cells.length) ∧
      (∃ link, heap.read h linkSlot = .ok link ∧ link.toInt = cells.headD Handle.null) ∧
      heap.Listed base cells

instance decidableReads {P : Word → Prop} [DecidablePred P] :
    (answer : Answer Word) → Decidable (∃ word, answer = .ok word ∧ P word)
  | .ok word =>
    decidable_of_iff (P word) ⟨fun h => ⟨word, rfl, h⟩, fun ⟨_, hok, h⟩ => Except.ok.inj hok ▸ h⟩
  | .error _ => isFalse fun ⟨_, hok, _⟩ => nomatch hok

instance decidableListed (heap : Heap) (base : Word) :
    (cells : List Handle) → Decidable (heap.Listed base cells)
  | [] => isTrue trivial
  | h :: cells =>
    haveI := decidableListed heap base cells
    inferInstanceAs (Decidable (
      (∃ tag, heap.read h tagSlot = .ok tag ∧ tag.toInt = base.toInt - cells.length) ∧
        (∃ link, heap.read h linkSlot = .ok link ∧ link.toInt = cells.headD Handle.null) ∧
        heap.Listed base cells))

/-- Whether so many cells are the list that begins at `head`. -/
def ListAt (heap : Heap) (base : Word) (length : Nat) (head : Handle) (cells : List Handle) :
    Prop :=
  cells.length = length ∧ cells.headD Handle.null = head ∧ heap.Listed base cells

instance (heap : Heap) (base : Word) (length : Nat) (head : Handle) (cells : List Handle) :
    Decidable (heap.ListAt base length head cells) :=
  inferInstanceAs (Decidable (_ ∧ _ ∧ heap.Listed base cells))

variable {heap : Heap} {base : Word} {cells : List Handle} {h : Handle}

namespace Listed

/-- Each cell of a list has a tag above those of the cells before it. -/
theorem lt_tag (hlisted : heap.Listed base cells) (hh : h ∈ cells) :
    ∃ tag, heap.read h tagSlot = .ok tag ∧ base.toInt - cells.length < tag.toInt := by
  induction cells with
  | nil => cases hh
  | cons x cells ih =>
    rw [List.length_cons]
    rcases List.mem_cons.1 hh with rfl | hh
    · obtain ⟨tag, hread, htag⟩ := hlisted.1
      exact ⟨tag, hread, by omega⟩
    · obtain ⟨tag, hread, htag⟩ := ih hlisted.2.2 hh
      exact ⟨tag, hread, by omega⟩

/-- A list does not come back to a cell. -/
theorem not_mem (hlisted : heap.Listed base (h :: cells)) : h ∉ cells := by
  intro hh
  obtain ⟨⟨tag, hread, htag⟩, -, hrest⟩ := hlisted
  obtain ⟨tag', hread', hlt⟩ := hrest.lt_tag hh
  obtain rfl := Except.ok.inj (hread.symm.trans hread')
  omega

/-- The cells of a list are cells. -/
theorem contains (hlisted : heap.Listed base cells) (hh : h ∈ cells) :
    heap.contains h = true := by
  obtain ⟨tag, hread, -⟩ := hlisted.lt_tag hh
  cases hcontains : heap.contains h with
  | true => rfl
  | false =>
    rw [read, cell_of_not_contains hcontains] at hread
    cases hread

end Listed

end Heap

namespace Machine

variable {A : Type} {m : Machine A} {env : Env} {object next : Handle} {slot : Nat} {word : Word}

/-- Data that a frame finds stands in the slot. -/
theorem read_of_dataAt (hok : m.dataAt env object slot = .ok word) :
    m.heap.read object slot = .ok word := by
  obtain ⟨_, -, hok⟩ := Answer.bind_eq_ok.1 hok
  obtain ⟨_, -, hok⟩ := Answer.bind_eq_ok.1 hok
  obtain ⟨found, hread, hok⟩ := Answer.bind_eq_ok.1 hok
  split at hok
  · obtain rfl := Except.ok.inj hok
    exact hread
  · cases hok

/-- The handle that a frame finds is the value of the slot. -/
theorem read_of_referenceAt (hok : m.referenceAt env object slot = .ok next) :
    ∃ link, m.heap.read object slot = .ok link ∧ link.toInt = next := by
  obtain ⟨_, -, hok⟩ := Answer.bind_eq_ok.1 hok
  obtain ⟨_, -, hok⟩ := Answer.bind_eq_ok.1 hok
  obtain ⟨link, hread, hok⟩ := Answer.bind_eq_ok.1 hok
  refine ⟨link, hread, ?_⟩
  cases htarget : link.target? with
  | none =>
    rw [htarget] at hok
    dsimp only at hok
    split at hok
    · cases hok
    · rename_i hneg
      obtain rfl := Except.ok.inj hok
      have hle := Word.target?_eq_none_iff.1 htarget
      rw [Int64.le_iff_toInt_le, Int64.toInt_zero] at hle
      rw [Int64.lt_iff_toInt_lt, Int64.toInt_zero] at hneg
      exact Int.le_antisymm hle (Int.not_lt.1 hneg)
  | some target =>
    rw [htarget] at hok
    obtain ⟨_, -, hok⟩ := Answer.bind_eq_ok.1 hok
    obtain rfl := Except.ok.inj hok
    exact Word.toInt_of_target? htarget

/-- A frame follows a link of an object that it holds. -/
theorem referenceAt_of_read (hactive : (m.frame env).state = .active)
    (hheld : object ∈ (m.frame env).handles) (hread : m.heap.read object slot = .ok word)
    (hvalue : word.toInt = next) (hnext : next ≠ Handle.null → m.heap.contains next = true) :
    m.referenceAt env object slot = .ok next := by
  by_cases hnull : next = Handle.null
  · subst hnull
    have htarget : word.target? = none := Word.target?_of_toInt hvalue
    refine referenceAt_null hactive hheld hread htarget ?_
    rw [Int64.lt_iff_toInt_lt, Int64.toInt_zero, hvalue]
    exact Int.lt_irrefl 0
  · obtain ⟨cell, hcell, -⟩ := Heap.cell_of_contains (hnext hnull)
    have htarget : word.target? = some next := by
      rw [Word.target?_of_toInt hvalue, if_neg hnull]
    rw [referenceAt, checkActive_of_active hactive, checkHeld_of_mem hheld, hread]
    simp [htarget, hcell, bind, Except.bind, pure, Except.pure]

end Machine

/-! ### Steps -/

namespace Program

variable {α β : Type}

/-- Whether a program takes at most so many steps, whatever it is answered. -/
def Within : Program α → Nat → Prop
  | .done _, _ => True
  | .act _ _, 0 => False
  | .act _ next, n + 1 => ∀ reply, (next reply).Within n

variable {p : Program α} {f : α → Program β} {m n : Nat}

theorem Within.mono (h : p.Within m) (hle : m ≤ n) : p.Within n := by
  induction p generalizing m n with
  | done a => trivial
  | act action next ih =>
    cases m with
    | zero => exact h.elim
    | succ m =>
      obtain ⟨n, rfl⟩ := Nat.exists_eq_add_of_le' (Nat.zero_lt_of_lt hle)
      exact fun reply => ih reply (h reply) (Nat.le_of_succ_le_succ hle)

theorem Within.andThen (h : p.Within m) (hf : ∀ a, (f a).Within n) :
    (p.andThen f).Within (m + n) := by
  induction p generalizing m with
  | done a => exact (hf a).mono (Nat.le_add_left n m)
  | act action next ih =>
    cases m with
    | zero => exact h.elim
    | succ m =>
      rw [Nat.succ_add]
      exact fun reply => ih reply (h reply)

end Program

namespace Code

variable {α β : Type} {x : Code α} {f : α → Code β} {m n : Nat}

/-- Whether code takes at most so many steps, whatever it is answered. -/
def Within (x : Code α) (n : Nat) : Prop := x.ended.Within n

namespace Within

theorem mono (h : x.Within m) (hle : m ≤ n) : x.Within n := Program.Within.mono h hle

theorem bind (hx : x.Within m) (hf : ∀ a, (f a).Within n) : (x >>= f).Within (m + n) := by
  rw [Within, ended_bind]
  refine Program.Within.andThen hx fun result => ?_
  cases result with
  | ok a => exact hf a
  | error interrupt => trivial

theorem pure (a : α) : (Pure.pure a : Code α).Within n := trivial

theorem throw (interrupt : Interrupt) : (MonadExcept.throw interrupt : Code α).Within n := trivial

theorem operation (action : Action) (answer : action.Reply → Answer α) :
    (do Code.orStop (answer (← Code.ask action)) : Code α).Within 1 :=
  .bind (m := 1) (n := 0) (fun _ => trivial) fun reply => by
    cases answer reply <;> trivial

end Within

end Code

/-! ### The walk -/

namespace Session

variable {A : Type} [Allocator A] {α : Type} {s : Session A} {t : Thread} {env : Env}
  {object head cursor : Handle} {base tag : Word} {slot length n : Nat}
  {cells rest held : List Handle}

/-! ### What a walk accepts is a list -/

/-- What a walk along the last `n` cells of a list may come to: it has written nothing, and either
it failed by a fault or there is a list. -/
structure Walked (heap : Heap) (base : Word) (n : Nat) (cursor : Handle)
    (ended : Except Interrupt Unit × Session A) : Prop where
  wrote : ended.2.machine.heap = heap
  verdict : (∃ fault, ended.1 = .error (.fault fault)) ∨
    ended.1 = .ok () ∧ ∃ cells, heap.ListAt base n cursor cells

namespace Walked

variable {heap : Heap} {link : Word} {next : Handle} {fault : Fault}
  {ended : Except Interrupt Unit × Session A}

omit [Allocator A] in
theorem failed (hheap : s.machine.heap = heap) :
    Walked heap base n cursor (.error (.fault fault), s) :=
  ⟨hheap, .inl ⟨fault, rfl⟩⟩

omit [Allocator A] in
/-- A walk over a cell with the tag that is expected is one along a list if the rest of it is. -/
theorem cons (htag : heap.read cursor tagSlot = .ok tag) (hbelow : base.below? n = some tag)
    (hlink : heap.read cursor linkSlot = .ok link) (hnext : link.toInt = next)
    (hrest : Walked heap base n next ended) : Walked heap base (n + 1) cursor ended := by
  refine ⟨hrest.wrote, hrest.verdict.imp_right fun ⟨hok, cells, hlength, hhead, hlisted⟩ => ?_⟩
  have hvalue : tag.toInt = base.toInt - cells.length := by rw [hlength, Word.toInt_below hbelow]
  exact ⟨hok, cursor :: cells, congrArg Nat.succ hlength, rfl, ⟨tag, htag, hvalue⟩,
    ⟨link, hlink, hhead ▸ hnext⟩, hlisted⟩

end Walked

/-- A walk writes nothing and comes to its end on lists only. -/
theorem walked (hfit : -0x8000000000000000 ≤ base.toInt - n) :
    Walked s.machine.heap base n cursor
      (s.play t (verifyRest env head base length n cursor).ended) := by
  induction n generalizing s cursor with
  | zero =>
    rw [verifyRest]
    split
    · rename_i hnull
      exact ⟨rfl, .inr ⟨rfl, [], rfl, hnull.symm, trivial⟩⟩
    · exact .failed rfl
  | succ n ih =>
    obtain ⟨expected, hbelow⟩ : ∃ expected, base.below? n = some expected :=
      Word.exists_below (by omega)
    rw [verifyRest]
    by_cases hnull : cursor = Handle.null
    · rw [if_pos hnull]
      exact .failed rfl
    dsimp only
    rw [if_neg hnull, play_tagBelow hbelow, play_getData, after_getData, reply_getData]
    cases hdata : s.machine.dataAt env cursor tagSlot with
    | error fault => exact .failed rfl
    | ok tag =>
      rw [proceed]
      by_cases htag : tag = expected
      swap
      · rw [if_pos htag]
        exact .failed rfl
      subst htag
      rw [if_neg (not_not.2 rfl), play_getReference, reply_getReference]
      have hfollowed : (s.after t (.getReference env cursor linkSlot)).machine.heap =
          s.machine.heap := Machine.SameArena.getReference.heap
      cases hlink : s.machine.referenceAt env cursor linkSlot with
      | error fault => exact .failed hfollowed
      | ok next =>
        obtain ⟨link, hread, hnext⟩ := Machine.read_of_referenceAt hlink
        refine .cons (Machine.read_of_dataAt hdata) hbelow hread hnext ?_
        rw [← hfollowed, proceed]
        split
        · rw [play_release]
          have hreleased : ((s.after t (.getReference env cursor linkSlot)).after t
              (.release env cursor)).machine.heap =
                (s.after t (.getReference env cursor linkSlot)).machine.heap :=
            Machine.SameArena.release.heap
          cases (s.after t (.getReference env cursor linkSlot)).reply t (.release env cursor) with
          | error fault => exact .failed hreleased
          | ok _ =>
            rw [← hreleased]
            exact ih (by omega)
        · exact ih (by omega)

/-- A verification writes nothing, and fails by a fault unless there is a list. -/
theorem verified (s : Session A) (t : Thread) (env : Env) (head : Handle)
    (hfit : -0x8000000000000000 ≤ base.toInt - length) :
    (s.play t (verifyList env head base length).ended).2.machine.heap = s.machine.heap ∧
      ((∃ fault, (s.play t (verifyList env head base length).ended).1 = .error (.fault fault)) ∨
        (s.play t (verifyList env head base length).ended).1 = .ok length ∧
          ∃ cells, s.machine.heap.ListAt base length head cells) := by
  have hwalked : Walked s.machine.heap base length head
      (s.play t (verifyRest env head base length length head).ended) := walked hfit
  rw [verifyList, play_bind]
  rcases hwalked.verdict with ⟨fault, hfault⟩ | ⟨hok, hlist⟩
  · rw [hfault]
    exact ⟨hwalked.wrote, .inl ⟨fault, rfl⟩⟩
  · rw [hok]
    exact ⟨hwalked.wrote, .inr ⟨rfl, hlist⟩⟩

/-! ### A list is accepted -/

/-- Whether a frame is at work on a heap and holds just these objects. -/
structure Views (env : Env) (heap : Heap) (held : List Handle) (s : Session A) : Prop where
  heap : s.machine.heap = heap
  active : (s.machine.frame env).state = .active
  holds : (s.machine.frame env).handles = held

/-- What a frame holds once it followed a link. -/
def met (held : List Handle) : Option Handle → List Handle
  | none => held
  | some h => if h ∈ held then held else held ++ [h]

theorem mem_met_of_mem {next : Option Handle} (hheld : object ∈ held) : object ∈ met held next := by
  cases next with
  | none => exact hheld
  | some h =>
    rw [met]
    split
    · exact hheld
    · exact List.mem_append_left _ hheld

theorem mem_met : object ∈ met held (some object) := by
  rw [met]
  split
  · assumption
  · exact List.mem_append_right _ (List.mem_singleton.2 rfl)

/-- An object that is let go of is gone, whether it was held before or not. -/
theorem erase_met : (met held (some object)).erase object = held.erase object := by
  rw [met]
  split
  · rfl
  · rename_i hfresh
    rw [List.erase_append_right _ hfresh, List.erase_cons_head, List.append_nil,
      List.erase_of_not_mem hfresh]

/-- The cells of a list are let go of, whether the first of them was held before or not. -/
theorem diff_met : (met held cells.head?).diff cells = held.diff cells := by
  cases cells with
  | nil => rfl
  | cons x cells => rw [List.head?_cons, List.diff_cons, List.diff_cons, erase_met]

/-- Letting go of another object makes no difference to that. -/
theorem diff_erase_met : ((met held cells.head?).erase object).diff cells =
    held.diff (object :: cells) := by
  cases cells with
  | nil => rw [List.diff_cons, List.head?_nil, met]
  | cons x cells =>
    rw [List.head?_cons, List.diff_cons, List.diff_cons, List.diff_cons, List.erase_comm, erase_met,
      List.erase_comm]

namespace Views

variable {heap : Heap}

omit [Allocator A] in
theorem change (h : s.Views env heap held) {s' : Session A} {edit : Frame → Frame}
    (hcalls : s'.calls = s.calls.change env.frame edit) (hheap : s'.machine.heap = s.machine.heap)
    (hedit : (edit (s.machine.frame env)).state = (s.machine.frame env).state) :
    s'.Views env heap (edit (s.machine.frame env)).handles := by
  have hframe : s'.machine.frame env = edit (s.machine.frame env) :=
    Machine.frame_edited h.active hcalls
  exact ⟨hheap.trans h.heap, by rw [hframe, hedit, h.active], by rw [hframe]⟩

theorem release (h : s.Views env heap held) (hheld : object ∈ held) :
    s.reply t (.release env object) = .ok () ∧
      (s.after t (.release env object)).Views env heap (held.erase object) := by
  obtain ⟨hreply, hcalls, hheap⟩ := release_granted (t := t) h.active (h.holds ▸ hheld)
  have hafter := h.change hcalls hheap rfl
  rw [Frame.handles_remove, h.holds] at hafter
  exact ⟨hreply, hafter⟩

/-- A link is followed to the next cell of a list, if there is one. -/
theorem follow (h : s.Views env heap held) (hcursor : cursor ∈ held)
    (hlisted : heap.Listed base (cursor :: rest)) :
    s.reply t (.getReference env cursor linkSlot) = .ok (rest.headD Handle.null) ∧
      (s.after t (.getReference env cursor linkSlot)).Views env heap
        (met held rest.head?) := by
  obtain ⟨link, hread, hvalue⟩ := hlisted.2.1
  have hcheck : s.machine.referenceAt env cursor linkSlot = .ok (rest.headD Handle.null) := by
    refine Machine.referenceAt_of_read h.active (h.holds ▸ hcursor) (h.heap ▸ hread) hvalue ?_
    intro hnext
    cases rest with
    | nil => exact absurd rfl hnext
    | cons y rest =>
      rw [h.heap]
      exact hlisted.contains (List.mem_cons_of_mem _ List.mem_cons_self)
  obtain ⟨hreply, hcalls, hheap⟩ := getReference_granted (t := t) hcheck
  refine ⟨hreply, ?_⟩
  cases rest with
  | nil =>
    exact ⟨hheap.trans h.heap,
      (congrArg (fun calls => (calls.frame env.frame).state) hcalls).trans h.active,
      (congrArg (fun calls => (calls.frame env.frame).handles) hcalls).trans h.holds⟩
  | cons y rest =>
    have hy : y ≠ Handle.null :=
      (Heap.contains_iff.1 (hlisted.contains (List.mem_cons_of_mem _ List.mem_cons_self))).1
    rw [List.headD_cons, if_neg hy] at hcalls
    have hafter := h.change hcalls hheap Frame.state_insert
    rw [Frame.handles_insert, h.holds] at hafter
    exact hafter

/-- One step along a list: the next cell is held, and this one is let go of unless it is the head.
-/
theorem step (t : Thread) (head : Handle) (length : Nat) (h : s.Views env heap held)
    (hcursor : cursor ∈ held)
    (hlisted : heap.Listed base (cursor :: rest)) (hbase : base < 0)
    (hfit : -0x8000000000000000 ≤ base.toInt - rest.length) :
    ∃ s' : Session A,
      s'.Views env heap
        (if cursor = head then met held rest.head? else (met held rest.head?).erase cursor) ∧
      s.play t (verifyRest env head base length (cursor :: rest).length cursor).ended =
        s'.play t (verifyRest env head base length rest.length (rest.headD Handle.null)).ended := by
  obtain ⟨tag, hbelow⟩ := Word.exists_below hfit
  obtain ⟨found, hread, hvalue⟩ := hlisted.1
  obtain rfl : found = tag := Int64.toInt_inj.1 (hvalue.trans (Word.toInt_below hbelow).symm)
  have hnull : cursor ≠ Handle.null :=
    (Heap.contains_iff.1 (hlisted.contains List.mem_cons_self)).1
  have hdata : s.machine.dataAt env cursor tagSlot = .ok found :=
    Machine.dataAt_eq h.active (h.holds ▸ hcursor) (h.heap ▸ hread)
      (Word.below_neg hbase hbelow)
  obtain ⟨hreply, hfollowed⟩ := h.follow (t := t) hcursor hlisted
  rw [List.length_cons, verifyRest]
  dsimp only
  rw [if_neg hnull, play_tagBelow hbelow, play_getData, after_getData, reply_getData, hdata,
    proceed, if_neg (not_not.2 rfl), play_getReference, hreply, proceed]
  by_cases hhead : cursor = head
  · rw [if_pos hhead, if_neg (not_not.2 hhead)]
    exact ⟨_, hfollowed, rfl⟩
  · obtain ⟨hreleased, hafter⟩ := hfollowed.release (t := t) (mem_met_of_mem hcursor)
    rw [if_neg hhead, if_pos hhead, play_release, hreleased, proceed]
    exact ⟨_, hafter, rfl⟩

/-- A list behind the head is walked along to its end, and none of its cells is held then. -/
theorem walk (t : Thread) (length : Nat) (h : s.Views env heap held)
    (hlisted : heap.Listed base cells)
    (hfirst : ∀ x ∈ cells.head?, x ∈ held) (hhead : head ∉ cells) (hbase : base < 0)
    (hfit : -0x8000000000000000 ≤ base.toInt - cells.length) :
    ∃ s', s.play t (verifyRest env head base length cells.length
        (cells.headD Handle.null)).ended = (.ok (), s') ∧
      s'.Views env heap (held.diff cells) := by
  induction cells generalizing s held with
  | nil => exact ⟨s, rfl, h⟩
  | cons x rest ih =>
    rw [List.length_cons] at hfit
    obtain ⟨hx, hrest⟩ := not_or.1 (mt List.mem_cons.2 hhead)
    obtain ⟨s', hs', hplay⟩ := h.step t head length (hfirst x rfl) hlisted hbase (by omega)
    rw [if_neg (Ne.symm hx)] at hs'
    have hnext : ∀ y ∈ rest.head?, y ∈ (met held rest.head?).erase x := by
      intro y hy
      refine (List.mem_erase_of_ne ?_).2 (hy ▸ mem_met)
      rintro rfl
      exact hlisted.not_mem (List.mem_of_mem_head? hy)
    obtain ⟨s'', hwalk, hs''⟩ := ih hs' hlisted.2.2 hnext hrest (by omega)
    rw [diff_erase_met] at hs''
    exact ⟨s'', hplay.trans hwalk, hs''⟩

end Views

/-- A list is accepted, and then its head alone is held of it. -/
theorem accepted {heap : Heap} (h : s.Views env heap held)
    (hlist : heap.ListAt base length head cells) (hhead : head = Handle.null ∨ head ∈ held)
    (hbase : base < 0) (hfit : -0x8000000000000000 ≤ base.toInt - length) :
    ∃ s', s.play t (verifyList env head base length).ended = (.ok length, s') ∧
      s'.Views env heap (held.diff cells.tail) := by
  obtain ⟨rfl, rfl, hlisted⟩ := hlist
  obtain ⟨s', hwalk, hs'⟩ : ∃ s', s.play t (verifyRest env (cells.headD Handle.null) base
      cells.length cells.length (cells.headD Handle.null)).ended = (.ok (), s') ∧
        s'.Views env heap (held.diff cells.tail) := by
    cases cells with
    | nil => exact ⟨s, rfl, h⟩
    | cons x rest =>
      have hx : x ≠ Handle.null :=
        (Heap.contains_iff.1 (hlisted.contains List.mem_cons_self)).1
      rw [List.length_cons] at hfit
      rw [List.headD_cons] at hhead ⊢
      obtain ⟨s', hs', hplay⟩ := h.step t x (x :: rest).length
        (hhead.resolve_left hx) hlisted hbase (by omega)
      rw [if_pos rfl] at hs'
      obtain ⟨s'', hwalk, hs''⟩ := hs'.walk t (x :: rest).length hlisted.2.2
        (fun y hy => hy ▸ mem_met) hlisted.not_mem hbase (by omega)
      rw [diff_met] at hs''
      exact ⟨s'', hplay.trans hwalk, hs''⟩
  refine ⟨s', ?_, hs'⟩
  rw [verifyList, play_bind, hwalk]
  rfl

end Session

namespace Workload

variable {A : Type} [Allocator A] {env : Env} {head cursor : Handle} {base : Word}
  {length n : Nat}

/-- Each step of a walk along a list takes three actions at most. -/
theorem within_verifyRest : (verifyRest env head base length n cursor).Within (3 * n) := by
  induction n generalizing cursor with
  | zero =>
    rw [verifyRest]
    split
    · exact .pure _
    · exact .throw _
  | succ n ih =>
    have hsteps : 3 * (n + 1) = 0 + (1 + (1 + (1 + 3 * n))) := by omega
    have htag : (tagBelow base n).Within 0 := by
      rw [tagBelow]
      cases base.below? n <;> trivial
    rw [hsteps, verifyRest]
    split
    · exact .throw _
    refine .bind htag fun expected => .bind (.operation (.getData env cursor tagSlot) id)
      fun tag => ?_
    dsimp only
    split
    · exact .throw _
    refine .bind (.operation (.getReference env cursor linkSlot) id) fun next => ?_
    split
    · exact .bind (.operation (.release env cursor) id) fun _ => ih
    · exact ih.mono (Nat.le_add_left _ _)

/-- What a verification does to a world and answers, on any heap. -/
structure Judges (w : World A) (t : Thread) (env : Env) (head : Handle) (base : Word)
    (length : Nat) : Prop where
  bounded : (verifyList env head base length).Within (3 * length)
  writes : ((verifyList env head base length).ended.run t w).2.machine.heap = w.machine.heap
  /-- It accepts if there is a list at the head, and only then. -/
  accepts : ((verifyList env head base length).ended.run t w).1 = .ok length ↔
    ∃ cells, w.machine.heap.ListAt base length head cells
  refuses : (¬ ∃ cells, w.machine.heap.ListAt base length head cells) →
    ∃ fault, ((verifyList env head base length).ended.run t w).1 = .error (.fault fault)
  releases : ∀ cells, w.machine.heap.ListAt base length head cells →
    (((verifyList env head base length).ended.run t w).2.machine.frame env).handles =
      (w.machine.frame env).handles.diff cells.tail

/-- A verification accepts the lists, and nothing else: by a frame that is at work and holds the
head, if there is one, with tags that are words. -/
theorem judges_of_active {w : World A} {t : Thread}
    (hactive : (w.machine.frame env).state = .active) (hbase : base < 0)
    (hfit : -0x8000000000000000 ≤ base.toInt - length)
    (hhead : head = Handle.null ∨ head ∈ (w.machine.frame env).handles) :
    Judges w t env head base length := by
  let s : Session A := ⟨w, .empty⟩
  have hrun := Session.run_eq_play t (verifyList env head base length).ended s
  have haccepted : ∀ cells, w.machine.heap.ListAt base length head cells →
      ∃ s', s.play t (verifyList env head base length).ended = (.ok length, s') ∧
        s'.Views env w.machine.heap ((w.machine.frame env).handles.diff cells.tail) :=
    fun cells hlist => Session.accepted ⟨rfl, hactive, rfl⟩ hlist hhead hbase hfit
  obtain ⟨hwrites, hverdict⟩ := s.verified t env head hfit
  have hbounded : (verifyList env head base length).Within (3 * length) :=
    .bind (n := 0) within_verifyRest fun _ => .pure length
  refine ⟨hbounded, ?_, ⟨fun hok => ?_, ?_⟩, fun hnone => ?_,
    fun cells hlist => ?_⟩
  · exact (congrArg (fun ended => ended.2.machine.heap) hrun).trans hwrites
  · rcases hverdict with ⟨fault, hfault⟩ | ⟨-, hlist⟩
    · cases hfault.symm.trans ((congrArg Prod.fst hrun).symm.trans hok)
    · exact hlist
  · rintro ⟨cells, hlist⟩
    obtain ⟨s', hplay, -⟩ := haccepted cells hlist
    exact (congrArg Prod.fst hrun).trans (congrArg Prod.fst hplay)
  · obtain ⟨fault, hfault⟩ := hverdict.resolve_right fun hlist => hnone hlist.2
    exact ⟨fault, (congrArg Prod.fst hrun).trans hfault⟩
  · obtain ⟨s', hplay, hs'⟩ := haccepted cells hlist
    have hworld : ((verifyList env head base length).ended.run t w).2 = s'.world :=
      (congrArg Prod.snd hrun).trans (congrArg (fun played => played.2.world) hplay)
    rw [hworld]
    exact hs'.holds

/-- A list of three cells, whose second the frame does not hold and whose third it does, beside a
cell that is linked to itself. -/
theorem judges_beside_circle :
    ∃ (start : Machine Bump) (w : World Bump),
      Machine.build Thread.first (.ofSize 6 2) Bump.fresh .standard = .ok start ∧
        (w.machine.frame ⟨0, 0⟩).handles = [1, 3, 4] ∧
        Judges w Thread.first ⟨0, 0⟩ 1 (-1) 3 ∧ Judges w Thread.first ⟨0, 0⟩ 4 (-1) 1 ∧
        ((verifyList ⟨0, 0⟩ 1 (-1) 3).ended.run Thread.first w).1 = .ok 3 ∧
        (((verifyList ⟨0, 0⟩ 1 (-1) 3).ended.run Thread.first w).2.machine.frame ⟨0, 0⟩).handles =
          [1, 4] := by
  let start : Machine Bump := (Machine.build Thread.first (.ofSize 6 2) Bump.fresh
    .standard).toOption.get rfl
  let env : Env := ⟨0, 0⟩
  let s : Session Bump := [.beginRun "entry" [], .newObject env, .newObject env, .newObject env,
    .newObject env, .setData env 1 tagSlot (-3), .setReference env 1 linkSlot 2,
    .setData env 2 tagSlot (-2), .setReference env 2 linkSlot 3, .setData env 3 tagSlot (-1),
    .setData env 4 tagSlot (-1), .setReference env 4 linkSlot 4, .release env 2].foldl
      (·.after Thread.first ·) (.opening start)
  have hheld : (s.world.machine.frame env).handles = [1, 3, 4] := by decide +kernel
  have hactive : (s.world.machine.frame env).state = .active := by decide +kernel
  have hlist : Judges s.world Thread.first env 1 (-1) 3 :=
    judges_of_active hactive (by decide) (by decide) (.inr (by rw [hheld]; decide))
  have hcircle : Judges s.world Thread.first env 4 (-1) 1 :=
    judges_of_active hactive (by decide) (by decide) (.inr (by rw [hheld]; decide))
  have hlisted : s.world.machine.heap.ListAt (-1) 3 1 [1, 2, 3] := by decide +kernel
  have hreleases := hlist.releases _ hlisted
  have hleft : [1, 3, 4].diff [1, 2, 3].tail = [1, 4] := by decide
  rw [hheld, hleft] at hreleases
  have haccepts := hlist.accepts.2 ⟨_, hlisted⟩
  clear_value s
  exact ⟨start, s.world, rfl, hheld, hlist, hcircle, haccepts, hreleases⟩

end Workload

end RootedHeap
