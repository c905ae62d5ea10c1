import RootedHeap.Proofs.MemoryShares
import RootedHeap.Proofs.ListOperations
import RootedHeap.Workload.Lists

/-!
Work on a list that asks for no memory. A frame tags the new cell and links it, lets cells go, and
walks along the list from its head to null; each of these is one rule, good wherever quiet
operations leave sure what was. No check of the walk fails, and the frame holds after it what it
held before.
-/

namespace RootedHeap

namespace Workload

open Code

/-- What a working frame knows that has a list. -/
def holdingList (A : Type) (env : Env) (host : Option Env) (who : Env) (base : Word)
    (new : Option (Handle × Word)) (cells held : List Handle) : Knowledge A env :=
  ⟨Session.HoldsList env host who base new cells held, fun hun h => h.unnoticed hun⟩

/-- What a frame holds while it walks along a list: the head of the list, and the cell that it has
come to, if that is another. -/
def walking (head : Handle) (rest : List Handle) : List Handle :=
  head :: rest.head?.toList.filter (· ≠ head)

theorem walking_of_ne {head : Handle} {rest : List Handle} (hne : ∀ x ∈ rest.head?, x ≠ head) :
    walking head rest = head :: rest.head?.toList := by
  cases rest with
  | nil => rfl
  | cons x rest =>
    have hx : x ≠ head := hne x rfl
    simp [walking, hx]

theorem walking_cons_self {head : Handle} {rest : List Handle} :
    walking head (head :: rest) = [head] := by
  simp [walking]

theorem walking_cons_of_ne {head x : Handle} {rest : List Handle} (hne : x ≠ head) :
    walking head (x :: rest) = [head, x] := by
  simp [walking, hne]

theorem mem_walking_cons_iff {head x y : Handle} {rest : List Handle} :
    y ∈ walking head (x :: rest) ↔ y = head ∨ y = x := by
  by_cases hx : x = head
  · subst hx
    simp [walking_cons_self]
  · simp [walking_cons_of_ne hx]

/-- The cell after one of a list is neither that one nor the head. -/
theorem ne_of_suffix {head x y : Handle} {rest tail : List Handle} (hnodup : (head :: tail).Nodup)
    (hrest : x :: rest <:+ head :: tail) (hy : y ∈ rest.head?) : y ≠ head ∧ y ≠ x := by
  have hmem : y ∈ rest := List.mem_of_mem_head? hy
  have htail : rest <:+ tail := by
    rcases List.suffix_cons_iff.1 hrest with heq | hsuffix
    · obtain ⟨-, rfl⟩ := List.cons.inj heq
      exact List.suffix_refl rest
    · exact (List.suffix_cons x rest).trans hsuffix
  constructor
  · rintro rfl
    exact (List.nodup_cons.1 hnodup).1 (htail.subset hmem)
  · rintro rfl
    exact (List.nodup_cons.1 (hnodup.sublist hrest.sublist)).1 hmem

variable {A : Type} [Allocator A] [LawfulCollector A]

/-- What a builder does with a new cell: it is tagged and put in front of the list. -/
def pushing (env : Env) (base : Word) (k : Nat) (head cell : Handle) : Code Unit := do
  setData env cell tagSlot (← Workload.tagBelow base k)
  if head ≠ Handle.null then
    setReference env cell linkSlot head
    release env head

/-- A builder makes a cell, puts it in front, and goes on. -/
theorem buildCells_succ (env : Env) (base : Word) (m k : Nat) (head : Handle) :
    buildCells env base (m + 1) k head = (do
      let cell ← Code.newObject env
      pushing env base k head cell
      buildCells env base m (k + 1) cell) := by
  simp only [buildCells, pushing, bind_assoc]
  congr 1
  funext cell
  congr 1
  funext tag
  congr 1
  funext _
  split <;> simp only [bind_assoc, pure_bind]

/-- Where a frame can work on a list of so many cells: over cells with two slots, where quiet
operations leave sure what was as long as the stack reaches no more cells than that. -/
structure ListWalkResources (b : CodeContext A) (width n : Nat) : Prop where
  wellFormed : ∀ s, b.Sure s → s.WellFormed width
  kept : ∀ s action, b.Sure s → s.Proper b.env action → action.allocates = false →
    (s.after b.thread action).ReachesAtMost n b.env → b.Sure (s.after b.thread action)
  wide : 2 ≤ width

namespace ListWalkResources

variable {b : CodeContext A} {width n : Nat} {host : Option Env} {who : Env} {base old tag : Word}
  {new : Option (Handle × Word)} {cells rest held : List Handle} {o object head : Handle}

omit [Allocator A] [LawfulCollector A] in
/-- The stack of a frame that works on a list reaches the list and the new cell only. -/
theorem reachesAtMost {s : Session A} (h : s.HoldsList b.env host who base new cells held)
    (hle : new.toList.length + cells.length ≤ n) : s.ReachesAtMost n b.env := by
  refine ⟨_, ?_, fun h' => h.mem_of_reaches⟩
  rw [List.length_append, List.length_map]
  exact hle

/-- One quiet operation of the frame at work that is granted. -/
theorem granted (hb : ListWalkResources b width n) {α : Type} (action : Action)
    (f : action.Reply → Answer α) (hquiet : action.allocates = false) {P : Knowledge A b.env}
    {Q : α → Knowledge A b.env} (hproper : ∀ s, P.Holds s → s.Proper b.env action)
    (hreply : ∀ s, s.WellFormed width → P.Holds s → ∃ a,
      f (s.reply b.thread action) = .ok a ∧ (Q a).Holds (s.after b.thread action) ∧
        (s.after b.thread action).ReachesAtMost n b.env) :
    b.Keeps P (Code.ask action >>= fun reply => orStop (f reply)) Q := by
  refine .granted action f (fun s _ hP => hproper s hP) fun s hs hP => ?_
  obtain ⟨a, hanswer, hafter, hatMost⟩ := hreply s (hb.wellFormed s hs) hP
  exact ⟨hb.kept s action hs (hproper s hP) hquiet hatMost, a, hanswer, hafter⟩

/-! ### Single steps -/

theorem setData (hb : ListWalkResources b width n) (hlt : cells.length < n) (htag : tag < 0) :
    b.Keeps (holdingList A b.env host who base (some (o, old)) cells held)
      (Code.setData who o tagSlot tag)
      fun _ => holdingList A b.env host who base (some (o, tag)) cells held := by
  refine hb.granted (.setData who o tagSlot tag) id rfl ?_ fun s hs h => ?_
  · exact fun s h => ⟨h.who_known.1, rfl, .inl h.who_known.2, fun _ => rfl⟩
  obtain ⟨hreply, hafter⟩ := Session.HoldsList.setData (t := b.thread) h hs hb.wide htag
  exact ⟨(), hreply, hafter, reachesAtMost hafter ((Nat.add_comm 1 _).trans_le hlt)⟩

theorem setReference (hb : ListWalkResources b width n) (hlt : (object :: rest).length < n)
    (htag : base.below? (object :: rest).length = some tag) :
    b.Keeps (holdingList A b.env host who base (some (o, tag)) (object :: rest) held)
      (Code.setReference who o linkSlot object)
      fun _ => holdingList A b.env host who base none (o :: object :: rest) held := by
  refine hb.granted (.setReference who o linkSlot object) id rfl ?_ fun s hs h => ?_
  · exact fun s h => ⟨h.who_known.1, rfl, .inl h.who_known.2, fun _ => rfl⟩
  obtain ⟨hreply, hafter⟩ := Session.HoldsList.setReference (t := b.thread) h hs hb.wide
    htag
  exact ⟨(), hreply, hafter, reachesAtMost hafter ((Nat.zero_add _).trans_le hlt)⟩

theorem release (hb : ListWalkResources b width n) (hle : cells.length ≤ n)
    (hobject : object ∈ held) (hhead : ∀ x ∈ cells.head?, x ∈ held.erase object) :
    b.Keeps (holdingList A b.env host who base none cells held) (Code.release who object)
      fun _ => holdingList A b.env host who base none cells (held.erase object) := by
  refine hb.granted (.release who object) id rfl ?_ fun s hs h => ?_
  · exact fun s h => ⟨h.who_known.1, rfl, .inl h.who_known.2, fun _ => rfl⟩
  obtain ⟨hreply, hafter⟩ := Session.HoldsList.release (t := b.thread) h hs hobject hhead
  exact ⟨(), hreply, hafter, reachesAtMost hafter ((Nat.zero_add _).trans_le hle)⟩

theorem releaseLast (hb : ListWalkResources b width n) :
    b.Keeps (holdingList A b.env host who base none cells [object]) (Code.release who object)
      fun _ => holdingList A b.env host who base none [] [] := by
  refine hb.granted (.release who object) id rfl ?_ fun s hs h => ?_
  · exact fun s h => ⟨h.who_known.1, rfl, .inl h.who_known.2, fun _ => rfl⟩
  obtain ⟨hreply, hafter⟩ := Session.HoldsList.releaseLast (t := b.thread) h hs
  exact ⟨(), hreply, hafter, reachesAtMost hafter (Nat.zero_le n)⟩

theorem getData (hb : ListWalkResources b width n) (hle : cells.length ≤ n)
    (hobject : object ∈ held)
    (hsuffix : object :: rest <:+ cells) (htag : base.below? rest.length = some tag) :
    b.Keeps (holdingList A b.env host who base none cells held) (Code.getData who object tagSlot)
      fun word => .given (word = tag) (holdingList A b.env host who base none cells held) := by
  refine hb.granted (.getData who object tagSlot) id rfl ?_ fun s hs h => ?_
  · exact fun s h => ⟨h.who_known.1, rfl, .inl h.who_known.2, fun _ => rfl⟩
  obtain ⟨hreply, hafter⟩ := Session.HoldsList.getData (t := b.thread) h hs hobject hsuffix
    htag
  exact ⟨tag, hreply, ⟨rfl, hafter⟩, reachesAtMost hafter ((Nat.zero_add _).trans_le hle)⟩

theorem getReference (hb : ListWalkResources b width n) (hle : cells.length ≤ n)
    (hobject : object ∈ held)
    (hsuffix : object :: rest <:+ cells) (hfresh : ∀ x ∈ rest.head?, x ∉ held) :
    b.Keeps (holdingList A b.env host who base none cells held)
    (Code.getReference who object linkSlot)
      fun next => .given (next = rest.headD Handle.null)
        (holdingList A b.env host who base none cells (held ++ rest.head?.toList)) := by
  refine hb.granted (.getReference who object linkSlot) id rfl ?_ fun s hs h => ?_
  · exact fun s h => ⟨h.who_known.1, rfl, .inl h.who_known.2, fun _ => rfl⟩
  obtain ⟨hreply, hafter⟩ := Session.HoldsList.getReference (t := b.thread) h hs hobject
    hsuffix hfresh
  exact ⟨_, hreply, ⟨rfl, hafter⟩, reachesAtMost hafter ((Nat.zero_add _).trans_le hle)⟩

/-! ### A cell is put in front -/

omit [LawfulCollector A] in
/-- A word that is not too far below a tag is computed without a panic. -/
theorem tagBelow {P : Knowledge A b.env} {below : Word} {k : Nat}
    (hbelow : tag.below? k = some below) :
    b.Keeps P (Workload.tagBelow tag k) fun word => .given (word = below) P := by
  rw [Workload.tagBelow, hbelow]
  exact .pure fun _ _ h => ⟨rfl, h⟩

/-- A new cell is tagged and put in front of a list. -/
theorem pushing (hb : ListWalkResources b width n) (hlt : cells.length < n) (hbase : base < 0)
    (hfit : -0x8000000000000000 ≤ base.toInt - cells.length) :
    b.Keeps (holdingList A b.env host who base (some (o, 0)) cells (cells.head?.toList ++ [o]))
      (Workload.pushing who base cells.length (cells.headD Handle.null) o)
      fun _ => holdingList A b.env host who base none (o :: cells) [o] := by
  obtain ⟨tag, htag⟩ : ∃ tag, base.below? cells.length = some tag := Word.exists_below hfit
  refine .bind (tagBelow htag) fun word => .given ?_
  rintro rfl
  refine .bind (hb.setData hlt (Word.below_neg hbase htag)) fun _ => ?_
  cases cells with
  | nil =>
    rw [if_neg (by simp)]
    exact .pure fun s _ h => Session.HoldsList.single h htag
  | cons x rest =>
    refine .of_known (x ≠ Handle.null) (fun s h => h.listHeld.chain.1.1) fun hx => ?_
    rw [List.headD_cons, if_pos hx]
    refine .bind (hb.setReference hlt htag) fun _ => ?_
    have hrelease : b.Keeps
        (holdingList A b.env host who base none (o :: x :: rest) [x, o]) (Code.release who x)
        fun _ => holdingList A b.env host who base none (o :: x :: rest) ([x, o].erase x) :=
      hb.release hlt List.mem_cons_self (by simp)
    rw [List.erase_cons_head] at hrelease
    exact hrelease

/-! ### A list is walked along -/

/-- The rest of a list is walked along from a cell that is held, and no check fails. -/
theorem verifyRest (hb : ListWalkResources b width n) (host : Option Env) (who : Env) (base : Word)
    {tail : List Handle} (length : Nat)
    (hle : (head :: tail).length ≤ n) (hrest : rest <:+ head :: tail) :
    b.Keeps (holdingList A b.env host who base none (head :: tail) (walking head rest))
      (Workload.verifyRest who head base length rest.length (rest.headD Handle.null))
      fun _ => holdingList A b.env host who base none (head :: tail) [head] := by
  induction rest with
  | nil => exact .pure fun _ _ h => h
  | cons x rest ih =>
    refine .of_known ((head :: tail).Nodup ∧ x ≠ Handle.null ∧
      ∃ tag, base.below? rest.length = some tag) (fun s h => ?_) ?_
    · obtain ⟨hvalid, -, ⟨tag, htag, -⟩, -⟩ := h.listHeld.chain.of_suffix hrest
      exact ⟨h.listHeld.chain.nodup, hvalid.1, tag, htag⟩
    rintro ⟨hnodup, hx, tag, htag⟩
    have hheld : x ∈ walking head (x :: rest) := mem_walking_cons_iff.2 (.inr rfl)
    have hfresh : ∀ y ∈ rest.head?, y ∉ walking head (x :: rest) := by
      intro y hy hmem
      obtain ⟨hhead, hnext⟩ := ne_of_suffix hnodup hrest hy
      exact (mem_walking_cons_iff.1 hmem).elim hhead hnext
    have hwalk := ih ((List.suffix_cons x rest).trans hrest)
    rw [walking_of_ne fun y hy => (ne_of_suffix hnodup hrest hy).1] at hwalk
    rw [List.length_cons, List.headD_cons, Workload.verifyRest]
    dsimp only
    rw [if_neg hx]
    refine .bind (tagBelow htag) fun expected => .given ?_
    rintro rfl
    refine .bind (hb.getData hle hheld hrest htag) fun word => .given ?_
    rintro rfl
    rw [if_neg (not_not.2 rfl)]
    refine .bind (hb.getReference hle hheld hrest hfresh) fun next => .given ?_
    rintro rfl
    by_cases hfirst : x = head
    · subst hfirst
      rw [if_neg (not_not.2 rfl), walking_cons_self]
      exact hwalk
    · rw [if_pos hfirst, walking_cons_of_ne hfirst]
      have hrelease : b.Keeps
          (holdingList A b.env host who base none (head :: tail) ([head, x] ++ rest.head?.toList))
          (Code.release who x)
          fun _ => holdingList A b.env host who base none (head :: tail)
            (([head, x] ++ rest.head?.toList).erase x) :=
        hb.release hle (by simp) (by simp [Ne.symm hfirst])
      rw [List.cons_append, List.erase_cons_tail (by simpa using Ne.symm hfirst), List.cons_append,
        List.erase_cons_head, List.nil_append] at hrelease
      exact .bind hrelease fun _ => hwalk

/-- A list that was built is found to be one. -/
theorem verifyList (hb : ListWalkResources b width n) (host : Option Env) (who : Env) (base : Word)
    (hle : cells.length ≤ n) :
    b.Keeps (holdingList A b.env host who base none cells cells.head?.toList)
      (Workload.verifyList who (cells.headD Handle.null) base cells.length)
      fun visited => .given (visited = cells.length)
        (holdingList A b.env host who base none cells cells.head?.toList) := by
  have hwalk : b.Keeps (holdingList A b.env host who base none cells cells.head?.toList)
      (Workload.verifyRest who (cells.headD Handle.null) base cells.length cells.length
        (cells.headD Handle.null))
      fun _ => holdingList A b.env host who base none cells cells.head?.toList := by
    cases cells with
    | nil => exact .pure fun _ _ h => h
    | cons head tail =>
      have hrest := hb.verifyRest host who base (head :: tail).length
        hle (List.suffix_refl (head :: tail))
      rw [walking_cons_self] at hrest
      exact hrest
  exact .bind hwalk fun _ => .pure fun s _ h => ⟨rfl, h⟩

end ListWalkResources

end Workload

end RootedHeap
