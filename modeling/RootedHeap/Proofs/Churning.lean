import RootedHeap.Proofs.ListWalks

/-!
What a churn of lists does to its frames, followed through its code: each helper of it is one rule
that says what is known before and after. A list grows in the callee cell by cell, is handed over,
walked along by the caller from its head to null, and let go; at no moment does the stack reach more
cells than the list has in the end, so the share of a run is never overdrawn, no request for an
object is refused and no check of the walk fails.
-/

namespace RootedHeap

namespace Workload

open Code

/-- What a frame knows that holds the head of a list of so many cells. -/
def holding (env : Env) (host : Option Env) (who : Env) (base : Word) (length : Nat)
    (head : Handle) : Knowledge MarkSweep env :=
  .any fun cells => .given (cells.length = length ∧ head = cells.headD Handle.null)
    (holdingList MarkSweep env host who base none cells cells.head?.toList)

/-- What a frame knows that holds the head of a list of so many cells, once it came back from a call
as a word. -/
def returning (env : Env) (host : Option Env) (who : Env) (base : Word) (length : Nat)
    (word : Word) : Knowledge MarkSweep env :=
  .any fun cells => .given (cells.length = length ∧ word = (cells.headD Handle.null).toWord)
    (holdingList MarkSweep env host who base none cells cells.head?.toList)

/-- What a churn returns: minus the number of cells verified. -/
def churned (env : Env) (iterations length : Nat) (word : Word) : Knowledge MarkSweep env :=
  ⟨fun _ => word = -(Word.ofCount (iterations * length)), fun _ h => h⟩

/-- What a churn of lists works with: cells with two slots, in a run with a share of memory,
where code does not stop early. -/
structure ChurnResources (b : CodeContext MarkSweep) (width n count : Nat) : Prop where
  sure : b.Sure = Session.SharesFit width n count
  never : ∀ interrupt, ¬ b.Stops interrupt
  wide : 2 ≤ width

namespace ChurnResources

variable {b : CodeContext MarkSweep} {width n count : Nat} {host : Option Env} {who : Env}
  {base : Word}
  {cells held : List Handle}

/-- One action after which the share of the run is not overdrawn. -/
theorem ask (hb : ChurnResources b width n count) {action : Action} {P : Knowledge MarkSweep b.env}
    {Q : action.Reply → Knowledge MarkSweep b.env}
    (hproper : ∀ s, P.Holds s → s.Proper b.env action)
    (hreply : ∀ s, s.SharesFit width n count → P.Holds s →
      (Q (s.reply b.thread action)).Holds (s.after b.thread action) ∧
        (s.after b.thread action).ReachesAtMost n b.env) :
    b.Keeps P (Code.ask action) Q := by
  have hsure := hb.sure
  refine .ask (fun s _ hP => hproper s hP) (fun s hs hP => ?_) fun s hs hP => ?_
  · rw [hsure] at hs ⊢
    exact hs.after (hproper s hP) (hreply s hs hP).2
  · rw [hsure] at hs
    exact (hreply s hs hP).1

/-- Quiet operations leave the run its share. -/
theorem listWalkResources (hb : ChurnResources b width n count) : ListWalkResources b width n where
  wellFormed s hs := by
    rw [hb.sure] at hs
    exact hs.toWellFormed
  kept s action hs hproper _ hatMost := by
    rw [hb.sure] at hs ⊢
    exact hs.after hproper hatMost
  wide := hb.wide

/-! ### A list is built -/

theorem newObject (hb : ChurnResources b width n count) (hlt : cells.length < n) :
    b.Keeps (holdingList MarkSweep b.env host who base none cells held) (Code.newObject who)
      fun o => holdingList MarkSweep b.env host who base (some (o, 0)) cells (held ++ [o]) := by
  have hsure := hb.sure
  have hproper : ∀ s, (holdingList MarkSweep b.env host who base none cells held).Holds s →
      s.Proper b.env (.newObject who) :=
    fun s h => ⟨h.who_known.1, rfl, .inl h.who_known.2, fun _ => rfl⟩
  refine .granted (.newObject who) id (fun s _ h => hproper s h) fun s hs h => ?_
  rw [hsure] at hs ⊢
  have hframe : who.frame ∈ (s.calls.stack b.env.stack).frames := by
    rw [h.frames]
    exact List.mem_map_of_mem (List.mem_append_right _ (List.mem_singleton.2 rfl))
  have hspare : s.ReachesAtMost cells.length b.env :=
    ListWalkResources.reachesAtMost h (Nat.zero_add _).le
  have hroom := hs.newObject_ne (t := b.thread) (h.active hs.toWellFormed)
    (hs.toSound.run_of_frame hframe) ⟨cells.length, hlt, hspare⟩
  obtain ⟨o, hreply, hafter⟩ := Session.HoldsList.newObject h hs.toWellFormed hb.wide hroom
  have hatMost := ListWalkResources.reachesAtMost hafter ((Nat.add_comm 1 _).trans_le hlt)
  exact ⟨hs.after (hproper s h) hatMost, o, hreply, hafter⟩

/-- So many cells are put in front of a list. -/
theorem buildCells (hb : ChurnResources b width n count) (cells : List Handle) {m : Nat}
    (hbase : base < 0) (hfit : -0x8000000000000000 ≤ base.toInt - (cells.length + m : Nat))
    (hle : cells.length + m ≤ n) :
    b.Keeps (holdingList MarkSweep b.env host who base none cells cells.head?.toList)
      (Workload.buildCells who base m cells.length (cells.headD Handle.null))
      fun head => holding b.env host who base (cells.length + m) head := by
  induction m generalizing cells with
  | zero => exact .pure fun _ _ h => ⟨cells, ⟨rfl, rfl⟩, h⟩
  | succ m ih =>
    rw [buildCells_succ]
    refine .bind (hb.newObject (by omega)) fun o =>
      .bind (hb.listWalkResources.pushing (by omega) hbase (by omega)) fun _ => ?_
    -- once the cell is in front, the rest is as before, on a list that is longer by one
    have hlength : cells.length + (m + 1) = (o :: cells).length + m := by
      rw [List.length_cons]
      omega
    rw [hlength] at hfit hle ⊢
    exact ih (o :: cells) hfit hle

/-- A list is built whose tags fall from the given one, and its head is returned. -/
theorem buildList (hb : ChurnResources b width n count) (host : Option Env) (who : Env)
    (hbase : base < 0) (hfit : -0x8000000000000000 ≤ base.toInt - n) :
    b.Keeps (holdingList MarkSweep b.env host who base none [] [])
      ((Workload.buildList n).body who [base])
      fun word => returning b.env host who base n word := by
  have hcells : b.Keeps (holdingList MarkSweep b.env host who base none [] [])
      (Workload.buildCells who base n 0 Handle.null)
      fun head => holding b.env host who base (0 + n) head :=
    hb.buildCells [] hbase (by simpa using hfit) (Nat.zero_add n).le
  rw [Nat.zero_add] at hcells
  refine .bind hcells fun head => .any fun cells => .given ?_
  rintro ⟨hlength, rfl⟩
  exact .pure fun s _ h => ⟨cells, ⟨hlength, rfl⟩, h⟩

/-- A list is built in a call, and what comes back is its head, held. -/
theorem callBuildList (hb : ChurnResources b width n count) (who : Env) (hbase : base < 0)
    (hfit : -0x8000000000000000 ≤ base.toInt - n) :
    b.Keeps (holdingList MarkSweep b.env none who base none [] [])
      (Code.call who (Workload.buildList n) [base])
      fun word => returning b.env none who base n word := by
  have hargs : [base].filterMap Word.target? = [] :=
    List.filterMap_cons_none (Word.target?_of_neg hbase)
  refine .call hb.never (hb.ask ?_ fun s hs h => ?_)
    (fun callee => hb.buildList (some who) callee hbase hfit)
    fun callee word => .any fun cells => .given ?_
  · exact fun s h => ⟨h.who_known.1, rfl, .inl h.who_known.2, fun reply => by cases reply <;> rfl⟩
  · obtain ⟨callee, hreply, hafter⟩ := Session.HoldsList.beginCall (t := b.thread) h hs.toWellFormed
      hs.deep hargs
    rw [hreply]
    exact ⟨hafter, ListWalkResources.reachesAtMost hafter (Nat.zero_le n)⟩
  · rintro ⟨hlength, rfl⟩
    refine hb.ask ?_ fun s hs h => ?_
    · exact fun s h => ⟨(h.idle who rfl).2.2, rfl, .inl h.who_known.2, fun _ => rfl⟩
    · obtain ⟨hreply, hafter⟩ := Session.HoldsList.endCall (t := b.thread) h hs.toWellFormed
      rw [hreply]
      exact ⟨⟨cells, ⟨hlength, rfl⟩, hafter⟩,
        ListWalkResources.reachesAtMost hafter ((Nat.zero_add _).trans_le hlength.le)⟩

/-! ### Rounds -/

/-- So many rounds leave nothing behind, and each verifies a whole list. -/
theorem churnRounds (hb : ChurnResources b width n count) (who : Env) (rounds i verified : Nat)
    (hfit : i + rounds + n < 0x8000000000000000) :
    b.Keeps (holdingList MarkSweep b.env none who (-1) none [] [])
      (Workload.churnRounds who n rounds i verified)
      fun total => .given (total = verified + rounds * n)
        (holdingList MarkSweep b.env none who (-1) none [] []) := by
  induction rounds generalizing i verified with
  | zero => exact .pure fun _ _ h => ⟨by omega, h⟩
  | succ rounds ih =>
    have hone : (-1 : Word).toInt = -1 := rfl
    obtain ⟨base, hbelow⟩ : ∃ base, (-1 : Word).below? i = some base :=
      Word.exists_below (by omega)
    have hbase : base < 0 := Word.below_neg (by decide) hbelow
    have hvalue := Word.toInt_below hbelow
    have hrestart : ∀ s, (holdingList MarkSweep b.env none who (-1) none [] []).Holds s →
        (holdingList MarkSweep b.env none who base none [] []).Holds s :=
      fun s h => Session.HoldsList.restart h hbase
    have hcall := (hb.callBuildList who hbase (by omega)).of_imp hrestart
    have hrest := ih (i + 1) (verified + n) (by omega)
    have htotal : verified + n + rounds * n = verified + (rounds + 1) * n := by
      rw [Nat.succ_mul, Nat.add_assoc, Nat.add_comm n]
    rw [htotal] at hrest
    have hdone : ∀ s, (holdingList MarkSweep b.env none who base none [] []).Holds s →
        (holdingList MarkSweep b.env none who (-1) none [] []).Holds s :=
      fun s h => Session.HoldsList.restart h (by decide)
    rw [Workload.churnRounds]
    refine .bind (ListWalkResources.tagBelow hbelow) fun word => .given ?_
    rintro rfl
    refine .bind hcall fun word => .any fun cells => .given ?_
    rintro ⟨hlength, rfl⟩
    refine .of_known (cells.headD Handle.null ≤ Handle.greatest)
      (fun s h => h.listHeld.chain.headD_le) fun hsmall => ?_
    rw [Handle.toHandle_toWord hsmall]
    have hverify := hb.listWalkResources.verifyList none who word hlength.le
    rw [hlength] at hverify
    refine .bind hverify fun visited => .given ?_
    rintro rfl
    dsimp only
    cases cells with
    | nil =>
      rw [if_neg (by simp)]
      exact hrest.of_imp hdone
    | cons x tail =>
      refine .of_known (x ≠ Handle.null) (fun s h => h.listHeld.chain.1.1) fun hx => ?_
      rw [List.headD_cons, if_pos hx]
      exact .bind hb.listWalkResources.releaseLast fun _ => hrest.of_imp hdone

/-- A churn, run in a frame that holds nothing, verifies all of its lists and returns. -/
theorem body (hb : ChurnResources b width n count) (iterations : Nat)
    (hfit : iterations + n < 0x8000000000000000) (args : List Word) :
    b.Keeps ⟨Session.AloneHolding b.env [], fun hun h => h.unnoticed hun⟩
      ((listChurn iterations n).body b.env args)
      fun word => churned b.env iterations n word := by
  have hrounds := hb.churnRounds b.env iterations 0 0 (by omega)
  rw [Nat.zero_add] at hrounds
  have hstart : ∀ s, s.AloneHolding b.env [] →
      (holdingList MarkSweep b.env none b.env (-1) none [] []).Holds s :=
    fun s h => Session.HoldsList.of_aloneHolding h (by decide)
  refine .bind (hrounds.of_imp hstart) fun total => .given ?_
  rintro rfl
  exact .pure fun _ _ _ => rfl

end ChurnResources

end Workload

end RootedHeap
