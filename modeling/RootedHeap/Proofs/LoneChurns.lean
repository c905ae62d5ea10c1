import RootedHeap.Proofs.SpareCells
import RootedHeap.Proofs.Truthful

/-!
A churn of lists by itself, on a machine where no other stack is registered. How it ends can be told
beforehand: it verifies all of its lists and returns if there is enough memory, and reports that
memory is out if there is not; nothing else can come of it. Over mark and sweep the cells of a list
that is dropped can be had again, so each list has all cells to itself, whatever garbage they were
full of; over a counter all lists together must fit into what remains, and that is what they use up.

The churn is followed through its code with one judgement, `Affords`, which says what must be had
for the code to come to its end, and what is so then.
-/

namespace RootedHeap

open Workload (ListWalkResources holdingList buildCells_succ)

namespace Session

variable {A : Type} [Allocator A] {α β : Type} {s s' : Session A} {t : Thread}

/-! ### Code that comes to its end if there is enough memory -/

/-- Whether code by itself comes to a result of which something is true if there is enough memory,
and stops for want of memory if there is not. -/
structure Affords (s : Session A) (t : Thread) (enough : Prop) (code : Code α)
    (Q : α → Session A → Prop) : Prop where
  comes : enough → ∃ a s', s.play t code.ended = (.ok a, s') ∧ Q a s'
  stops : ¬ enough → (s.play t code.ended).1 = .error (.fault .outOfMemory)

namespace Affords

variable {first second enough : Prop} {code : Code α} {Q Q' : α → Session A → Prop}
  {R : β → Session A → Prop} {f : α → Code β} {P : Word → Session A → Prop}

theorem imp (h : s.Affords t enough code Q) (himp : ∀ a s', Q a s' → Q' a s') :
    s.Affords t enough code Q' where
  comes henough := by
    obtain ⟨a, s', hplay, hQ⟩ := h.comes henough
    exact ⟨a, s', hplay, himp a s' hQ⟩
  stops := h.stops

theorem pure {a : α} (henough : enough) (hQ : Q a s) : s.Affords t enough (pure a) Q :=
  ⟨fun _ => ⟨a, s, rfl, hQ⟩, fun hshort => absurd henough hshort⟩

/-- There is enough for one piece of code and another if there is for the one, and for the other
after it. -/
theorem bind (h : s.Affords t first code Q) (henough : enough ↔ first ∧ second)
    (hf : ∀ a s', first → Q a s' → s'.Affords t second (f a) R) :
    s.Affords t enough (code >>= f) R := by
  constructor
  · intro hboth
    obtain ⟨hfirst, hsecond⟩ := henough.1 hboth
    obtain ⟨a, s', hplay, hQ⟩ := h.comes hfirst
    rw [play_bind, hplay]
    exact (hf a s' hfirst hQ).comes hsecond
  · intro hshort
    rw [play_bind]
    by_cases hfirst : first
    · obtain ⟨a, s', hplay, hQ⟩ := h.comes hfirst
      rw [hplay]
      exact (hf a s' hfirst hQ).stops fun hsecond => hshort (henough.2 ⟨hfirst, hsecond⟩)
    · rw [h.stops hfirst]

/-- What comes after code that needs no memory. -/
theorem next (h : s.Affords t True code Q) (hf : ∀ a s', Q a s' → s'.Affords t enough (f a) R) :
    s.Affords t enough (code >>= f) R :=
  h.bind (by rw [true_and]) fun a s' _ => hf a s'

/-- A call hands on that there is not enough. -/
theorem call {caller callee : Env} {method : Method} {args : List Word}
    (hbegin : s.reply t (.beginCall caller method.name args) = .ok callee)
    (hbody : (s.after t (.beginCall caller method.name args)).Affords t enough
      (method.body callee args) P)
    (hend : ∀ word s', P word s' → s'.reply t (.endCall caller callee (.ok word)) = .ok word) :
    s.Affords t enough (Code.call caller method args) fun word s'' =>
      ∃ s', P word s' ∧ s'' = s'.after t (.endCall caller callee (.ok word)) := by
  have hplay : s.play t (Code.call caller method args).ended =
      ((s.after t (.beginCall caller method.name args)).play t
        (method.body callee args).ended).2.play t (concluding caller callee
          ((s.after t (.beginCall caller method.name args)).play t
            (method.body callee args).ended).1) := by
    rw [ended_call, play, hbegin]
    exact play_andThen ..
  constructor
  · intro henough
    obtain ⟨word, s', hbody, hP⟩ := hbody.comes henough
    rw [hplay, hbody, concluding, play, hend word s' hP]
    exact ⟨word, _, rfl, s', hP, rfl⟩
  · intro hshort
    -- the end of a call takes any fault as it is, so the state it comes from does not matter
    rw [hplay, hbody.stops hshort, concluding, play, (after_endCall _ t caller callee _).1]
    rfl

end Affords

variable [LawfulCollector A] [CountsSpare A] {env who : Env} {host : Option Env} {base : Word}
  {cells held : List Handle} {left n width : Nat}

/-! ### Work that asks for no memory -/

/-- The context of the only run while it asks for no memory. -/
def resting (s : Session A) (t : Thread) (env : Env) (width : Nat) : CodeContext A :=
  ⟨t, env, fun s' => s'.OnlyRun width env ∧ s'.spare = s.spare, fun _ => False⟩

theorem listWalkResources_resting (hwidth : 2 ≤ width) :
    ListWalkResources (s.resting t env width) width n where
  wellFormed _ hs := hs.1.toWellFormed
  kept _ _ hs hproper hquiet _ :=
    ⟨hs.1.after hproper,
      (hs.1.toSound.spare_after hproper.permitted hproper.orderly hquiet).trans hs.2⟩
  wide := hwidth

/-- Work on a list that asks for no memory needs none. -/
theorem Affords.of_keeps {P : Knowledge A env} {code : Code α} {Q : α → Knowledge A env}
    (h : (s.resting t env width).Keeps P code Q) (hs : s.OnlyRun width env) (hP : P.Holds s) :
    s.Affords t True code fun a s' =>
      s'.OnlyRun width env ∧ s'.spare = s.spare ∧ (Q a).Holds s' := by
  obtain ⟨a, s', hplay, ⟨honlyRun, hspare⟩, hQ⟩ := h.plays (fun _ => id) ⟨hs, rfl⟩ hP
  exact ⟨fun _ => ⟨a, s', hplay, honlyRun, hspare, hQ⟩, fun hnever => absurd trivial hnever⟩

/-! ### A list is built -/

/-- Whether the only run works on a list whose head it holds, and so many cells more can be had. -/
structure ListWithSpare (width : Nat) (env : Env) (host : Option Env) (who : Env) (base : Word)
    (cells : List Handle) (left : Nat) (s : Session A) : Prop extends s.OnlyRun width env where
  holdsList : s.HoldsList env host who base none cells cells.head?.toList
  spare : s.spare cells.length = left

namespace ListWithSpare

/-- One more cell can be had if any can. -/
theorem newObject (hs : s.ListWithSpare width env host who base cells left) (hwidth : 2 ≤ width) :
    s.Affords t (left ≠ 0) (Code.newObject who) fun o s' =>
      s'.OnlyRun width env ∧ s'.spare (cells.length + 1) = left - 1 ∧
        s'.HoldsList env host who base (some (o, 0)) cells (cells.head?.toList ++ [o]) := by
  have hplay : s.play t (Code.newObject who).ended =
      (s.after t (.newObject who)).proceed t Pure.pure (s.reply t (.newObject who)) := by
    rw [← play_newObject, bind_pure]
  have hout := CountsSpare.exhausted_iff (t := t) hs.toOnlyRun hs.holdsList
  have hspare : CountsSpare.spare s.machine.allocator s.machine.heap.size cells.length = left :=
    hs.spare
  rw [hspare] at hout
  constructor
  · intro hleft
    obtain ⟨o, hreply, hlist⟩ := hs.holdsList.newObject hs.toWellFormed hwidth (hout.not.2 hleft)
    have hproper : s.Proper env (.newObject who) :=
      ⟨hs.holdsList.who_known.1, rfl, .inl hs.holdsList.who_known.2, fun _ => rfl⟩
    have hgiven := CountsSpare.given hs.toOnlyRun hs.holdsList hreply
    rw [hplay, hreply]
    refine ⟨o, _, rfl, hs.after hproper, ?_, hlist⟩
    rw [Session.spare, hs.size_after hproper]
    omega
  · intro hnone
    rw [hplay, hout.2 (not_not.1 hnone)]
    rfl

/-- So many cells are put in front of a list if so many can be had. -/
theorem buildCells (hs : s.ListWithSpare width env host who base cells left) (hwidth : 2 ≤ width)
    {m : Nat} (hbase : base < 0)
    (hfit : -0x8000000000000000 ≤ base.toInt - (cells.length + m : Nat)) :
    s.Affords t (m ≤ left)
      (Workload.buildCells who base m cells.length (cells.headD Handle.null)) fun head s' =>
        ∃ cells' : List Handle, cells'.length = cells.length + m ∧
          head = cells'.headD Handle.null ∧
          s'.ListWithSpare width env host who base cells' (left - m) := by
  induction m generalizing s cells left with
  | zero => exact .pure (Nat.zero_le left) ⟨cells, rfl, rfl, hs⟩
  | succ m ih =>
    rw [buildCells_succ]
    have henough : m + 1 ≤ left ↔ left ≠ 0 ∧ m ≤ left - 1 := by omega
    refine (hs.newObject hwidth).bind henough fun o s₁ _ ⟨honlyRun, hspare, hnew⟩ => ?_
    have hwalks : ListWalkResources (s₁.resting t env width) width (cells.length + 1) :=
      listWalkResources_resting hwidth
    have hpushing : (s₁.resting t env width).Keeps
        (holdingList A env host who base (some (o, 0)) cells (cells.head?.toList ++ [o]))
        (Workload.pushing who base cells.length (cells.headD Handle.null) o)
        fun _ => holdingList A env host who base none (o :: cells) [o] :=
      hwalks.pushing (Nat.lt_succ_self _) hbase (by omega)
    refine (Affords.of_keeps hpushing honlyRun hnew).next fun _ s₂ ⟨honlyRun', hkept, hlist⟩ => ?_
    have hs' : s₂.ListWithSpare width env host who base (o :: cells) (left - 1) :=
      ⟨honlyRun', hlist, (congrFun hkept _).trans hspare⟩
    -- once the cell is in front, the rest is as before, on a list that is longer by one
    have hlength : cells.length + (m + 1) = (o :: cells).length + m := by
      rw [List.length_cons]
      omega
    have hleft : left - (m + 1) = left - 1 - m := by omega
    rw [hlength] at hfit ⊢
    rw [hleft]
    exact ih hs' hfit

/-- A list is built in a call, and what comes back is its head, held. -/
theorem callBuildList (hs : s.ListWithSpare width env none who base [] left) (hwidth : 2 ≤ width)
    (hbase : base < 0) (hfit : -0x8000000000000000 ≤ base.toInt - n) :
    s.Affords t (n ≤ left) (Code.call who (Workload.buildList n) [base]) fun word s' =>
      ∃ cells : List Handle, cells.length = n ∧ word = (cells.headD Handle.null).toWord ∧
        s'.ListWithSpare width env none who base cells (left - n) := by
  have hargs : [base].filterMap Word.target? = [] :=
    List.filterMap_cons_none (Word.target?_of_neg hbase)
  have hproper : s.Proper env (.beginCall who (Workload.buildList n).name [base]) :=
    ⟨hs.holdsList.who_known.1, rfl, .inl hs.holdsList.who_known.2,
      fun reply => by cases reply <;> rfl⟩
  obtain ⟨callee, hbegin, hlist⟩ :=
    HoldsList.beginCall (t := t) hs.holdsList hs.toWellFormed hs.deep
    hargs
  have hstart :
      (s.after t (.beginCall who (Workload.buildList n).name [base])).ListWithSpare width env
      (some who) callee base [] left :=
    ⟨hs.after hproper, hlist, (congrFun
      (hs.toSound.spare_after hproper.permitted hproper.orderly rfl) _).trans hs.spare⟩
  have hcells := hstart.buildCells (t := t) hwidth (m := n) hbase (by simpa using hfit)
  have hbody : (s.after t (.beginCall who (Workload.buildList n).name [base])).Affords t (n ≤ left)
      ((Workload.buildList n).body callee [base]) fun word s' =>
        ∃ cells : List Handle, cells.length = n ∧ word = (cells.headD Handle.null).toWord ∧
          s'.ListWithSpare width env (some who) callee base cells (left - n) := by
    refine hcells.bind (by rw [and_true]) fun head s' _ ⟨cells, hlength, hhead, hs'⟩ => ?_
    exact .pure trivial ⟨cells, hlength.trans (Nat.zero_add n), hhead ▸ rfl, hs'⟩
  refine (Affords.call hbegin hbody ?_).imp ?_
  · rintro word s' ⟨cells, -, rfl, hs'⟩
    exact (hs'.holdsList.endCall hs'.toWellFormed).1
  · rintro word - ⟨s', ⟨cells, hlength, rfl, hs'⟩, rfl⟩
    have hproper : s'.Proper env (.endCall who callee (.ok (cells.headD Handle.null).toWord)) :=
      ⟨(hs'.holdsList.idle who rfl).2.2, rfl, .inl hs'.holdsList.who_known.2, fun _ => rfl⟩
    exact ⟨cells, hlength, rfl, hs'.after hproper, (hs'.holdsList.endCall hs'.toWellFormed).2,
      (congrFun (hs'.toSound.spare_after hproper.permitted hproper.orderly rfl) _).trans
        hs'.spare⟩

/-! ### Rounds -/

/-- A list that is built is walked along and let go, and what can be had then is what one list
leaves. -/
theorem drop (hs : s.ListWithSpare width env none who base cells (left - cells.length))
    (hwidth : 2 ≤ width) (hle : cells.length ≤ left) (next : Nat → Code β) {rest : Prop}
    {R : β → Session A → Prop}
    (hnext : ∀ s' : Session A,
      s'.ListWithSpare width env none who (-1) [] (CountsSpare.leaves A left cells.length 1) →
      s'.Affords t rest (next cells.length) R) :
    s.Affords t rest (do
      let visited ← Workload.verifyList who (cells.headD Handle.null) base cells.length
      if cells.headD Handle.null ≠ Handle.null then
        Code.release who (cells.headD Handle.null)
      next visited) R := by
  have hwalks : ∀ s : Session A, ListWalkResources (s.resting t env width) width cells.length :=
    fun _ => listWalkResources_resting hwidth
  -- nothing asks for memory from here on, so what is left can be told while the list is still held
  have hleaves : s.spare 0 = CountsSpare.leaves A left cells.length 1 := by
    have hdropped := CountsSpare.dropped hs.toOnlyRun hs.holdsList
    have hspare := hs.spare
    unfold Session.spare at hspare ⊢
    rw [hdropped, hspare, CountsSpare.leaves, Nat.one_mul]
    split <;> omega
  have hdone : ∀ s' : Session A, s'.OnlyRun width env → s'.spare = s.spare →
      s'.HoldsList env none who base none [] [] →
      s'.ListWithSpare width env none who (-1) [] (CountsSpare.leaves A left cells.length 1) :=
    fun s' honlyRun hspare hlist =>
      ⟨honlyRun, hlist.restart (by decide), (congrFun hspare 0).trans hleaves⟩
  refine (Affords.of_keeps ((hwalks s).verifyList none who base (Nat.le_refl _)) hs.toOnlyRun
    hs.holdsList).next fun visited s₁ ⟨hsole₁, hspare₁, hvisited, hstrings₁⟩ => ?_
  obtain rfl := hvisited
  cases cells with
  | nil =>
    rw [if_neg (by simp)]
    exact hnext s₁ (hdone s₁ hsole₁ hspare₁ hstrings₁)
  | cons x tail =>
    have hx : x ≠ Handle.null := hs.holdsList.listHeld.chain.1.1
    rw [List.headD_cons, if_pos hx]
    refine (Affords.of_keeps (hwalks s₁).releaseLast hsole₁ hstrings₁).next
      fun _ s₂ ⟨hsole₂, hspare₂, hstrings₂⟩ => ?_
    exact hnext s₂ (hdone s₂ hsole₂ (hspare₂.trans hspare₁) hstrings₂)

/-- So many rounds come to their end if there are cells enough for all lists, one after the other,
and each verifies a whole list. -/
theorem churnRounds (hs : s.ListWithSpare width env none who (-1) [] left) (hwidth : 2 ≤ width)
    (rounds i verified : Nat) (hfit : i + rounds + n < 0x8000000000000000) :
    s.Affords t (CountsSpare.Covers A left n rounds)
      (Workload.churnRounds who n rounds i verified) fun total s' =>
        total = verified + rounds * n ∧
          s'.ListWithSpare width env none who (-1) [] (CountsSpare.leaves A left n rounds) := by
  induction rounds generalizing s left i verified with
  | zero => exact .pure (CountsSpare.covers_zero A) ⟨by omega, CountsSpare.leaves_zero A ▸ hs⟩
  | succ rounds ih =>
    have hone : (-1 : Word).toInt = -1 := rfl
    obtain ⟨base, hbelow⟩ : ∃ base, (-1 : Word).below? i = some base :=
      Word.exists_below (by omega)
    have hbase : base < 0 := Word.below_neg (by decide) hbelow
    have hvalue := Word.toInt_below hbelow
    have hstart : s.ListWithSpare width env none who base [] left :=
      ⟨hs.toOnlyRun, hs.holdsList.restart hbase, hs.spare⟩
    have htotal : verified + (rounds + 1) * n = verified + n + rounds * n := by
      rw [Nat.succ_mul, Nat.add_assoc, Nat.add_comm n]
    rw [CountsSpare.leaves_succ, htotal, Workload.churnRounds]
    have htag : s.Affords t True (Workload.tagBelow (-1) i)
        fun word s' => word = base ∧ s' = s := by
      rw [Workload.tagBelow, hbelow]
      exact .pure trivial ⟨rfl, rfl⟩
    refine htag.next fun word s' hword => ?_
    obtain ⟨rfl, rfl⟩ := hword
    refine (hstart.callBuildList hwidth hbase (by omega)).bind (CountsSpare.covers_succ A ..)
      fun word s₁ hle hbuilt => ?_
    obtain ⟨cells, rfl, rfl, hs₁⟩ := hbuilt
    rw [Handle.toHandle_toWord hs₁.holdsList.listHeld.chain.headD_le]
    exact hs₁.drop hwidth hle _ fun s₂ hs₂ => ih hs₂ (i + 1) (verified + cells.length) (by omega)

/-- What a churn by itself comes to: minus the number of cells verified. -/
theorem listChurn (hs : s.ListWithSpare width env none env (-1) [] left) (hwidth : 2 ≤ width)
    (iterations : Nat) (hfit : iterations + n < 0x8000000000000000) :
    s.Affords t (CountsSpare.Covers A left n iterations)
      ((Workload.listChurn iterations n).body env []) fun word s' =>
        word = -(Word.ofCount (iterations * n)) ∧
          s'.ListWithSpare width env none env (-1) [] (CountsSpare.leaves A left n iterations) := by
  have hrounds := hs.churnRounds (t := t) (n := n) hwidth iterations 0 0 (by omega)
  refine hrounds.bind (by rw [and_true]) fun total s' _ ⟨htotal, hs'⟩ => ?_
  rw [Nat.zero_add] at htotal
  exact .pure trivial ⟨htotal ▸ rfl, hs'⟩

/-- A run that begins while no stack is registered has all that can be had. -/
theorem of_begun {name : String} (hs : s.WellFormed width)
    (hdeep : 2 ≤ s.machine.config.maxCallDepth) (hnone : s.calls.registered = [])
    (hbegun : s.reply t (.beginRun name []) = .ok env) :
    (s.after t (.beginRun name [])).ListWithSpare width env none env (-1) [] (s.spare 0) where
  toWellFormed := hs.after trivial rfl
  only := hs.only_of_begun hnone hbegun
  deep := by
    rw [config_after]
    exact hdeep
  holdsList := .of_aloneHolding (aloneHolding_begun hbegun) (by decide)
  spare := by
    have hpermits : s.ledger.permits (.beginRun name []) := trivial
    exact congrFun (hs.toSound.spare_after hpermits rfl rfl) 0

end ListWithSpare

/-- How a churn by itself ends: with minus the number of cells verified if there are cells enough
for its lists, one after the other, and as memory being out if there are not. -/
theorem WellFormed.play_listChurn (hs : s.WellFormed width) (hwidth : 2 ≤ width)
    (hdeep : 2 ≤ s.machine.config.maxCallDepth) (hnone : s.calls.registered = [])
    (iterations n : Nat) (hfit : iterations + n < 0x8000000000000000)
    (hcount : iterations * n < 0x8000000000000000) :
    (CountsSpare.Covers A (s.spare 0) n iterations → ∃ s',
      s.play t (Code.runMethod (Workload.listChurn iterations n) []).outcome =
        (.finished (.ok (-(Word.ofCount (iterations * n)))), s') ∧
      s'.spare 0 = CountsSpare.leaves A (s.spare 0) n iterations) ∧
    (¬ CountsSpare.Covers A (s.spare 0) n iterations →
      (s.play t (Code.runMethod (Workload.listChurn iterations n) []).outcome).1 =
        .finished (.error .outOfMemory)) := by
  let entry : Env := ⟨s.calls.known.size, s.calls.frames.size⟩
  have hbegun : s.reply t (.beginRun (Workload.listChurn iterations n).name []) = .ok entry :=
    reply_beginRun ..
  have hbody :=
    (ListWithSpare.of_begun hs hdeep hnone hbegun).listChurn (t := t) hwidth iterations hfit
  have hword := Word.target?_neg_ofCount hcount
  constructor
  · intro henough
    obtain ⟨word, s', hplay, rfl, hs'⟩ := hbody.comes henough
    have hending : _ = Answer.ending (.ok _) := congrArg Prod.fst hplay
    have hleaving : s.leaving t (Workload.listChurn iterations n) entry = s' :=
      congrArg Prod.snd hplay
    have houtcome := play_outcome hbegun hending fun word' hok => Except.ok.inj hok ▸ hword
    rw [hleaving] at houtcome
    refine ⟨_, houtcome, ?_⟩
    have hpermits : s'.ledger.permits (.endRun entry (.ok (-(Word.ofCount (iterations * n))))) := by
      have hbegun : entry ∈ s'.ledger.runs := by
        rw [hs'.only]
        exact List.mem_singleton.2 rfl
      exact hbegun
    rw [hs'.toSound.spare_after hpermits rfl rfl]
    exact hs'.spare
  · intro hshort
    have hending : _ = Answer.ending (.error .outOfMemory) := hbody.stops hshort
    exact congrArg Prod.fst (play_outcome hbegun hending fun _ => nofun)

end Session

namespace Workload

open Session

/-! ### On every machine -/

/-- What is said of a churn over mark and sweep by itself, on a machine whose cells have two slots
or more, whose stacks have room for a call and of which no stack is registered, after whatever
orderly use of it: memory is out if there is a list to be built that has more cells than there are,
and otherwise all lists are verified. -/
def ChurnsSweeping : Prop :=
  ∀ (maxPause : Duration) (clock : Nat → Duration) (config : MachineConfig) (width : Nat)
    (s : Session MarkSweep), s.LeftIdle { MarkSweep.fresh maxPause with clock } config width →
    2 ≤ width → 2 ≤ config.maxCallDepth →
    ∀ (t : Thread) (iterations n : Nat),
      iterations * n < 0x8000000000000000 → iterations + n < 0x8000000000000000 →
      ∃ word : Word, word.toInt = -((iterations * n : Nat) : Int) ∧
        ((Code.runMethod (listChurn iterations n) []).outcome.run t s.world).1 =
          .finished (if 0 < iterations ∧ s.machine.heap.size - 1 < n then .error .outOfMemory
            else .ok word)

/-- What is said of a churn over a counter by itself: memory is out if all lists together have more
cells than remain, and otherwise all lists are verified and that many cells remain less. -/
def ChurnsCounting : Prop :=
  ∀ (config : MachineConfig) (width : Nat) (s : Session Bump),
    s.LeftIdle Bump.fresh config width → 2 ≤ width → 2 ≤ config.maxCallDepth →
    ∀ (t : Thread) (iterations n : Nat),
      iterations * n < 0x8000000000000000 → iterations + n < 0x8000000000000000 →
      ∃ word : Word, word.toInt = -((iterations * n : Nat) : Int) ∧
        ((Code.runMethod (listChurn iterations n) []).outcome.run t s.world).1 =
          .finished (if s.machine.allocator.remaining < iterations * n then .error .outOfMemory
            else .ok word) ∧
        (iterations * n ≤ s.machine.allocator.remaining →
          ((Code.runMethod (listChurn iterations n) []).outcome.run t
              s.world).2.machine.allocator.remaining + iterations * n =
            s.machine.allocator.remaining)

theorem churns_sweeping : ChurnsSweeping := by
  intro maxPause clock config width s hs hwidth hdeep t iterations n hcount hfit
  obtain ⟨henough, hshort⟩ := hs.orderly.wellFormed.play_listChurn (t := t) hwidth
    (hs.orderly.config_eq ▸ hdeep) hs.unregistered iterations n hfit hcount
  have hcovers : CountsSpare.Covers MarkSweep (s.spare 0) n iterations ↔
      ¬ (0 < iterations ∧ s.machine.heap.size - 1 < n) := by
    have hspare : s.spare 0 = s.machine.heap.size - 1 := rfl
    rw [covers_sweeping, hspare]
    omega
  rw [hcovers] at henough hshort
  refine ⟨_, Word.toInt_neg_ofCount hcount, ?_⟩
  rw [run_eq_play]
  split
  · rename_i hout
    exact hshort (not_not.2 hout)
  · rename_i hroom
    obtain ⟨s', hplay, -⟩ := henough hroom
    exact congrArg Prod.fst hplay

theorem churns_counting : ChurnsCounting := by
  intro config width s hs hwidth hdeep t iterations n hcount hfit
  have hbound := hs.orderly.boundTo
  have hspare : s.spare 0 = s.machine.allocator.remaining := hbound.remaining.symm
  obtain ⟨henough, hshort⟩ := hs.orderly.wellFormed.play_listChurn (t := t) hwidth
    (hs.orderly.config_eq ▸ hdeep) hs.unregistered iterations n hfit hcount
  rw [covers_counting, hspare, ← Nat.not_lt] at henough hshort
  rw [run_eq_play]
  refine ⟨_, Word.toInt_neg_ofCount hcount, ?_, fun hle => ?_⟩
  · split
    · rename_i hout
      exact hshort (not_not.2 hout)
    · rename_i hroom
      obtain ⟨s', hplay, -⟩ := henough hroom
      exact congrArg Prod.fst hplay
  · obtain ⟨s', hplay, hleaves⟩ := henough (Nat.not_lt_of_le hle)
    have hbound' := boundTo_play (t := t)
      (p := (Code.runMethod (listChurn iterations n) []).outcome) hbound
    rw [hplay] at hbound' ⊢
    have hspare' : s'.spare 0 = s'.machine.allocator.remaining := hbound'.remaining.symm
    rw [leaves_counting, hspare'] at hleaves
    change s'.machine.allocator.remaining + iterations * n = _
    rw [hleaves, Nat.sub_add_cancel hle]

/-- How a churn by itself ends is settled by the memory that it finds, whichever allocator it runs
over. -/
theorem lone_churn_exact : ChurnsSweeping ∧ ChurnsCounting :=
  ⟨churns_sweeping, churns_counting⟩

/-- A run that leaves three objects behind. -/
def spoiling : List (Thread × Action) :=
  [(0, .beginRun "entry" []),
    (0, .newObject ⟨0, 0⟩), (0, .newObject ⟨0, 0⟩), (0, .newObject ⟨0, 0⟩),
    (0, .endRun ⟨0, 0⟩ (.ok (-1)))]

/-- What is said of churns by themselves, said of two machines on which a run has left three objects
behind: mark and sweep has one free cell, and yet lists of three cells are built, but not of five; a
counter has three cells left, and is done after as many. -/
theorem lone_churn_exact_spoiling :
    (∃ (start : Machine MarkSweep) (past : List Move) (s : Session MarkSweep),
      Machine.build Thread.first (.ofSize 5 2)
          { MarkSweep.fresh .zero with clock := fun _ => .zero } .standard = .ok start ∧
        Ran start past s ∧ s.machine.allocator.free = [4] ∧
        (∃ word : Word, word.toInt = -6 ∧
          ((Code.runMethod (listChurn 2 3) []).outcome.run 0 s.world).1 = .finished (.ok word)) ∧
        ((Code.runMethod (listChurn 1 5) []).outcome.run 0 s.world).1 =
          .finished (.error .outOfMemory)) ∧
      ∃ (start : Machine Bump) (past : List Move) (s : Session Bump),
        Machine.build Thread.first (.ofSize 7 2) Bump.fresh .standard = .ok start ∧
          Ran start past s ∧ s.machine.allocator.remaining = 3 ∧
          (∃ word : Word, word.toInt = -3 ∧
            ((Code.runMethod (listChurn 3 1) []).outcome.run 0 s.world).1 = .finished (.ok word)) ∧
          ((Code.runMethod (listChurn 3 1) []).outcome.run 0
            s.world).2.machine.allocator.remaining = 0 ∧
          ((Code.runMethod (listChurn 2 2) []).outcome.run 0 s.world).1 =
            .finished (.error .outOfMemory) := by
  obtain ⟨hsweeping, hcounting⟩ := lone_churn_exact
  constructor
  · have hseen : observed (.ofSize 5 2) { MarkSweep.fresh .zero with clock := fun _ => .zero }
        spoiling (fun _ s => (s.machine.allocator.free, s.machine.heap.size, s.calls.registered)) =
          some ([4], 5, []) := by decide +kernel
    obtain ⟨start, past, s, hbuild, hran, hpast, hsights⟩ := exists_ran_of_observed hseen
    obtain ⟨hfree, hsize, hnone⟩ := by simpa only [Prod.mk.injEq] using hsights
    have horderly := orderly_of_script hpast (by decide)
    have hchurn := hsweeping _ _ _ _ s ⟨⟨⟨hbuild, by decide⟩, hran, horderly⟩, hnone⟩ (by decide)
      (by decide) 0
    obtain ⟨word, hvalue, hreturned⟩ := hchurn 2 3 (by decide) (by decide)
    obtain ⟨_, -, hout⟩ := hchurn 1 5 (by decide) (by decide)
    rw [hsize, if_neg (by decide)] at hreturned
    rw [hsize, if_pos (by decide)] at hout
    exact ⟨start, past, s, hbuild, hran, hfree, ⟨word, hvalue, hreturned⟩, hout⟩
  · have hseen : observed (.ofSize 7 2) Bump.fresh spoiling
        (fun _ s => (s.machine.allocator.remaining, s.calls.registered)) = some (3, []) := by
      decide +kernel
    obtain ⟨start, past, s, hbuild, hran, hpast, hsights⟩ := exists_ran_of_observed hseen
    obtain ⟨hremaining, hnone⟩ := by simpa only [Prod.mk.injEq] using hsights
    have horderly := orderly_of_script hpast (by decide)
    have hchurn := hcounting _ _ s ⟨⟨⟨hbuild, by decide⟩, hran, horderly⟩, hnone⟩ (by decide)
      (by decide) 0
    obtain ⟨word, hvalue, hreturned, hspent⟩ := hchurn 3 1 (by decide) (by decide)
    obtain ⟨_, -, hout, -⟩ := hchurn 2 2 (by decide) (by decide)
    rw [hremaining] at hreturned hspent hout
    exact ⟨start, past, s, hbuild, hran, hremaining, ⟨word, hvalue, hreturned⟩,
      Nat.add_right_cancel (hspent (by decide)), hout⟩

end Workload

end RootedHeap
