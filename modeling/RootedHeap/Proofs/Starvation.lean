import Mathlib.Algebra.BigOperators.Group.Finset.Piecewise
import Mathlib.Data.Fintype.Card
import RootedHeap.Proofs.PastIndependence
import RootedHeap.Proofs.Churning
import RootedHeap.Proofs.Truthful

/-!
Churns of lists never starve. If the lists of all threads fit in the heap together, each thread
comes to verify all of its lists, whatever the schedule and whatever collections come in between: no
request for an object is refused, and the count of objects grows by exactly the cells of all lists.
-/

namespace RootedHeap

open Session (SharesFit)

/-! ### Crowds whose methods always return -/

namespace Crowd

variable {A ι : Type} [Allocator A] [LawfulCollector A] [DecidableEq ι] {c : Crowd A ι}
  {i : ι} {n width : Nat} {Sure : Session A → Prop}
  {Q : ι → (entry : Env) → Word → Knowledge A entry}

omit [Allocator A] [LawfulCollector A] [DecidableEq ι] in
/-- Where no runs went on from the start, there is one for each thread that is in its run, so there
are fewer than there are threads while one is not. -/
theorem RunsPlaced.length_lt [Fintype ι] {place : ι → Option Env} {s : Session A}
    (h : c.RunsPlaced place s) (hnone : c.start.ledger.runs = []) (hplace : place i = none)
    (hnodup : s.ledger.runs.Nodup) : s.ledger.runs.length < Fintype.card ι := by
  classical
  have hsubset : s.ledger.runs ⊆ (Finset.univ.erase i).toList.filterMap place := by
    intro run hrun
    rcases h run hrun with hold | ⟨j, hj⟩
    · rw [hnone] at hold
      cases hold
    · have hne : j ≠ i := by
        rintro rfl
        rw [hplace] at hj
        cases hj
      exact List.mem_filterMap.2 ⟨j, by simp [hne], hj⟩
  have hlength := (List.subperm_of_subset hnodup hsubset).length_le
  have hothers : ((Finset.univ.erase i).toList.filterMap place).length ≤
      (Finset.univ.erase i).toList.length := List.length_filterMap_le _ _
  rw [Finset.length_toList, Finset.card_erase_of_mem (Finset.mem_univ i), Finset.card_univ]
    at hothers
  have hpos : 0 < Fintype.card ι := Fintype.card_pos_iff.2 ⟨i⟩
  omega

omit [DecidableEq ι] in
/-- A method that does not stop early returns once it is let go on. -/
theorem MethodsKeep.returned (hkeeps : c.MethodsKeep width Sure (fun _ => False) Q) {s : Session A}
    {entry : Env} {p : Program (Except Interrupt Word)} (hsure : Sure s)
    (hensures : (c.context Sure (fun _ => False) i entry).Ensures (fun result s => ∃ answer,
      result = Answer.ending answer ∧ Truth (fun _ => False) (Q i entry) s answer) p s) :
    (s.play (c.thread i) ((p.andThen (Session.closing entry)).andThen
      Code.reported)).1.Returned := by
  obtain ⟨-, answer, hending, htrue⟩ := hensures.play hsure
  cases answer with
  | error fault => exact htrue.elim
  | ok word =>
    refine ⟨word, congrArg Prod.fst (Session.play_reported hending fun word' hok => ?_)⟩
    obtain rfl := Except.ok.inj hok
    exact hkeeps.data i entry word _ htrue

/-- Wherever a thread is, its method returns if it is let go on. -/
theorem MethodsKeep.returns (hkeeps : c.MethodsKeep width Sure (fun _ => False) Q)
    (hstart : Sure c.start) (n : Nat) (i : ι) :
    ((c.scene n).session.play (c.thread i) ((c.scene n).program i)).1.Returned := by
  obtain ⟨place, hstaged⟩ := hkeeps.staged hstart n
  have hstage := hstaged.stage i
  generalize hplace : place i = mine at hstage
  cases hstage with
  | waiting program =>
    let entry : Env :=
      ⟨(c.scene n).session.calls.known.size, (c.scene n).session.calls.frames.size⟩
    have hbegun : (c.scene n).session.reply (c.thread i) (.beginRun (c.method i).name []) =
        .ok entry := Session.reply_beginRun ..
    rw [program, Code.outcome_eq, Session.ended_runMethod]
    change Outcome.Returned
      ((c.scene n).session.play (c.thread i) (.act (.beginRun (c.method i).name []) _)).1
    rw [Session.play, hbegun]
    have hsure : Sure ((c.scene n).session.after (c.thread i) (.beginRun (c.method i).name [])) :=
      hkeeps.begins _ place i _ _ hstaged.sure hstaged.runsPlaced hplace
    exact hkeeps.returned hsure (hkeeps.ensures hsure (Session.aloneHolding_begun hbegun))
  | running program begun entered ensures =>
    rw [program]
    exact hkeeps.returned hstaged.sure ensures
  | @finished outcome program reports =>
    obtain ⟨entry, answer, l, m, -, -, -, -, rfl, htrue⟩ := reports
    rw [program]
    cases answer with
    | error fault => exact htrue.elim
    | ok word => exact ⟨word, rfl⟩

/-- What a thread that takes its turn goes on with still returns. -/
theorem MethodsKeep.not_fails (hkeeps : c.MethodsKeep width Sure (fun _ => False) Q)
    (hstart : Sure c.start) {action : Action} {next : action.Reply → Program Outcome}
    (hprogram : (c.scene n).program i = .act action next) :
    ¬ (next ((c.scene n).session.reply (c.thread i) action)).Fails Outcome.Returned := by
  intro hfails
  have hreturns := hkeeps.returns hstart n i
  rw [hprogram] at hreturns
  exact Session.not_good_play hfails hreturns

/-- A run is ended with what its method returned. -/
theorem MethodsKeep.ends_well (hkeeps : c.MethodsKeep width Sure (fun _ => False) Q)
    (hstart : Sure c.start) {entry : Env} {answer : Answer Word}
    {next : Answer Word → Program Outcome}
    (hprogram : (c.scene n).program i = .act (.endRun entry answer) next) :
    ∃ word, answer = .ok word := by
  obtain ⟨place, hstaged⟩ := hkeeps.staged hstart n
  have hstage := hstaged.stage i
  generalize place i = mine at hstage
  cases hstage with
  | waiting program =>
    rw [Code.outcome_eq, Session.ended_runMethod] at program
    cases program.symm.trans hprogram
  | finished program reports => cases program.symm.trans hprogram
  | @running run p program begun entered ensures =>
    cases p with
    | done result =>
      obtain ⟨answer', rfl, htrue⟩ := ensures _ hstaged.sure .refl
      cases answer' with
      | error fault => exact htrue.elim
      | ok word =>
        cases program.symm.trans hprogram
        exact ⟨word, rfl⟩
    | act action next' =>
      -- a program that takes only proper steps ends no run
      obtain ⟨hproper, -, -⟩ := ensures _ hstaged.sure .refl
      have haction : action = .endRun entry answer :=
        (Program.act.inj (program.symm.trans hprogram)).1
      subst haction
      have hended : (c.scene n).session.ledger.runs.erase entry =
          (c.scene n).session.ledger.runs := hproper.runs answer
      have hlength := List.length_erase_of_mem (a := entry) hproper.permitted
      have hpos := List.length_pos_of_mem (a := entry) hproper.permitted
      rw [hended] at hlength
      omega

/-! ### What is left to make -/

section Counting

variable {c : Crowd MarkSweep ι} {k count : Nat}
  {Q : ι → (entry : Env) → Word → Knowledge MarkSweep entry}

/-- Whether each thread has just so many objects left to make. -/
def Left (c : Crowd MarkSweep ι) (n : Nat) (left : ι → Nat) : Prop :=
  ∀ i, ((c.scene n).program i).Makes Outcome.Returned (left i)

variable (hkeeps : c.MethodsKeep width (SharesFit width k count) (fun _ => False) Q)
  (hstart : c.start.SharesFit width k count)

include hkeeps hstart

/-- What a thread does next is work, and what it is answered makes some of what it has left to
make. -/
theorem Left.spend {left : ι → Nat} (hleft : c.Left n left) {action : Action}
    {next : action.Reply → Program Outcome} (hprogram : (c.scene n).program i = .act action next) :
    action.works = true ∧ ∃ m j,
      action.makes ((c.scene n).session.reply (c.thread i) action) = some m ∧ left i = m + j ∧
      (next ((c.scene n).session.reply (c.thread i) action)).Makes Outcome.Returned j := by
  have hmakes := hleft i
  rw [hprogram] at hmakes
  have hcredible := Session.credible_reply (c.scene n).session (c.thread i) action
  exact (hmakes _ hcredible).resolve_left (hkeeps.not_fails hstart hprogram)

/-- What is made in a turn is counted, and not left any more. -/
theorem Left.step [Fintype ι] {left : ι → Nat} (hleft : c.Left n left) :
    ∃ left', c.Left (n + 1) left' ∧ (c.scene (n + 1)).session.allocations + ∑ i, left' i =
      (c.scene n).session.allocations + ∑ i, left i := by
  cases hprogram : (c.scene n).program (c.turn n) with
  | done outcome =>
    have hscene := (scene_succ (c := c) (n := n)).trans (after_over hprogram)
    refine ⟨left, fun i => ?_, ?_⟩
    · rw [hscene]
      exact hleft i
    · rw [hscene]
  | act action next =>
    have hscene := (scene_succ (c := c) (n := n)).trans (after_act hprogram)
    obtain ⟨place, hstaged⟩ := hkeeps.staged hstart n
    obtain ⟨-, m, j, hcount, heq, hnext⟩ := hleft.spend hkeeps hstart hprogram
    refine ⟨Function.update left (c.turn n) j, fun i => ?_, ?_⟩
    · rw [hscene]
      by_cases hi : i = c.turn n
      · subst hi
        simp only [Function.update_self]
        exact hnext
      · simp only [Function.update_of_ne hi]
        exact hleft i
    · have hcounted := Session.allocations_after hstaged.sure.toSound hstaged.sure.balanced
        (c.thread (c.turn n)) action
      rw [hcount, Option.getD_some] at hcounted
      rw [hscene, Finset.sum_update_of_mem (Finset.mem_univ (c.turn n)),
        Finset.sum_eq_add_sum_sdiff_singleton_of_mem (Finset.mem_univ (c.turn n)) left, heq,
        hcounted]
      omega

end Counting

end Crowd

/-! ### What a churn makes -/

namespace Workload

open Code

variable {env : Env} {base : Word} {head cursor : Handle} {n k length rounds i verified : Nat}

theorem makes_tagBelow {tag : Word} : (tagBelow tag n).Makes 0 := by
  unfold tagBelow
  split
  · exact .pure _
  · exact .throw _

theorem makes_buildCells : (buildCells env base n k head).Makes n := by
  induction n generalizing k head with
  | zero => exact .pure _
  | succ n ih =>
    rw [buildCells]
    refine .newObject fun cell => .bind_right makes_tagBelow fun tag =>
      .bind_right (.operation (.setData env cell tagSlot tag) id rfl) fun _ => ?_
    dsimp only
    split
    · exact .bind_right (.operation (.setReference env cell linkSlot head) id rfl) fun _ =>
        .bind_right (.operation (.release env head) id rfl) fun _ => ih
    · exact ih

theorem makes_buildList {args : List Word} : ((buildList length).body env args).Makes length :=
  .bind (k := 0) makes_buildCells fun _ => .pure _

theorem makes_verifyRest : (verifyRest env head base length n cursor).Makes 0 := by
  induction n generalizing cursor with
  | zero =>
    rw [verifyRest]
    split
    · exact .pure _
    · exact .throw _
  | succ n ih =>
    rw [verifyRest]
    dsimp only
    split
    · exact .throw_bind _
    refine .bind_right makes_tagBelow fun expected =>
      .bind_right (.operation (.getData env cursor tagSlot) id rfl) fun tag => ?_
    split
    · exact .throw_bind _
    refine .bind_right (.operation (.getReference env cursor linkSlot) id rfl) fun next => ?_
    split
    · exact .bind_right (.operation (.release env cursor) id rfl) fun _ => ih
    · exact ih

theorem makes_churnRounds : (churnRounds env length rounds i verified).Makes (rounds * length) := by
  induction rounds generalizing i verified with
  | zero =>
    rw [Nat.zero_mul]
    exact .pure _
  | succ rounds ih =>
    rw [Nat.succ_mul, Nat.add_comm (rounds * length), churnRounds]
    refine .bind_right makes_tagBelow fun base => .bind (.call fun _ => makes_buildList) fun word =>
      .bind_right (.bind_right makes_verifyRest fun _ => .pure _) fun visited => ?_
    dsimp only
    split
    · exact .bind_right (.operation (.release env word.toHandle) id rfl) fun _ => ih
    · exact ih

/-- A churn makes the cells of all its lists. -/
theorem makes_listChurn {args : List Word} :
    ((listChurn rounds length).body env args).Makes (rounds * length) :=
  .bind (k := 0) makes_churnRounds fun _ => .pure _

/-! ### Churns side by side -/

variable {ι : Type} [DecidableEq ι] [Fintype ι] {s : Session MarkSweep} {width iterations : Nat}
  {thread : ι → Thread} {turn : Nat → ι}

/-- Churns of lists of one length side by side. -/
def churns (s : Session MarkSweep) (iterations length : Nat) (thread : ι → Thread)
    (turn : Nat → ι) : Crowd MarkSweep ι :=
  ⟨s, fun _ => listChurn iterations length, thread, turn⟩

/-- Whether churns fare as they should: each that gets its turns comes to its end, each that is over
has returned minus the number of cells of its lists, no run is ended with a fault, no request for an
object is refused, and what is counted once all are over is just the cells of all lists. -/
structure NeverStarves (c : Crowd MarkSweep ι) (iterations length : Nat) : Prop where
  finishes : ∀ i, c.Recurs i → ∃ n outcome, (c.scene n).program i = .done outcome
  returns : ∀ n i outcome, (c.scene n).program i = .done outcome →
    ∃ word : Word, outcome = .finished (.ok word) ∧
      word.toInt = -((iterations * length : Nat) : Int)
  verifies : ∀ n i entry answer next, (c.scene n).program i = .act (.endRun entry answer) next →
    ∃ word, answer = .ok word
  served : ∀ n i env next, (c.scene n).program i = .act (.newObject env) next →
    ∃ o, (c.scene n).session.reply (c.thread i) (.newObject env) = .ok o
  counted : ∀ n, (∀ i, ∃ outcome, (c.scene n).program i = .done outcome) →
    (c.scene n).session.allocations =
      c.start.allocations + Fintype.card ι * iterations * length

omit [DecidableEq ι] in
theorem sureStays_churns (hnone : s.ledger.runs = []) :
    (churns s iterations length thread turn).SureStays width
      (SharesFit width length (Fintype.card ι)) where
  wellFormed _ h := h.toWellFormed
  begins s' place i t name h hrunsPlaced hplace := by
    have hdistinct : (s'.ledger.runs.map Env.stack).Nodup :=
      h.tallies.apart.sublist ((List.sublist_append_left _ _).map _)
    exact h.begins (hrunsPlaced.length_lt hnone hplace (List.Nodup.of_map _ hdistinct))
  ends _ _ _ _ h hbegun := h.ends hbegun

omit [DecidableEq ι] in
/-- Churns keep to their own stacks, and never stop early. -/
theorem methodsKeep_churns (thread : ι → Thread) (turn : Nat → ι) (hnone : s.ledger.runs = [])
    (hwidth : 2 ≤ width) (hcells : iterations * length < 0x8000000000000000)
    (hfit : iterations + length < 0x8000000000000000) :
    (churns s iterations length thread turn).MethodsKeep width
      (SharesFit width length (Fintype.card ι)) (fun _ => False)
      fun _ entry word => churned entry iterations length word where
  toSureStays := sureStays_churns hnone
  keeps i entry := by
    have hresources : ChurnResources ((churns s iterations length thread turn).context
        (SharesFit width length (Fintype.card ι)) (fun _ => False) i entry) width length
          (Fintype.card ι) :=
      ⟨rfl, fun _ ⟨_, _, hstops⟩ => hstops, hwidth⟩
    exact hresources.body iterations hfit []
  data i entry word s' hword := by
    obtain rfl : word = -(Word.ofCount (iterations * length)) := hword
    exact Word.target?_neg_ofCount hcells

section Together

variable (hshares : s.SharesFit width length (Fintype.card ι)) (hnone : s.ledger.runs = [])
  (hwidth : 2 ≤ width) (hcells : iterations * length < 0x8000000000000000)
  (hfit : iterations + length < 0x8000000000000000)

include hshares hnone hwidth hcells hfit

/-- What was made so far and what each thread has left to make are the cells of all lists. -/
theorem exists_left (n : Nat) :
    ∃ left, (churns s iterations length thread turn).Left n left ∧
      ((churns s iterations length thread turn).scene n).session.allocations + ∑ i, left i =
        s.allocations + Fintype.card ι * iterations * length := by
  induction n with
  | zero =>
    refine ⟨fun _ => iterations * length, fun i => Makes.outcome fun _ => makes_listChurn, ?_⟩
    rw [Finset.sum_const_nat fun _ _ => rfl, Finset.card_univ, ← Nat.mul_assoc]
    rfl
  | succ n ih =>
    obtain ⟨left, hleft, hsum⟩ := ih
    obtain ⟨left', hleft', hsum'⟩ :=
      hleft.step (methodsKeep_churns thread turn hnone hwidth hcells hfit) hshares
    exact ⟨left', hleft', hsum'.trans hsum⟩

/-- Churns work with frames alone. -/
theorem works_churns (thread : ι → Thread) (turn : Nat → ι) (n : Nat) (i : ι) (action : Action)
    (next : action.Reply → Program Outcome)
    (hprogram : ((churns s iterations length thread turn).scene n).program i = .act action next) :
    action.works = true := by
  obtain ⟨left, hleft, -⟩ := exists_left hshares hnone hwidth hcells hfit n
  exact (hleft.spend (methodsKeep_churns thread turn hnone hwidth hcells hfit) hshares hprogram).1

/-- In a well-formed session with room for all lists, churns never starve. -/
theorem never_starves :
    NeverStarves (churns s iterations length thread turn) iterations length := by
  have hkeeps := methodsKeep_churns (s := s) thread turn hnone hwidth hcells hfit
  refine ⟨fun i hrecurs => hrecurs.exists_over, fun n i outcome hover => ?_,
    fun n i entry answer next hprogram => hkeeps.ends_well hshares hprogram,
    fun n i env next hprogram => ?_, fun n hover => ?_⟩
  · obtain ⟨entry, answer, l, m, -, -, -, -, rfl, htrue⟩ := hkeeps.reports hshares hover
    cases answer with
    | error fault => exact htrue.elim
    | ok word =>
      obtain rfl : word = -(Word.ofCount (iterations * length)) := htrue
      exact ⟨_, rfl, Word.toInt_neg_ofCount hcells⟩
  · obtain ⟨left, hleft, -⟩ := exists_left hshares hnone hwidth hcells hfit n
    obtain ⟨-, m, j, hcount, -, -⟩ := hleft.spend hkeeps hshares hprogram
    generalize ((churns s iterations length thread turn).scene n).session.reply
      ((churns s iterations length thread turn).thread i) (.newObject env) = reply at hcount ⊢
    cases reply with
    | ok o => exact ⟨o, rfl⟩
    | error fault => cases hcount
  · obtain ⟨left, hleft, hsum⟩ := exists_left hshares hnone hwidth hcells hfit n
    have hzero : ∀ i, left i = 0 := by
      intro i
      obtain ⟨outcome, hprogram⟩ := hover i
      have hmakes := hleft i
      have hreturned := hkeeps.returns hshares n i
      rw [hprogram] at hmakes hreturned
      exact hmakes hreturned
    rw [Finset.sum_eq_zero fun i _ => hzero i] at hsum
    exact hsum

omit hshares hnone in
/-- Whatever went on before, churns fare as they would if the past were retired. -/
theorem never_starves_of_withoutPast
    (hshares : s.withoutPast.SharesFit width length (Fintype.card ι))
    (henvsAgree : EnvsAgree s.ledger.envs s.calls) (hgate : s.machine.gate.holder = none) :
    NeverStarves (churns s iterations length thread turn) iterations length := by
  have hnever :
      NeverStarves (churns s iterations length thread turn).withoutPast iterations length :=
    never_starves hshares rfl hwidth hcells hfit
  have hkeeps : (churns s iterations length thread turn).withoutPast.MethodsKeep width
      (SharesFit width length (Fintype.card ι)) (fun _ => False)
      fun _ entry word => churned entry iterations length word :=
    methodsKeep_churns thread turn rfl hwidth hcells hfit
  have hworks := works_churns hshares rfl hwidth hcells hfit thread turn
  have hresumes := Crowd.resumes hkeeps hshares hworks henvsAgree hgate
  refine ⟨fun i hrecurs => hrecurs.exists_over, fun n i outcome hover => ?_,
    fun n i entry answer next hprogram => ?_, fun n i env next hprogram => ?_, fun n hover => ?_⟩
  · rw [(hresumes n).program] at hover
    exact hnever.returns n i outcome hover
  · rw [(hresumes n).program] at hprogram
    exact hnever.verifies n i entry answer next hprogram
  · rw [← ((hresumes n).answers hkeeps hshares hworks hprogram).1]
    rw [(hresumes n).program] at hprogram
    exact hnever.served n i env next hprogram
  · rw [(hresumes n).program] at hover
    have hbooks := congrArg (fun m => m.stats.allocations) (hresumes n).session.allocator
    exact hbooks.symm.trans (hnever.counted n hover)

end Together

/-- Churns of lists never starve when their lists fit in the heap together: on a machine over mark
and sweep with two slots to a cell and room for a call, whatever went on before, once no stack is
registered and nobody holds the gate, so many threads as have their lists in the heap at once fare
as they should, on whatever schedule. -/
theorem churns_never_starve {maxPause : Duration} {clock : Nat → Duration} {config : MachineConfig}
    {start : Machine MarkSweep} {past : List Move}
    (hnew : start.OnNewHeap { MarkSweep.fresh maxPause with clock } config width)
    (hwidth : 2 ≤ width) (hdeep : 2 ≤ config.maxCallDepth) (hran : Session.Ran start past s)
    (hnone : s.calls.registered = [])
    (hgate : s.machine.gate.holder = none)
    (hroom : Fintype.card ι * length ≤ s.machine.heap.size - 1)
    (hcells : iterations * length < 0x8000000000000000)
    (hfit : iterations + length < 0x8000000000000000) :
    NeverStarves (churns s iterations length thread turn) iterations length := by
  obtain @⟨first, size, hbuild, hsize⟩ := hnew
  have hconfig : s.machine.config = config := hran.config_eq.trans (Session.config_of_build hbuild)
  have htallies := hran.tallies (Session.calls_of_build hbuild)
  have hbalanced := hran.balanced_any hbuild
  have hshape : (Heap.ofSize size width).SameShape s.machine.heap := by
    rw [← (Session.ready_of_build hbuild).2]
    exact hran.shape
  have hpositive : 0 < s.machine.heap.size := Nat.succ_pos _
  have hshares : s.withoutPast.SharesFit width length (Fintype.card ι) :=
    .of_idle (Session.wellFormed_withoutPast htallies hshape hsize hbalanced hnone hgate) hbalanced
      (hconfig ▸ hdeep) rfl (Nat.lt_of_le_pred hpositive hroom)
  exact never_starves_of_withoutPast hwidth hcells hfit hshares htallies.toEnvsAgree hgate

/-- Two churns that take turns in a heap with just enough cells for the lists of both, one of which
was handed out to a run that panicked. -/
theorem churns_never_starve_after_panic :
    ∃ (start : Machine MarkSweep) (past : List Move) (s : Session MarkSweep),
      Machine.build Thread.first (.ofSize 5 2)
          { MarkSweep.fresh .zero with clock := fun _ => .zero } .standard = .ok start ∧
        Session.Ran start past s ∧ s.ledger.broken = [⟨0, 0⟩] ∧
        (s.machine.frame ⟨0, 0⟩).handles = [1] ∧
        NeverStarves (churns s 3 2 Bool.toNat (· % 2 == 1)) 3 2 ∧
        ∀ i, ∃ n outcome, ((churns s 3 2 Bool.toNat (· % 2 == 1)).scene n).program i =
          .done outcome := by
  let start : Machine MarkSweep := (Machine.build Thread.first (.ofSize 5 2)
    { MarkSweep.fresh .zero with clock := fun _ => .zero } .standard).toOption.get rfl
  have hbuild : Machine.build Thread.first (.ofSize 5 2)
      { MarkSweep.fresh .zero with clock := fun _ => .zero } .standard = .ok start := rfl
  let s : Session MarkSweep := (((Session.opening start).after Thread.first
    (.beginRun "entry" [])).after Thread.first (.newObject ⟨0, 0⟩)).after Thread.first
      (.abandonRun ⟨0, 0⟩)
  have hran : Session.Ran start _ s :=
    ((Session.Ran.opening.move Thread.first (.beginRun "entry" []) trivial).move Thread.first
      (.newObject ⟨0, 0⟩) (List.mem_singleton.2 rfl)).move Thread.first
        (.abandonRun ⟨0, 0⟩) (List.mem_singleton.2 rfl)
  have hroom : Fintype.card Bool * 2 ≤ s.machine.heap.size - 1 := by
    rw [hran.shape.size]
    decide
  have hnever : NeverStarves (churns s 3 2 Bool.toNat (· % 2 == 1)) 3 2 :=
    churns_never_starve ⟨hbuild, by decide⟩ (by decide) (by decide) hran (by decide +kernel)
      (by decide +kernel) hroom (by decide) (by decide)
  have hbroken : s.ledger.broken = [⟨0, 0⟩] := by decide +kernel
  have hheld : (s.machine.frame ⟨0, 0⟩).handles = [1] := by decide +kernel
  have hrecurs : ∀ i, (churns s 3 2 Bool.toNat (· % 2 == 1)).Recurs i :=
    Crowd.recurs_of_turns fun _ => rfl
  exact ⟨start, _, s, hbuild, hran, hbroken, hheld, hnever,
    fun i => hnever.finishes i (hrecurs i)⟩

end Workload

end RootedHeap
