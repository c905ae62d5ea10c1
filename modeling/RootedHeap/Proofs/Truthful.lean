import RootedHeap.Proofs.Crowds
import RootedHeap.Proofs.RandomGraphs

/-!
Random graphs never misreport. Each thread of a crowd of random graphs returns minus the number of
objects that its frame holds when its run ends, or reports that memory is out, whatever the choices
and the schedule are: no object is found without its tag, and no operation of a frame is refused.
Over mark and sweep a random graph that has the memory to itself always returns, for whatever it
lets go of can be used again.
-/

namespace RootedHeap

namespace Workload

variable {A ι G : Type}

structure Graph (G : Type) where
  iterations : Nat
  maxLive : Nat
  draws : G

def Graph.method [Draws G] (graph : Graph G) : Method :=
  randomGraph graph.iterations graph.maxLive graph.draws

/-- Whether what comes of a random graph is true when its run ends: it returns minus the number of
objects that its frame holds, or memory is out. -/
def Truthful (s : Session A) (entry : Env) : Answer Word → Prop
  | .ok word => word.toInt = -((s.machine.frame entry).handles.length : Int)
  | .error fault => fault = .outOfMemory

variable [Allocator A] [DecidableEq ι] [Draws G]

def graphs (s : Session A) (graph : ι → Graph G) (thread : ι → Thread) (turn : Nat → ι) :
    Crowd A ι :=
  ⟨s, fun i => (graph i).method, thread, turn⟩

/-- Whether each thread that is over has reported the truth, and each thread that gets its turns
comes to be over. -/
structure NeverMisreports (c : Crowd A ι) : Prop where
  truthful : ∀ n i outcome, (c.scene n).program i = .done outcome →
    c.Reports (fun entry answer s => Truthful s entry answer) i n outcome
  finishes : ∀ i, c.Recurs i → ∃ n outcome, (c.scene n).program i = .done outcome

variable [LawfulCollector A] [LawfulDraws G] {s : Session A} {width : Nat} {graph : ι → Graph G}
  {thread : ι → Thread} {turn : Nat → ι}

omit [DecidableEq ι] [Draws G] [LawfulDraws G] [LawfulCollector A] [Allocator A] in
theorem target?_of_counting {env : Env} {n : Nat} {word : Word} (hn : n < 0x8000000000000000)
    (hword : (counting A env n word).Holds s) :
    word.toInt = -((s.machine.frame env).handles.length : Int) ∧ word.target? = none := by
  obtain ⟨held, ⟨hle, rfl⟩, hholding⟩ := hword
  have hlt := hle.trans_lt hn
  refine ⟨?_, Word.target?_neg_ofCount hlt⟩
  rw [Word.toInt_neg_ofCount hlt, hholding.holds]

omit [DecidableEq ι] in
/-- Random graphs keep to their own stacks. -/
theorem methodsKeep_graphs (hwidth : 0 < width)
    (hiterations : ∀ i, (graph i).iterations < 0x8000000000000000) :
    (graphs s graph thread turn).MethodsKeep width (Session.WellFormed width) (· = .outOfMemory)
      fun i entry word => counting A entry (graph i).iterations word where
  wellFormed _ h := h
  begins _ _ _ _ _ h _ _ := h.after trivial rfl
  ends _ _ _ _ h hbegun := h.after hbegun rfl
  keeps i entry := by
    have hresources :
        GraphResources ((graphs s graph thread turn).context (Session.WellFormed width)
        (· = .outOfMemory) i entry) width :=
      ⟨fun _ h => h, fun _ _ h hproper => Session.WellFormed.after h hproper.permitted
        hproper.orderly, hwidth, fun _ _ _ _ => ⟨.outOfMemory, rfl, rfl⟩⟩
    have hbody := hresources.body (graph i).iterations (graph i).maxLive (graph i).draws
      (hiterations i) []
    exact hbody.of_imp fun _ (h : Session.AloneHolding entry [] _) => ⟨h, .nil⟩
  data i entry word s hword := (target?_of_counting (hiterations i) hword).2

theorem never_misreports (hs : s.WellFormed width) (hwidth : 0 < width)
    (hiterations : ∀ i, (graph i).iterations < 0x8000000000000000) :
    NeverMisreports (graphs s graph thread turn) where
  truthful n i outcome hover := by
    obtain ⟨entry, answer, l, m, hlm, hmn, hentered, hleft, houtcome, htrue⟩ :=
      (methodsKeep_graphs hwidth hiterations).reports hs hover
    refine ⟨entry, answer, l, m, hlm, hmn, hentered, hleft, houtcome, ?_⟩
    rcases answer with fault | word
    · exact htrue
    · exact (target?_of_counting (hiterations i) htrue).1
  finishes i hrecurs := hrecurs.exists_over

end Workload

/-! ### A random graph by itself -/

namespace Session

variable {A : Type} [Allocator A] {s : Session A} {t : Thread} {entry : Env} {method : Method}

/-- The session in which a run of a method is about to end, when nothing else goes on. -/
def leaving (s : Session A) (t : Thread) (method : Method) (entry : Env) : Session A :=
  ((s.after t (.beginRun method.name [])).play t (method.body entry []).ended).2

/-- A run by itself is reported as what its method comes to, if that is data or a fault. -/
theorem play_outcome {answer : Answer Word}
    (hbegun : s.reply t (.beginRun method.name []) = .ok entry)
    (hending : ((s.after t (.beginRun method.name [])).play t (method.body entry []).ended).1 =
      answer.ending)
    (hdata : ∀ word, answer = .ok word → word.target? = none) :
    s.play t (Code.runMethod method []).outcome =
      (.finished answer, (s.leaving t method entry).after t (.endRun entry answer)) := by
  rw [Code.outcome_eq, ended_runMethod]
  change s.play t (.act (.beginRun method.name []) _) = _
  rw [play, hbegun]
  exact play_reported hending hdata

/-- A run that begins while no stack is registered is the only one. -/
theorem WellFormed.only_of_begun [LawfulCollector A] {width : Nat} {name : String}
    {args : List Word} (hs : s.WellFormed width) (hnone : s.calls.registered = [])
    (hbegun : s.reply t (.beginRun name args) = .ok entry) :
    (s.after t (.beginRun name args)).ledger.runs = [entry] := by
  rw [runs_of_begun hbegun]
  cases hruns : s.ledger.runs with
  | nil => rfl
  | cons run rest =>
    have hmem : run.stack ∈ s.calls.registered :=
      (hs.tallies.registered _).2 ⟨run, hruns ▸ List.mem_cons_self, rfl⟩
    rw [hnone] at hmem
    cases hmem

variable {width : Nat} {s : Session MarkSweep}

/-- Where a run over mark and sweep is the only one: the session is well formed, the books are in
balance, and there is a cell. -/
structure Solitary (width : Nat) (entry : Env) (s : Session MarkSweep) : Prop
    extends s.WellFormed width where
  balanced : s.machine.allocator.Balanced s.machine.heap.size
  only : s.ledger.runs = [entry]
  room : 2 ≤ s.machine.heap.size

namespace Solitary

theorem after {action : Action} (hs : s.Solitary width entry) (hproper : s.Proper entry action) :
    (s.after t action).Solitary width entry where
  toWellFormed := hs.toWellFormed.after hproper.permitted hproper.orderly
  balanced := balanced_after hs.toSound hproper.orderly hproper.permitted hs.balanced
  only := (hproper.runs _).trans hs.only
  room := by
    rw [(hs.arena hproper.permitted hproper.orderly).2, Heap.size_after]
    exact hs.room

/-- While the only frame holds nothing there is memory. -/
theorem newObject_ne (hs : s.Solitary width entry) (hholding : s.AloneHolding entry []) :
    s.reply t (.newObject entry) ≠ .error .outOfMemory := by
  intro hout
  have hall := (newObject_exhausted_iff hs.toSound hs.balanced hholding.active).1 hout
  have hnone : ∀ r ∈ s.calls.roots, r ∈ ([] : List Handle) := by
    intro r hr
    obtain ⟨k, hk, f, hf, hheld⟩ := CallStacks.mem_roots_iff.1 hr
    obtain ⟨entry', hentry', rfl⟩ := (hs.tallies.registered k).1 hk
    rw [hs.only, List.mem_singleton] at hentry'
    subst hentry'
    rw [← hholding.stackRoots]
    exact CallStacks.mem_stackRoots_iff.2 ⟨f, hf, hheld⟩
  have hcell : s.machine.heap.contains 1 = true := Heap.contains_iff.2 ⟨by decide, hs.room⟩
  exact Heap.not_reaches_empty ((hall 1 hcell).mono hnone)

/-- A run begins while no stack is registered. -/
theorem of_begun {name : String} (hs : s.WellFormed width)
    (hm : s.machine.allocator.Balanced s.machine.heap.size) (hroom : 2 ≤ s.machine.heap.size)
    (hnone : s.calls.registered = []) (hbegun : s.reply t (.beginRun name []) = .ok entry) :
    (s.after t (.beginRun name [])).Solitary width entry where
  toWellFormed := hs.after trivial rfl
  balanced := balanced_after hs.toSound rfl trivial hm
  only := hs.only_of_begun hnone hbegun
  room := by
    have hpermitted : s.ledger.permits (.beginRun name []) := trivial
    rw [(hs.arena (t := t) hpermitted rfl).2, Heap.size_after]
    exact hroom

end Solitary

end Session

namespace Workload

variable {G : Type} [Draws G] [LawfulDraws G] {width : Nat} {s : Session MarkSweep} {t : Thread}

/-- What comes of a random graph that runs by itself: it returns, and what it returns is true. -/
def Returns {A : Type} [Allocator A] (s : Session A) (t : Thread) (graph : Graph G) : Prop :=
  ∃ entry word, s.reply t (.beginRun graph.method.name []) = .ok entry ∧
    ((Code.runMethod graph.method []).outcome.run t s.world).1 = .finished (.ok word) ∧
    Truthful (s.leaving t graph.method entry) entry (.ok word)

theorem returns (hs : s.WellFormed width) (hm : s.machine.allocator.Balanced s.machine.heap.size)
    (hroom : 2 ≤ s.machine.heap.size) (hnone : s.calls.registered = []) (hwidth : 0 < width)
    (graph : Graph G) (hiterations : graph.iterations < 0x8000000000000000) :
    Returns s t graph := by
  let entry : Env := ⟨s.calls.known.size, s.calls.frames.size⟩
  have hbegun : s.reply t (.beginRun graph.method.name []) = .ok entry := Session.reply_beginRun ..
  let b : CodeContext MarkSweep := ⟨t, entry, Session.Solitary width entry, fun _ => False⟩
  have hresources : GraphResources b width :=
    ⟨fun _ h => h.toWellFormed, fun _ _ h hproper => Session.Solitary.after h hproper, hwidth,
      fun _ (h : Session.Solitary width entry _) hmatch hout =>
        h.newObject_ne hmatch.toAloneHolding hout⟩
  have hsure := Session.Solitary.of_begun hs hm hroom hnone hbegun
  have hensures := hresources.body graph.iterations graph.maxLive graph.draws hiterations [] _ hsure
    ⟨Session.aloneHolding_begun hbegun, .nil⟩
  have hresult : b.Ending (counting MarkSweep entry graph.iterations)
      ((s.after t (.beginRun graph.method.name [])).play t (graph.method.body entry []).ended).1
      (s.leaving t graph.method entry) :=
    (hensures.play hsure).2
  rcases hplayed : ((s.after t (.beginRun graph.method.name [])).play t
    (graph.method.body entry []).ended).1 with interrupt | word
  · rw [hplayed] at hresult
    exact hresult.elim
  · rw [hplayed] at hresult
    obtain ⟨hvalue, hdata⟩ := target?_of_counting hiterations hresult
    refine ⟨entry, word, hbegun, ?_, hvalue⟩
    rw [Session.run_eq_play]
    have hanswer : ∀ word', (Except.ok word : Answer Word) = .ok word' → word'.target? = none := by
      intro word' hok
      obtain rfl := Except.ok.inj hok
      exact hdata
    have hending : _ = Answer.ending (.ok word) := hplayed
    exact congrArg Prod.fst (Session.play_outcome hbegun hending hanswer)

/-! ### On every machine -/

open Session

/-- What is said of random graphs over one kind of allocator: on a machine whose memory has no more
cells than a word can number, as any memory has, after whatever orderly use of it, with whatever
lawful draws and on whatever schedule, none misreports. -/
def NeverMisreport (A : Type) [Allocator A] : Prop :=
  ∀ (allocator : A) (config : MachineConfig) (width : Nat) (s : Session A),
    s.OrderlyOver allocator config width → 0 < width →
    ∀ (ι G : Type) [DecidableEq ι] [Draws G] [LawfulDraws G] (graph : ι → Graph G)
      (thread : ι → Thread) (turn : Nat → ι),
      (∀ i, (graph i).iterations < 0x8000000000000000) →
        NeverMisreports (graphs s graph thread turn)

/-- What is said of a random graph over mark and sweep: where there is a cell and no other stack is
registered, it returns. -/
def AlwaysReturns : Prop :=
  ∀ (maxPause : Duration) (clock : Nat → Duration) (config : MachineConfig) (width : Nat)
    (s : Session MarkSweep), s.LeftIdle { MarkSweep.fresh maxPause with clock } config width →
    0 < width → 2 ≤ s.machine.heap.size →
    ∀ (G : Type) [Draws G] [LawfulDraws G] (graph : Graph G) (t : Thread),
      graph.iterations < 0x8000000000000000 → Returns s t graph

omit [Draws G] [LawfulDraws G] in
theorem neverMisreport_of_lawful {A : Type} [Allocator A] [LawfulCollector A] :
    NeverMisreport A := by
  intro allocator config width s hs hwidth ι G _ _ _ graph thread turn hiterations
  exact never_misreports hs.wellFormed hwidth hiterations

/-- Random graphs never misreport, whichever allocator they run over, and a random graph that has
mark and sweep to itself always returns. -/
theorem random_graphs_tell_the_truth :
    NeverMisreport MarkSweep ∧ NeverMisreport Bump ∧ AlwaysReturns := by
  refine ⟨neverMisreport_of_lawful, neverMisreport_of_lawful, ?_⟩
  intro maxPause clock config width s hs hwidth hroom G _ _ graph t hiterations
  exact returns hs.orderly.wellFormed hs.orderly.balanced hroom hs.unregistered hwidth graph
    hiterations

def pair (i : Bool) : Graph ChaCha := ⟨5, 2, ChaCha.ofSeed (if i then 7 else 11)⟩

def alternating {A : Type} [Allocator A] (start : Machine A) : Crowd A Bool :=
  graphs (Session.opening start) pair Bool.toNat (· % 2 == 1)

theorem recurs_alternating {A : Type} [Allocator A] (start : Machine A) (i : Bool) :
    (alternating start).Recurs i :=
  Crowd.recurs_of_turns (fun _ => rfl) i

/-- What is said of all random graphs, said of two that take turns over mark and sweep and over a
counter, and of one that has mark and sweep with two cells to itself. -/
theorem random_graphs_tell_the_truth_alternating :
    ∃ (start : Machine MarkSweep) (start' : Machine Bump),
      Machine.build Thread.first (.ofSize 3 2)
          { MarkSweep.fresh .zero with clock := fun _ => .zero } .standard = .ok start ∧
        Machine.build Thread.first (.ofSize 3 2) Bump.fresh .standard = .ok start' ∧
        (∀ i, ∃ n outcome, ((alternating start).scene n).program i = .done outcome ∧
          (alternating start).Reports (fun entry answer s => Truthful s entry answer) i n
            outcome) ∧
        (∀ i, ∃ n outcome, ((alternating start').scene n).program i = .done outcome ∧
          (alternating start').Reports (fun entry answer s => Truthful s entry answer) i n
            outcome) ∧
        Returns (Session.opening start) 0 (pair false) := by
  let start : Machine MarkSweep := (Machine.build Thread.first (.ofSize 3 2)
    { MarkSweep.fresh .zero with clock := fun _ => .zero } .standard).toOption.get rfl
  let start' : Machine Bump := (Machine.build Thread.first (.ofSize 3 2) Bump.fresh
    .standard).toOption.get rfl
  have hbuild : Machine.build Thread.first (.ofSize 3 2)
      { MarkSweep.fresh .zero with clock := fun _ => .zero } .standard = .ok start := rfl
  have hbuild' : Machine.build Thread.first (.ofSize 3 2) Bump.fresh .standard = .ok start' := rfl
  have hiterations : ∀ i, (pair i).iterations < 0x8000000000000000 :=
    fun _ => (by decide : 5 < 0x8000000000000000)
  obtain ⟨hsweep, hbump, halone⟩ := random_graphs_tell_the_truth
  have horderly := OrderlyOver.opening ⟨hbuild, by decide⟩
  have horderly' := OrderlyOver.opening ⟨hbuild', by decide⟩
  have htrue := hsweep _ _ _ _ horderly (by decide) Bool ChaCha pair Bool.toNat (· % 2 == 1)
    hiterations
  have htrue' := hbump _ _ _ _ horderly' (by decide) Bool ChaCha pair Bool.toNat (· % 2 == 1)
    hiterations
  refine ⟨start, start', hbuild, hbuild', fun i => ?_, fun i => ?_, ?_⟩
  · obtain ⟨n, outcome, hover⟩ := htrue.finishes i (recurs_alternating start i)
    exact ⟨n, outcome, hover, htrue.truthful n i outcome hover⟩
  · obtain ⟨n, outcome, hover⟩ := htrue'.finishes i (recurs_alternating start' i)
    exact ⟨n, outcome, hover, htrue'.truthful n i outcome hover⟩
  · exact halone _ _ _ _ _ ⟨horderly, rfl⟩ (by decide) (by decide) ChaCha (pair false) 0
      (hiterations false)

end Workload

end RootedHeap
