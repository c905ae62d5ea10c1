import RootedHeap.Proofs.Crowds
import RootedHeap.Proofs.Exhaustion

/-!
Memory shared out. If the stack of every run keeps within a share of cells, and the shares of all
runs fit in the heap, then a run that has a cell of its share to spare is not refused an object:
were all cells in reach, the shares would not have been kept. A run that works within its share
leaves the others theirs, so `SharesFit` lasts for as long as each run keeps to its own share.
-/

namespace RootedHeap

theorem length_flatMap_le {α β : Type} {l : List α} {f : α → List β} {n : Nat}
    (hle : ∀ a ∈ l, (f a).length ≤ n) : (l.flatMap f).length ≤ l.length * n := by
  induction l with
  | nil => exact Nat.zero_le _
  | cons a l ih =>
    obtain ⟨ha, hrest⟩ := List.forall_mem_cons.1 hle
    rw [List.flatMap_cons, List.length_append, List.length_cons, Nat.succ_mul, Nat.add_comm]
    exact Nat.add_le_add (ih hrest) ha

/-- Lists that keep within a bound, one of which stays below it, are not as long as all bounds
together. -/
theorem length_flatMap_lt {α β : Type} {l : List α} {f : α → List β} {n : Nat}
    (hle : ∀ a ∈ l, (f a).length ≤ n) {b : α} (hb : b ∈ l) (hlt : (f b).length < n) :
    (l.flatMap f).length < l.length * n := by
  induction l with
  | nil => cases hb
  | cons a l ih =>
    obtain ⟨ha, hrest⟩ := List.forall_mem_cons.1 hle
    rw [List.flatMap_cons, List.length_append, List.length_cons, Nat.succ_mul, Nat.add_comm]
    rcases List.mem_cons.1 hb with rfl | hb
    · exact Nat.add_lt_add_of_le_of_lt (length_flatMap_le hrest) hlt
    · exact Nat.add_lt_add_of_lt_of_le (ih hrest hb) ha

namespace Session

section ReachesAtMost

variable {A : Type} {s s' : Session A} {env who : Env} {n : Nat}

/-- Whether all that the stack of a frame reaches is among so many cells. -/
def ReachesAtMost (n : Nat) (env : Env) (s : Session A) : Prop :=
  ∃ cells : List Handle, cells.length ≤ n ∧
    ∀ h, s.machine.heap.Reaches (s.calls.stackRoots env.stack) h → h ∈ cells

theorem ReachesAtMost.unnoticed (h : s.ReachesAtMost n env) (hun : s.Unnoticed env s') :
    s'.ReachesAtMost n env := by
  obtain ⟨cells, hle, hcells⟩ := h
  exact ⟨cells, hle, fun x hx => hcells x ((hun.reach x).1 hx)⟩

theorem ReachesAtMost.of_stack (h : s.ReachesAtMost n env) (hstack : who.stack = env.stack) :
    s.ReachesAtMost n who := by
  unfold ReachesAtMost
  rw [hstack]
  exact h

variable [Allocator A] [LawfulCollector A]

/-- What is in reach is in reach of the stack of some run. -/
theorem Sound.exists_run (hs : s.Sound) {h : Handle}
    (hh : s.machine.heap.Reaches s.calls.roots h) :
    ∃ run ∈ s.ledger.runs, s.machine.heap.Reaches (s.calls.stackRoots run.stack) h := by
  induction hh with
  | @root r hroot =>
    obtain ⟨k, hk, f, hf, hheld⟩ := CallStacks.mem_roots_iff.1 hroot
    obtain ⟨run, hrun, rfl⟩ := (hs.tallies.registered k).1 hk
    exact ⟨run, hrun, .root (CallStacks.mem_stackRoots_iff.2 ⟨f, hf, hheld⟩)⟩
  | link _ hlink ih =>
    obtain ⟨run, hrun, hreach⟩ := ih
    exact ⟨run, hrun, .link hreach hlink⟩

/-- A stack with a frame is that of a run. -/
theorem Sound.run_of_frame (hs : s.Sound) {k : StackRef} {f : FrameRef}
    (hf : f ∈ (s.calls.stack k).frames) : ∃ run ∈ s.ledger.runs, run.stack = k := by
  obtain ⟨run, hrun, hk⟩ := hs.tallies.owned k f hf
  rw [Ledger.entries, hs.unbroken, List.append_nil] at hrun
  exact ⟨run, hrun, hk⟩

end ReachesAtMost

variable {s : Session MarkSweep} {t : Thread} {env who run : Env} {width n count : Nat}
  {action : Action}

/-- Whether a session over mark and sweep has room for so many runs with a share of so many cells
each, and for a call in each run. -/
structure SharesFit (width n count : Nat) (s : Session MarkSweep) : Prop
    extends s.WellFormed width where
  balanced : s.machine.allocator.Balanced s.machine.heap.size
  deep : 2 ≤ s.machine.config.maxCallDepth
  few : s.ledger.runs.length ≤ count
  reachesAtMost : ∀ run ∈ s.ledger.runs, s.ReachesAtMost n run
  room : count * n < s.machine.heap.size

namespace SharesFit

/-- Where no run goes on there is room for so many, if their shares fit in the heap. -/
theorem of_idle (hs : s.WellFormed width) (hm : s.machine.allocator.Balanced s.machine.heap.size)
    (hdeep : 2 ≤ s.machine.config.maxCallDepth) (hnone : s.ledger.runs = [])
    (hroom : count * n < s.machine.heap.size) : s.SharesFit width n count where
  toWellFormed := hs
  balanced := hm
  deep := hdeep
  few := by
    rw [hnone]
    exact Nat.zero_le _
  reachesAtMost run hrun := by
    rw [hnone] at hrun
    cases hrun
  room := hroom

/-- Whatever is orderly and within the rules leaves room, if the runs that go on keep within their
shares. -/
theorem step (hs : s.SharesFit width n count) (hpermits : s.ledger.permits action)
    (horderly : action.orderly = true)
    (hfew : (s.after t action).ledger.runs.length ≤ count)
    (hatMost : ∀ run ∈ (s.after t action).ledger.runs, (s.after t action).ReachesAtMost n run) :
    (s.after t action).SharesFit width n count where
  toWellFormed := hs.toWellFormed.after hpermits horderly
  balanced := balanced_after hs.toSound horderly hpermits hs.balanced
  deep := by
    rw [config_after]
    exact hs.deep
  few := hfew
  reachesAtMost := hatMost
  room := by
    rw [(hs.arena hpermits horderly).2, Heap.size_after]
    exact hs.room

/-- Orderly work on other stacks leaves a run its share. -/
theorem reachesAtMost_after (hs : s.SharesFit width n count) (hpermits : s.ledger.permits action)
    (horderly : action.orderly = true) (hrun : run ∈ s.ledger.runs)
    (hoff : action.stack s.calls ≠ run.stack) : (s.after t action).ReachesAtMost n run :=
  (hs.reachesAtMost run hrun).unnoticed (hs.toWellFormed.unnoticed hpermits horderly hoff)

theorem run_known (hs : s.SharesFit width n count) (hrun : run ∈ s.ledger.runs) :
    run.stack < s.calls.known.size :=
  hs.tallies.known run (hs.tallies.entered run (List.mem_append_left _ hrun)).1

/-- Work that is a program's own business leaves room, if its stack keeps within its share. -/
theorem after (hs : s.SharesFit width n count) (hproper : s.Proper env action)
    (hown : (s.after t action).ReachesAtMost n env) :
    (s.after t action).SharesFit width n count := by
  have hruns : (s.after t action).ledger.runs = s.ledger.runs := hproper.runs _
  refine hs.step hproper.permitted hproper.orderly (hruns ▸ hs.few) fun run hrun => ?_
  rw [hruns] at hrun
  by_cases hstack : run.stack = env.stack
  · exact hown.of_stack hstack
  · refine hs.reachesAtMost_after hproper.permitted hproper.orderly hrun fun heq => ?_
    rcases hproper.placed with hplace | hplace
    · exact hstack (heq.symm.trans hplace)
    · exact Nat.ne_of_lt (hs.run_known hrun) (heq.symm.trans hplace)

/-- A run that begins holds nothing. -/
theorem begins {name : String} (hs : s.SharesFit width n count)
    (hfew : s.ledger.runs.length < count) :
    (s.after t (.beginRun name [])).SharesFit width n count := by
  have hbegun : s.reply t (.beginRun name []) =
      .ok ⟨s.calls.known.size, s.calls.frames.size⟩ := reply_beginRun ..
  have hruns := runs_of_begun hbegun
  refine hs.step trivial rfl ?_ fun run hrun => ?_
  · rw [hruns, List.length_append]
    exact hfew
  · rw [hruns] at hrun
    rcases List.mem_append.1 hrun with hold | hnew
    · exact hs.reachesAtMost_after trivial rfl hold (Nat.ne_of_gt (hs.run_known hold))
    · obtain rfl := List.mem_singleton.1 hnew
      refine ⟨[], Nat.zero_le n, fun h hreach => ?_⟩
      rw [(aloneHolding_begun hbegun).stackRoots] at hreach
      exact absurd hreach Heap.not_reaches_empty

/-- A run that ends leaves room. -/
theorem ends {answer : Answer Word} (hs : s.SharesFit width n count)
    (hbegun : run ∈ s.ledger.runs) :
    (s.after t (.endRun run answer)).SharesFit width n count := by
  have hruns : (s.after t (.endRun run answer)).ledger.runs = s.ledger.runs.erase run := rfl
  have hdistinct : (s.ledger.runs.map Env.stack).Nodup :=
    hs.tallies.apart.sublist ((List.sublist_append_left _ _).map _)
  refine hs.step hbegun rfl ?_ fun other hother => ?_
  · rw [hruns]
    exact List.length_erase_le.trans hs.few
  · rw [hruns, (List.Nodup.of_map _ hdistinct).mem_erase_iff] at hother
    refine hs.reachesAtMost_after hbegun rfl hother.2 fun heq => ?_
    exact hother.1 (List.inj_on_of_nodup_map hdistinct hother.2 hbegun heq.symm)

/-- A run with a cell of its share to spare is not refused an object. -/
theorem newObject_ne (hs : s.SharesFit width n count)
    (hactive : (s.machine.frame who).state = .active) (hrun : ∃ run ∈ s.ledger.runs,
      run.stack = env.stack) (hspare : ∃ k < n, s.ReachesAtMost k env) :
    s.reply t (.newObject who) ≠ .error .outOfMemory := by
  intro hout
  have hall := (newObject_exhausted_iff hs.toSound hs.balanced hactive).1 hout
  obtain ⟨own, hown, hstack⟩ := hrun
  obtain ⟨k, hk, hspare⟩ := hspare
  -- each run's own list of cells, and a shorter one for the run that asks
  have hshares : ∀ run ∈ s.ledger.runs, ∃ cells : List Handle,
      cells.length ≤ n ∧ (run = own → cells.length < n) ∧
        ∀ h, s.machine.heap.Reaches (s.calls.stackRoots run.stack) h → h ∈ cells := by
    intro run hrun
    by_cases heq : run = own
    · obtain ⟨cells, hle, hcells⟩ := hspare.of_stack (heq ▸ hstack)
      exact ⟨cells, hle.trans (Nat.le_of_lt hk), fun _ => Nat.lt_of_le_of_lt hle hk, hcells⟩
    · obtain ⟨cells, hle, hcells⟩ := hs.reachesAtMost run hrun
      exact ⟨cells, hle, fun h => absurd h heq, hcells⟩
  choose! share hle hlt hcells using hshares
  have hcover : s.machine.heap.handles ⊆ s.ledger.runs.flatMap share := by
    intro h hh
    obtain ⟨run, hrun, hreach⟩ := hs.toSound.exists_run (hall h (Heap.mem_handles_iff.1 hh))
    exact List.mem_flatMap.2 ⟨run, hrun, hcells run hrun h hreach⟩
  have hlength : s.machine.heap.handles.length ≤ (s.ledger.runs.flatMap share).length :=
    (List.subperm_of_subset List.nodup_range' hcover).length_le
  have hless : (s.ledger.runs.flatMap share).length < s.ledger.runs.length * n :=
    length_flatMap_lt hle hown (hlt own hown rfl)
  have hcount : s.ledger.runs.length * n ≤ count * n := Nat.mul_le_mul_right n hs.few
  have hsize : s.machine.heap.handles.length + 1 = s.machine.heap.size := by
    rw [Heap.handles, List.length_range', Heap.size]
  have hroom := hs.room
  omega

end SharesFit

end Session

end RootedHeap
