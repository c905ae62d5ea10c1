import RootedHeap.Proofs.Tallies

/-!
Which frames are rooted. A run whose entry method panics is cut off without its frames leaving the
stack. Those frames stay active on a stack that is registered no more, and they are the only ones:
`Session.RootedUnlessCutOff` tells which active frames are rooted, which environments are still
answered when their activation is over, and which objects are enumerated. It holds in every session,
whatever the allocator.
-/

namespace RootedHeap

/-! ### Refusals -/

namespace Machine

variable {A : Type} [Allocator A] {m : Machine A} {env : Env}

/-- An environment whose operations all answer that its frame is inactive, and do nothing. -/
structure Refuses (m : Machine A) (env : Env) : Prop where
  newObject : ∀ t, m.newObject t env = (.error (.inactiveFrame (m.frame env).depth), m)
  getReference : ∀ t object slot,
    m.getReference t env object slot = (.error (.inactiveFrame (m.frame env).depth), m)
  getData : ∀ t object slot,
    m.getData t env object slot = (.error (.inactiveFrame (m.frame env).depth), m)
  setReference : ∀ t object slot target,
    m.setReference t env object slot target = (.error (.inactiveFrame (m.frame env).depth), m)
  setData : ∀ t object slot word,
    m.setData t env object slot word = (.error (.inactiveFrame (m.frame env).depth), m)
  release : ∀ t object,
    m.release t env object = (.error (.inactiveFrame (m.frame env).depth), m)
  beginCall : ∀ t name args,
    m.beginCall t env name args = (.error (.inactiveFrame (m.frame env).depth), m)

/-- The environments that are refused everything are those whose frames are not active. -/
theorem refuses_iff : m.Refuses env ↔ (m.frame env).state ≠ .active := by
  constructor
  · intro hrefuses hactive
    -- an active frame is told of an object that it does not hold, or lets it go
    have hcheck : m.checkActive env = .ok () := checkActive_eq_ok.2 hactive
    have hanswer := congrArg Prod.fst (hrefuses.release 0 0)
    rw [release_eq, releasable, hcheck, checkHeld_eq] at hanswer
    dsimp only [bind, Except.bind] at hanswer
    split at hanswer <;> cases hanswer
  · intro hinactive
    have hcheck : m.checkActive env = .error (.inactiveFrame (m.frame env).depth) :=
      if_neg hinactive
    refine ⟨fun t => ?_, fun t object slot => ?_, fun t object slot => ?_,
      fun t object slot target => ?_, fun t object slot word => ?_, fun t object => ?_,
      fun t name args => ?_⟩
    · rw [newObject_eq, hcheck]
    · rw [getReference_eq, referenceAt, hcheck]
      rfl
    · rw [getData_eq, dataAt, hcheck]
      rfl
    · rw [setReference_eq, storableReference, hcheck]
      rfl
    · rw [setData_eq, storableData, hcheck]
      rfl
    · rw [release_eq, releasable, hcheck]
      rfl
    · obtain ⟨text, heq⟩ := beginCall_eq m t env name args
      rw [heq, callable, hcheck]
      rfl

end Machine

/-! ### Which frames are rooted -/

/-- An environment kept past the end of its activation: it was given out, and neither its run nor
its call is still going on. -/
def Ledger.Over (l : Ledger) (env : Env) : Prop :=
  env ∈ l.envs ∧ env ∉ l.runs ∧ ∀ caller, (caller, env) ∉ l.calls

namespace Session

variable {A : Type}

def Rooted (s : Session A) (f : FrameRef) : Prop :=
  ∃ k ∈ s.calls.registered, f ∈ (s.calls.stack k).frames

/-- A frame on the stack of a run that was cut off. -/
def CutOff (s : Session A) (f : FrameRef) : Prop :=
  ∃ entry ∈ s.ledger.broken, f ∈ (s.calls.stack entry.stack).frames

variable {s : Session A}

theorem rooted_iff_of_tallies (h : s.ledger.Tallies s.calls) {f : FrameRef}
    (hf : (s.calls.frame f).state = .active) : s.Rooted f ↔ ¬ s.CutOff f := by
  obtain ⟨env, henv, rfl, hon⟩ := h.exists_env hf
  constructor
  · rintro ⟨k, hregistered, hk⟩ ⟨broken, hbroken, hcut⟩
    obtain ⟨run, hrun, rfl⟩ := (h.registered k).1 hregistered
    have hsame : run = broken := h.entry_eq (List.mem_append_left _ hrun)
      (List.mem_append_right _ hbroken) (h.stack_eq hk hcut)
    subst hsame
    exact (List.nodup_append.1 (List.Nodup.of_map _ h.apart)).2.2 run hrun run hbroken rfl
  · intro hnot
    obtain ⟨entry, hentry, heq⟩ := h.owned _ _ hon
    refine ⟨env.stack, (h.registered _).2 ⟨entry, ?_, heq⟩, hon⟩
    rcases List.mem_append.1 hentry with hrun | hbroken
    · exact hrun
    · exact absurd ⟨entry, hbroken, heq ▸ hon⟩ hnot

/-- The entry of a run that was cut off stays active on its stack. -/
theorem active_of_mem_broken (h : s.ledger.Tallies s.calls) {entry : Env}
    (hentry : entry ∈ s.ledger.broken) :
    (s.calls.frame entry.frame).state = .active ∧ s.CutOff entry.frame := by
  have hon := h.entry_mem (List.mem_append_right _ hentry)
  exact ⟨(h.listed _ _ hon).2, entry, hentry, hon⟩

variable [Allocator A]

/-- Active frames are rooted but for those of runs that were cut off. -/
structure RootedUnlessCutOff (s : Session A) : Prop where
  rooted_iff : ∀ f, (s.calls.frame f).state = .active → (s.Rooted f ↔ ¬ s.CutOff f)
  all_rooted_iff :
    (∀ f, (s.calls.frame f).state = .active → s.Rooted f) ↔ s.ledger.broken = []
  refuses_iff : ∀ env, s.ledger.Over env → (s.machine.Refuses env ↔ env ∉ s.ledger.broken)
  handles_enumerated : ∀ env ∈ s.ledger.envs, ¬ s.CutOff env.frame →
    ∀ h ∈ (s.machine.frame env).handles, h ∈ s.calls.roots

variable {start : Machine A} {past : List Move}

/-- In every session, whatever the allocator, the active frames that are not rooted are those of
runs that were cut off by a panic of their entry method. -/
theorem Ran.rooted_unless_cut_off (t : Thread) (heap : Heap) (allocator : A)
    (config : MachineConfig) (hbuild : Machine.build t heap allocator config = .ok start)
    (hran : Ran start past s) : s.RootedUnlessCutOff := by
  have h := hran.tallies (calls_of_build hbuild)
  refine ⟨fun f => rooted_iff_of_tallies h, ?_, ?_, ?_⟩
  · constructor
    · intro hall
      refine List.eq_nil_iff_forall_not_mem.2 fun entry hentry => ?_
      obtain ⟨hactive, hcut⟩ := active_of_mem_broken h hentry
      exact (rooted_iff_of_tallies h hactive).1 (hall _ hactive) hcut
    · intro hnone f hf
      refine (rooted_iff_of_tallies h hf).2 ?_
      rintro ⟨entry, hentry, -⟩
      rw [hnone] at hentry
      cases hentry
  · rintro env ⟨hknown, hruns, hcalls⟩
    rw [Machine.refuses_iff]
    constructor
    · exact fun hinactive hbroken => hinactive (active_of_mem_broken h hbroken).1
    · intro hbroken hactive
      rcases h.begun env hknown hactive with hentry | ⟨caller, hcall⟩
      · exact (List.mem_append.1 hentry).elim hruns hbroken
      · exact hcalls caller hcall
  · intro env henv hcut o ho
    have hactive : (s.calls.frame env.frame).state = .active := by
      refine Decidable.byContradiction fun hnot => ?_
      have hnone : (s.machine.frame env).handles = [] := h.emptied _ hnot
      rw [hnone] at ho
      cases ho
    obtain ⟨k, hk, hon⟩ := (rooted_iff_of_tallies h hactive).2 hcut
    exact CallStacks.mem_roots_iff.2 ⟨k, hk, env.frame, hon, ho⟩

/-- A run that is cut off right away leaves an active frame on a stack that is not registered, and
an environment that is over and not refused. -/
theorem active_not_rooted_after_panic :
    ∃ (start : Machine Bump) (past : List Move) (s : Session Bump) (env : Env),
      Machine.build Thread.first (.ofSize 3 1) Bump.fresh .standard = .ok start ∧
        Ran start past s ∧ s.ledger.Over env ∧ (s.calls.frame env.frame).state = .active ∧
        ¬ s.Rooted env.frame ∧ ¬ s.machine.Refuses env := by
  refine ⟨_, _, _, ⟨0, 0⟩, rfl,
    ((Ran.opening.move Thread.first (.beginRun "entry" []) trivial).move Thread.first
      (.abandonRun ⟨0, 0⟩) (List.mem_singleton.2 rfl)), ?_, rfl, ?_, ?_⟩
  · exact ⟨List.mem_singleton.2 rfl, (nomatch ·), fun _ => (nomatch ·)⟩
  · rintro ⟨k, hk, -⟩
    cases hk
  · exact fun hrefuses => Machine.refuses_iff.1 hrefuses rfl

/-- What is said of all sessions, said of one with a run that was cut off. -/
theorem rooted_unless_cut_off_after_panic :
    ∃ (start : Machine Bump) (past : List Move) (s : Session Bump),
      Machine.build Thread.first (.ofSize 3 1) Bump.fresh .standard = .ok start ∧
        Ran start past s ∧ s.ledger.broken = [⟨0, 0⟩] ∧ s.RootedUnlessCutOff := by
  refine ⟨_, _, _, rfl,
    ((Ran.opening.move Thread.first (.beginRun "entry" []) trivial).move Thread.first
      (.abandonRun ⟨0, 0⟩) (List.mem_singleton.2 rfl)), rfl, ?_⟩
  exact Ran.rooted_unless_cut_off Thread.first (.ofSize 3 1) Bump.fresh .standard rfl
    ((Ran.opening.move Thread.first (.beginRun "entry" []) trivial).move Thread.first
      (.abandonRun ⟨0, 0⟩) (List.mem_singleton.2 rfl))

end Session

end RootedHeap
