import RootedHeap.Proofs.Agreement
import RootedHeap.Proofs.Instructions

/-!
Collection is transparent. Two machines with cells of one width and one call depth, over heaps of
any sizes and allocators of either kind, answer the same instructions alike for as long as neither
runs out of memory, whatever collections come in between.

The sessions stay `MirroredSessions`: there is a renaming under which their machines mirror each
other. An instruction that makes no object keeps the renaming, for what is live after it was live
before. A new object extends it by one pair, for a machine that uses a cell again gives out another
handle than one that does not. A collection changes neither tables nor words.
-/

namespace RootedHeap

variable {A B : Type}

/-- Operations that come to the same have one gist, and leave machines that mirror each other. -/
theorem Machine.Agrees.told {α α' : Type} {f : Handle → Handle} {r : α → α' → Prop}
    {done : Answer α × Machine A} {done' : Answer α' × Machine B} {good : α → Gist}
    {good' : α' → Gist} (h : Machine.Agrees f r done done')
    (hgood : ∀ a a', r a a' → good' a' = good a) :
    Gist.ofAnswer good' done'.1 = Gist.ofAnswer good done.1 ∧ ∃ f, done.2.Mirrors f done'.2 :=
  ⟨Gist.ofAnswer_eq h.answers hgood, f, h.mirrors⟩

namespace Session

variable [Allocator A] [LawfulCollector A] {f : Handle → Handle} {width slot : Nat}
  {s : Session A} {m' : Machine B} {t t' : Thread} {env : Env} {o o' h h' : Handle}

/-! ### Steady sessions -/

/-- A sound session with cells of one width, whose handles all fit in slots. -/
structure Steady (width : Nat) (s : Session A) : Prop extends s.Sound where
  wide : ∀ h, s.machine.heap.contains h = true → (s.machine.heap.words h).length = width
  small : s.machine.heap.size ≤ Handle.greatest + 1

namespace Steady

theorem regular (hs : s.Steady width) : s.machine.Regular where
  held _ _ := hs.mem_roots
  cell _ := hs.contains_of_reaches
  small := hs.small

/-- Orderly actions within the rules keep a session steady. -/
theorem after (hs : s.Steady width) {action : Action} (hpermits : s.ledger.permits action)
    (horderly : action.orderly = true) : (s.after t action).Steady width := by
  obtain ⟨-, hheap⟩ := hs.arena (t := t) hpermits horderly
  refine ⟨hs.step hpermits horderly, fun h hcell => ?_, ?_⟩
  · rw [hheap, Heap.contains_after] at hcell
    rw [hheap, Heap.length_words_after]
    exact hs.wide h hcell
  · rw [hheap, Heap.size_after]
    exact hs.small

theorem opening {allocator : A} {config : MachineConfig} {start : Machine A}
    (hnew : start.OnNewHeap allocator config width) : (Session.opening start).Steady width := by
  obtain @⟨first, size, hbuild, hsize⟩ := hnew
  have hheap : (Session.opening start).machine.heap = Heap.ofSize size width :=
    (ready_of_build hbuild).2
  refine ⟨sound_opening hbuild, fun h hcell => ?_, ?_⟩
  · rw [hheap] at hcell ⊢
    rw [Heap.words_ofSize hcell, List.length_replicate]
  · rw [hheap, Heap.size_ofSize]
    exact Nat.max_le.2 ⟨hsize, Nat.succ_le_succ (Nat.zero_le _)⟩

/-- An action that writes nothing and gains only what was live makes nothing else live. -/
theorem live_of_after (hs : s.Steady width) (action : Action) (hpermits : s.ledger.permits action)
    (hheap : (s.after t action).machine.heap = s.machine.heap)
    (hgain : ∀ r ∈ action.gain (s.reply t action), s.machine.Live r) :
    ∀ k, (s.after t action).machine.Live k → s.machine.Live k := by
  intro k hk
  unfold Machine.Live at hk
  rw [hheap] at hk
  exact Heap.Reaches.of_closed
    (fun r hr => (hs.roots_after hpermits r hr).elim (hgain r) .root) (fun _ _ => .link) hk

end Steady

/-- Every session of orderly moves is steady. -/
theorem OrderlyOver.steady {allocator : A} {config : MachineConfig}
    (hs : s.OrderlyOver allocator config width) : s.Steady width := by
  obtain ⟨hnew, hran, horderly⟩ := hs
  induction hran with
  | opening => exact Steady.opening hnew
  | move ran _ action permitted ih =>
    have hpast := ih fun move hmove => horderly move (List.mem_cons_of_mem _ hmove)
    exact hpast.after permitted (horderly _ List.mem_cons_self)

/-! ### Twins -/

variable [Allocator B] [LawfulCollector B] {s' : Session B} {action action' : Action}
  {instruction : Instruction}

/-- New objects correspond, if there is memory for both. -/
theorem agrees_newObject (hs : s.Steady width) (hs' : s'.Steady width)
    (hmm : s.machine.Mirrors f s'.machine)
    (hroom : Gist.ofAnswer .ofHandle (s.machine.newObject t env).1 ≠ .failed .outOfMemory)
    (hroom' : Gist.ofAnswer .ofHandle (s'.machine.newObject t' env).1 ≠ .failed .outOfMemory) :
    Gist.ofAnswer .ofHandle (s'.machine.newObject t' env).1 =
        Gist.ofAnswer .ofHandle (s.machine.newObject t env).1 ∧
      ∃ f, (s.machine.newObject t env).2.Mirrors f (s'.machine.newObject t' env).2 := by
  have hstate : (s'.machine.frame env).state = (s.machine.frame env).state := by
    rw [hmm.frame_eq, Frame.state_image]
  have hcreation := hs.newObject t env
  have hcreation' := hs'.newObject t' env
  generalize s.machine.newObject t env = created at hcreation hroom ⊢
  generalize s'.machine.newObject t' env = created' at hcreation' hroom' ⊢
  cases hcreation with
  | exhausted active calls config heap ready => exact absurd rfl hroom
  | refused inactive =>
    cases hcreation' with
    | refused inactive' => exact ⟨rfl, f, hmm⟩
    | exhausted active' calls' config' heap' ready' => exact absurd rfl hroom'
    | made active' cell' unreached' calls' config' heap' ready' =>
      exact absurd (hstate.symm.trans active') inactive
  | @made h m active cell unreached calls config heap ready =>
    cases hcreation' with
    | refused inactive' => exact absurd (hstate.trans active) inactive'
    | exhausted active' calls' config' heap' ready' => exact absurd rfl hroom'
    | @made h' m' active' cell' unreached' calls' config' heap' ready' =>
      have h0 : h ≠ Handle.null := (Heap.contains_iff.1 cell).1
      have h0' : h' ≠ Handle.null := (Heap.contains_iff.1 cell').1
      refine ⟨?_, Function.update f h h', ?_⟩
      · show Gist.ofHandle h' = Gist.ofHandle h
        rw [Gist.ofHandle, Gist.ofHandle, if_neg h0, if_neg h0']
      · exact hmm.made hs.regular (CallStacks.lt_size_of_active active) unreached unreached' cell'
          ((hs'.wide h' cell').trans (hs.wide h cell).symm) calls calls' heap heap' config config'

/-- Steady sessions with one ledger, on machines that mirror each other. -/
structure MirroredSessions (width : Nat) (s : Session A) (s' : Session B) : Prop where
  left : s.Steady width
  right : s'.Steady width
  ledger : s'.ledger = s.ledger
  mirrors : ∃ f, s.machine.Mirrors f s'.machine

namespace MirroredSessions

/-- What an instruction means in mirrored sessions comes to the same, if there is memory for both.
-/
theorem agree (h : s.MirroredSessions width s') (hmeans : instruction.Means s.calls action)
    (hmeans' : instruction.Means s'.calls action') (hpermits : s.ledger.permits action)
    (hroom : Gist.ofReply action (s.reply t action) ≠ .failed .outOfMemory)
    (hroom' : Gist.ofReply action' (s'.reply t' action') ≠ .failed .outOfMemory) :
    Gist.ofReply action' (s'.reply t' action') = .ofReply action (s.reply t action) ∧
      ∃ f, (s.after t action).machine.Mirrors f (s'.after t' action').machine := by
  obtain ⟨hs, hs', -, f, hmm⟩ := h
  have hm := hs.regular
  -- what was live before, for the actions that write nothing
  have hlive := hs.live_of_after (t := t) action hpermits
  cases hmeans with
  | newObject =>
    cases hmeans'
    exact agrees_newObject hs hs' hmm hroom hroom'
  | @getReference _ object =>
    cases hmeans'
    exact (hmm.getReference hm (hmm.matches_handle hm object)
      (hlive Machine.SameArena.getReference.heap hs.reaches_of_getReference)).told
        fun _ _ => hmm.ofHandle_eq hm
  | @getData _ object =>
    cases hmeans'
    exact (hmm.getData hm (hmm.matches_handle hm object)).told
      fun _ _ hword => congrArg Gist.ofWord hword.1
  | @setReference _ object target =>
    cases hmeans'
    exact (hmm.setReference hm (hmm.matches_handle hm object)
      (hmm.matches_handle hm target)).told fun _ _ _ => rfl
  | @setData _ object =>
    cases hmeans'
    exact (hmm.setData hm (hmm.matches_handle hm object)).told fun _ _ _ => rfl
  | @release _ object =>
    cases hmeans'
    exact (hmm.release hm (hmm.matches_handle hm object)
      (hlive Machine.SameArena.release.heap fun _ => (nomatch ·))).told fun _ _ _ => rfl
  | @beginCall _ _ args =>
    cases hmeans'
    exact (hmm.beginCall hm (hmm.carries_args hm args)
      (hlive Machine.SameArena.beginCall.heap fun _ => (nomatch ·))).told
        fun _ _ heq => congrArg Gist.env heq.symm
  | endCall ends =>
    cases hmeans' with
    | endCall ends' =>
      exact (hmm.endCall hm (hmm.alike_of_ends hm ends ends')
        (hlive Machine.SameArena.endCall.heap fun _ => (nomatch ·))).told fun _ _ => hmm.ofWord_eq
  | abandonCall =>
    cases hmeans'
    exact ⟨rfl, f, hmm.abandonCall (hlive rfl fun _ => (nomatch ·))⟩
  | @beginRun _ args =>
    cases hmeans'
    exact (hmm.beginRun (hmm.carries_args hm args)
      (hlive Machine.SameArena.beginRun.heap fun _ => (nomatch ·))).told
        fun _ _ heq => congrArg Gist.env heq.symm
  | endRun ends =>
    cases hmeans' with
    | endRun ends' =>
      exact (hmm.endRun hm (hmm.alike_of_ends hm ends ends')
        (hlive Machine.SameArena.endRun.heap fun _ => (nomatch ·))).told fun _ _ => hmm.ofWord_eq

/-- An instruction to both leaves mirrored sessions mirrored. -/
theorem after (h : s.MirroredSessions width s') (hmeans : instruction.Means s.calls action)
    (hmeans' : instruction.Means s'.calls action') (hpermits : s.ledger.permits action)
    (hroom : Gist.ofReply action (s.reply t action) ≠ .failed .outOfMemory)
    (hroom' : Gist.ofReply action' (s'.reply t' action') ≠ .failed .outOfMemory)
    (hpermits' : s'.ledger.permits action') :
    (s.after t action).MirroredSessions width (s'.after t' action') where
  left := h.left.after hpermits hmeans.orderly
  right := h.right.after hpermits' hmeans'.orderly
  ledger := by
    obtain ⟨hgist, -⟩ := h.agree hmeans hmeans' hpermits hroom hroom'
    exact (congrArg (·.record action' (s'.reply t' action')) h.ledger).trans
      (Ledger.record_eq_of_gist hmeans hmeans' hgist)
  mirrors := (h.agree hmeans hmeans' hpermits hroom hroom').2

/-- A collection on one side leaves mirrored sessions mirrored. -/
theorem collect_left (h : s.MirroredSessions width s') :
    (s.after t .collect).MirroredSessions width s' where
  left := h.left.after trivial rfl
  right := h.right
  ledger := h.ledger
  mirrors := by
    obtain ⟨f, hmm⟩ := h.mirrors
    have hheap : (s.machine.collect t).2.heap = s.machine.heap := h.left.collect.2
    refine ⟨f, hmm.keep (fun k hk => ?_) hmm.calls hheap rfl rfl rfl⟩
    unfold Machine.Live at hk ⊢
    rw [← hheap]
    exact hk

theorem collect_right (h : s.MirroredSessions width s') :
    s.MirroredSessions width (s'.after t' .collect) where
  left := h.left
  right := h.right.after trivial rfl
  ledger := h.ledger
  mirrors := by
    obtain ⟨f, hmm⟩ := h.mirrors
    exact ⟨f, hmm.keep (fun _ hk => hk) hmm.calls rfl h.right.collect.2 rfl rfl⟩

/-- Machines that were just built, over heaps with cells of one width, are mirrored. -/
theorem opening {allocator : A} {allocator' : B} {config config' : MachineConfig}
    {start : Machine A} {start' : Machine B} (hnew : start.OnNewHeap allocator config width)
    (hnew' : start'.OnNewHeap allocator' config' width)
    (hdepth : config'.maxCallDepth = config.maxCallDepth) :
    (Session.opening start).MirroredSessions width (Session.opening start') := by
  have hs := Steady.opening hnew
  have hs' := Steady.opening hnew'
  obtain ⟨hbuild, -⟩ := hnew
  obtain ⟨hbuild', -⟩ := hnew'
  refine ⟨hs, hs', rfl, id, ?_⟩
  have hcalls : (Session.opening start).machine.calls = .empty := calls_of_build hbuild
  have hlive : ∀ k, ¬ (Session.opening start).machine.Live k :=
    Machine.not_live_of_roots (by rw [hcalls]; rfl)
  refine ⟨?_, fun k hk => absurd hk (hlive k), fun k hk => absurd hk (hlive k),
    fun k hk => absurd hk (hlive k), ?_, hs'.small⟩
  · exact (calls_of_build hbuild').trans (CallStacks.image_empty.symm.trans
      (congrArg (CallStacks.image id) (calls_of_build hbuild)).symm)
  · exact (congrArg MachineConfig.maxCallDepth (config_of_build hbuild')).trans
      (hdepth.trans (congrArg MachineConfig.maxCallDepth (config_of_build hbuild)).symm)

end MirroredSessions

variable {start : Machine A} {start' : Machine B} {instructions : List Instruction}
  {gists gists' : List Gist}

/-- What the same instructions lead to are mirrored sessions, and were answered alike. -/
theorem Driven.mirrored
    (hopening : (Session.opening start).MirroredSessions width (Session.opening start'))
    (hdriven : Driven start instructions gists s) (hdriven' : Driven start' instructions gists' s')
    (hroom : .failed .outOfMemory ∉ gists) (hroom' : .failed .outOfMemory ∉ gists') :
    gists' = gists ∧ s.MirroredSessions width s' := by
  induction hdriven generalizing gists' s' with
  | opening =>
    generalize hnone : [] = instructions at hdriven'
    induction hdriven' with
    | opening => exact ⟨rfl, hopening⟩
    | instruction _ _ _ _ => cases hnone
    | collect _ _ ih =>
      obtain ⟨hgists, hmirrored⟩ := ih hroom' hnone
      exact ⟨hgists, hmirrored.collect_right⟩
  | collect _ _ ih =>
    obtain ⟨hgists, hmirrored⟩ := ih hdriven' hroom hroom'
    exact ⟨hgists, hmirrored.collect_left⟩
  | @instruction instructions gists s _ t instruction action hmeans hpermits ih =>
    rw [List.mem_cons, not_or] at hroom
    obtain ⟨hhere, hpast⟩ := hroom
    generalize hsame : instruction :: instructions = instructions' at hdriven'
    induction hdriven' with
    | opening => cases hsame
    | collect _ _ ih =>
      obtain ⟨hgists, hmirrored⟩ := ih hroom' hsame
      exact ⟨hgists, hmirrored.collect_right⟩
    | @instruction _ gists' s' hdriven' t' _ action' hmeans' hpermits' =>
      obtain ⟨rfl, rfl⟩ := List.cons.inj hsame
      rw [List.mem_cons, not_or] at hroom'
      obtain ⟨hhere', hpast'⟩ := hroom'
      obtain ⟨hgists, hmirrored⟩ := ih hdriven' hpast hpast'
      have hgist := (hmirrored.agree hmeans hmeans' hpermits (Ne.symm hhere) (Ne.symm hhere')).1
      exact ⟨List.cons_eq_cons.2 ⟨hgist, hgists⟩,
        hmirrored.after hmeans hmeans' hpermits (Ne.symm hhere) (Ne.symm hhere') hpermits'⟩

/-! ### What a program can tell -/

/-- Whether a renaming takes all tables of one session to those of another, and the cells in reach,
one to one and with all their words, to the cells in reach there. -/
structure Corresponds {A B : Type} (f : Handle → Handle) (s : Session A) (s' : Session B) :
    Prop where
  ledger : s'.ledger = s.ledger
  calls : s'.calls = s.calls.image f
  bijective : Set.BijOn f {h | s.machine.heap.Reaches s.calls.roots h}
    {h | s'.machine.heap.Reaches s'.calls.roots h}
  /-- Slot by slot there is the same data, null for null, or the image of the handle. -/
  words : ∀ h, s.machine.heap.Reaches s.calls.roots h →
    s'.machine.heap.words (f h) = (s.machine.heap.words h).map (Word.carry f)

theorem MirroredSessions.corresponds (h : s.MirroredSessions width s') :
    ∃ f, Corresponds f s s' := by
  obtain ⟨f, hmm⟩ := h.mirrors
  exact ⟨f, h.ledger, hmm.calls, hmm.bijOn, hmm.words⟩

/-- Whether no program can tell machines with allocators of two kinds apart. Over heaps of any sizes
that a word can number, as any memory is, with cells of one width, and with one call depth, the same
instructions get the same answers for as long as neither machine runs out of memory, and lead to
sessions that correspond. -/
def Indistinguishable (A B : Type) [Allocator A] [Allocator B] : Prop :=
  ∀ (allocator : A) (allocator' : B) (config config' : MachineConfig) (width : Nat)
    (start : Machine A) (start' : Machine B) (instructions : List Instruction)
    (gists gists' : List Gist) (s : Session A) (s' : Session B),
    start.OnNewHeap allocator config width → start'.OnNewHeap allocator' config' width →
    config'.maxCallDepth = config.maxCallDepth →
    Driven start instructions gists s → Driven start' instructions gists' s' →
    .failed .outOfMemory ∉ gists → .failed .outOfMemory ∉ gists' →
      gists' = gists ∧ ∃ f, Corresponds f s s'

theorem indistinguishable_of_lawful : Indistinguishable A B := by
  intro allocator allocator' config config' width start start' instructions gists gists' s s' hnew
    hnew' hdepth hdriven hdriven' hroom hroom'
  obtain ⟨hgists, hmirrored⟩ :=
    hdriven.mirrored (MirroredSessions.opening hnew hnew' hdepth) hdriven' hroom hroom'
  exact ⟨hgists, hmirrored.corresponds⟩

/-- Neither collections nor the kind of the allocator can be told from what a machine answers. -/
theorem indistinguishable :
    Indistinguishable MarkSweep MarkSweep ∧ Indistinguishable MarkSweep Bump ∧
      Indistinguishable Bump MarkSweep ∧ Indistinguishable Bump Bump :=
  ⟨indistinguishable_of_lawful, indistinguishable_of_lawful, indistinguishable_of_lawful,
    indistinguishable_of_lawful⟩

/-- What is said of all instructions, said of a run that makes two objects and lets go of the first:
over mark and sweep, with a collection that takes it back, and over a counter. -/
theorem indistinguishable_after_collect :
    ∃ (start : Machine MarkSweep) (start' : Machine Bump) (instructions : List Instruction)
      (gists : List Gist) (s : Session MarkSweep) (s' : Session Bump) (f : Handle → Handle),
      Machine.build Thread.first (.ofSize 3 1) (MarkSweep.fresh .zero) .standard = .ok start ∧
        Machine.build Thread.first (.ofSize 4 1) Bump.fresh .standard = .ok start' ∧
        instructions.length = 4 ∧ Driven start instructions gists s ∧
        Driven start' instructions gists s' ∧ Corresponds f s s' := by
  let entry : Env := ⟨0, 0⟩
  let instructions : List Instruction :=
    [.release entry (.held entry 0), .newObject entry, .newObject entry, .beginRun "entry" []]
  let start : Machine MarkSweep := (Machine.build Thread.first (.ofSize 3 1)
    (MarkSweep.fresh .zero) .standard).toOption.get rfl
  let start' : Machine Bump := (Machine.build Thread.first (.ofSize 4 1) Bump.fresh
    .standard).toOption.get rfl
  have hknown : entry ∈ [entry] := List.mem_singleton.2 rfl
  have hbegun : Driven start [.beginRun "entry" []] _ _ :=
    .instruction .opening Thread.first .beginRun trivial
  have hbegun' : Driven start' [.beginRun "entry" []] _ _ :=
    .instruction .opening Thread.first .beginRun trivial
  obtain ⟨gists, s, hdriven, hroom⟩ :
      ∃ gists s, Driven start instructions gists s ∧ .failed .outOfMemory ∉ gists :=
    ⟨_, _, (((hbegun.instruction Thread.first .newObject hknown).instruction Thread.first .newObject
      hknown).instruction Thread.first .release hknown).collect Thread.first, by decide +kernel⟩
  obtain ⟨gists', s', hdriven', hroom'⟩ :
      ∃ gists s, Driven start' instructions gists s ∧ .failed .outOfMemory ∉ gists :=
    ⟨_, _, ((hbegun'.instruction Thread.first .newObject hknown).instruction Thread.first .newObject
      hknown).instruction Thread.first .release hknown, by decide +kernel⟩
  have hbuild : Machine.build Thread.first (.ofSize 3 1) (MarkSweep.fresh .zero) .standard =
    .ok start := rfl
  have hbuild' : Machine.build Thread.first (.ofSize 4 1) Bump.fresh .standard = .ok start' := rfl
  obtain ⟨rfl, f, hcorresponds⟩ := indistinguishable.2.1 _ _ _ _ _ _ _ _ _ _ _ _
    ⟨hbuild, by decide⟩ ⟨hbuild', by decide⟩ rfl hdriven hdriven' hroom hroom'
  exact ⟨start, start', instructions, _, s, s', f, hbuild, hbuild', rfl, hdriven, hdriven',
    hcorresponds⟩

end Session

end RootedHeap
