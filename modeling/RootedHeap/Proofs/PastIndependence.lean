import RootedHeap.Proofs.Counts
import RootedHeap.Proofs.Genuine
import RootedHeap.Proofs.Lockstep

/-!
The past does not matter to a crowd. On a machine over mark and sweep with no stack registered and
nobody at the gate, whatever went on before, also panics and writes past the frames, a crowd gets on
as it would if all that is left of the past were retired: the same answers, the same programs, and
the same books. A session whose past is retired is well formed, so what is known of a crowd in a
well-formed session holds on whatever machine.
-/

namespace RootedHeap

/-! ### Requests and collections over the same roots -/

/-- Arenas that differ at most in their logs. -/
structure Arena.SameBooks {A : Type} (a a' : Arena A) : Prop where
  allocator : a'.allocator = a.allocator
  heap : a'.heap = a.heap
  gate : a'.gate.holder = a.gate.holder

namespace MarkSweep

variable {a a' : Arena MarkSweep} {calls calls' : CallStacks} {t : Thread}

/-- Over the same roots the same is collected. -/
theorem collect_same (h : a.SameBooks a') (hroots : calls'.roots = calls.roots)
    (hbound : a.allocator.binding.isSome) (hgate : a.gate.holder = none) :
    (collect t calls' a').1 = (collect t calls a).1 ∧
      (collect t calls a).2.SameBooks (collect t calls' a').2 := by
  have hbound' : a'.allocator.binding.isSome := h.allocator ▸ hbound
  have hgate' : a'.gate.holder = none := h.gate.trans hgate
  rw [collect_eq t calls hbound (Gate.lets_of_unheld hgate),
    collect_eq t calls' hbound' (Gate.lets_of_unheld hgate'), h.allocator, h.heap, hroots]
  refine ⟨rfl, ?_, ?_, ?_⟩
  · rw [allocator_report, allocator_report]
  · rw [heap_report, heap_report]
  · rw [gate_report, gate_report, Gate.reopen_close hgate, Gate.reopen_close hgate']

theorem take_same (h : a.SameBooks a') :
    (take t a').1 = (take t a).1 ∧ (take t a).2.SameBooks (take t a').2 := by
  unfold take
  rw [h.allocator, h.heap]
  cases a.allocator.free with
  | nil => exact ⟨rfl, h.allocator, h.heap, h.gate⟩
  | cons o free =>
    dsimp only
    cases a.heap.cell o with
    | error fault => exact ⟨rfl, rfl, h.heap, h.gate⟩
    | ok cell => exact ⟨rfl, rfl, rfl, h.gate⟩

/-- Over the same roots the same is handed out. -/
theorem allocate_same (h : a.SameBooks a') (hroots : calls'.roots = calls.roots)
    (hbound : a.allocator.binding.isSome) (hgate : a.gate.holder = none) :
    (allocate t calls' a').1 = (allocate t calls a).1 ∧
      (allocate t calls a).2.SameBooks (allocate t calls' a').2 := by
  have hbound' : a'.allocator.binding.isSome := h.allocator ▸ hbound
  have hgate' : a'.gate.holder = none := h.gate.trans hgate
  rw [allocate_eq hbound fun _ => Gate.lets_of_unheld hgate,
    allocate_eq hbound' fun _ => Gate.lets_of_unheld hgate']
  refine take_same ?_
  unfold refilled
  rw [h.allocator]
  split
  · exact (collect_same h hroots hbound hgate).2
  · exact h

end MarkSweep

/-! ### A session with its past retired -/

namespace Session

section WithoutPast

variable {A : Type} {s : Session A}

/-- The session in which all that came before is retired, and nobody has anything of it in hand. -/
def withoutPast (s : Session A) : Session A where
  world := { s.world with
    machine := { s.machine with
      calls := s.calls.retirePast s.calls.known.size s.calls.frames.size } }
  ledger := ⟨s.ledger.envs, [], [], []⟩

theorem stack_withoutPast {k : StackRef} : (s.withoutPast.calls.stack k).frames = [] := by
  show ((s.calls.retirePast _ _).stack k).frames = []
  rw [CallStacks.stack_retirePast]
  split
  · rfl
  · rename_i hk
    rw [CallStacks.stack, Array.getElem?_eq_none (Nat.not_lt.1 hk)]
    rfl

theorem frame_withoutPast {f : FrameRef} :
    (s.withoutPast.calls.frame f).state = .popped ∧ (s.withoutPast.calls.frame f).handles = [] := by
  show ((s.calls.retirePast _ _).frame f).state = .popped ∧
    ((s.calls.retirePast _ _).frame f).handles = []
  rw [CallStacks.frame_retirePast]
  split
  · exact ⟨rfl, rfl⟩
  · rename_i hf
    rw [CallStacks.frame_of_size_le (Nat.not_lt.1 hf)]
    exact ⟨rfl, rfl⟩

theorem tallies_withoutPast (h : s.ledger.Tallies s.calls) (hnone : s.calls.registered = []) :
    s.withoutPast.ledger.Tallies s.withoutPast.calls where
  numbered := by
    show s.ledger.envs.map Env.frame = List.range (s.calls.retirePast _ _).frames.size
    rw [CallStacks.size_retirePast]
    exact h.numbered
  known env henv := by
    show env.stack < (s.calls.retirePast _ _).known.size
    rw [CallStacks.known_size_retirePast]
    exact h.known env henv
  ascending k := by
    rw [stack_withoutPast]
    exact .nil
  listed k f hf := by
    rw [stack_withoutPast] at hf
    cases hf
  onStack env henv hactive := by
    rw [frame_withoutPast.1] at hactive
    cases hactive
  emptied f _ := frame_withoutPast.2
  begun env henv hactive := by
    rw [frame_withoutPast.1] at hactive
    cases hactive
  nested _ _ hcall := nomatch hcall
  entered _ hentry := nomatch hentry
  apart := .nil
  owned k f hf := by
    rw [stack_withoutPast] at hf
    cases hf
  registered k := by
    show k ∈ s.calls.registered ↔ ∃ entry ∈ ([] : List Env), entry.stack = k
    rw [hnone]
    exact ⟨(nomatch ·), fun ⟨_, hentry, _⟩ => nomatch hentry⟩
  ids k hk := by
    show ((s.calls.retirePast _ _).stack k).id = k
    rw [CallStacks.id_retirePast]
    exact h.ids k ((CallStacks.known_size_retirePast (t := s.calls)) ▸ hk)
  nextId := by
    show s.calls.nextId = (s.calls.retirePast _ _).known.size
    rw [CallStacks.known_size_retirePast]
    exact h.nextId

end WithoutPast

variable {s s' : Session MarkSweep} {t : Thread} {action : Action} {width : Nat}

/-! ### Well-formed sessions after whatever past -/

/-- No action changes the shape of the heap. -/
theorem shape_after_any (s : Session MarkSweep) (t : Thread) (action : Action) :
    s.machine.heap.SameShape (s.after t action).machine.heap := by
  cases hquiet : action.allocates with
  | false => exact shape_after_of_quiet hquiet
  | true =>
    cases action with
    | collect =>
      show s.machine.heap.SameShape (MarkSweep.collect t s.calls s.machine.toArena).2.heap
      rw [MarkSweep.heap_collect]
      exact .refl
    | newObject env =>
      exact newObject_keeps (P := fun _ heap => s.machine.heap.SameShape heap) .refl
        (MarkSweep.shape_allocate t s.calls s.machine.toArena)
    | _ => cases hquiet

theorem Ran.shape {start : Machine MarkSweep} {past : List Move} (hran : Ran start past s) :
    start.heap.SameShape s.machine.heap := by
  induction hran with
  | opening => exact .refl
  | move _ t action _ ih => exact ih.trans (shape_after_any _ t action)

/-- Whatever went on before: with no stack registered and nobody at the gate, the session is well
formed once the past is retired. -/
theorem wellFormed_withoutPast {size : Nat} (htallies : s.ledger.Tallies s.calls)
    (hshape : (Heap.ofSize size width).SameShape s.machine.heap)
    (hsize : size ≤ Handle.greatest + 1)
    (hbalanced : s.machine.allocator.Balanced s.machine.heap.size)
    (hnone : s.calls.registered = []) (hgate : s.machine.gate.holder = none) :
    s.withoutPast.WellFormed width where
  tallies := tallies_withoutPast htallies hnone
  unbroken := rfl
  ready := by
    refine ⟨hbalanced.toFits, fun h hreach => ?_, hgate⟩
    have hroots : s.withoutPast.calls.roots = [] := by
      have hregistered : s.withoutPast.calls.registered = [] := hnone
      rw [CallStacks.roots, hregistered]
      rfl
    rw [hroots] at hreach
    exact absurd hreach Heap.not_reaches_empty
  wide h hcell := by
    have hcell' : (Heap.ofSize size width).contains h = true := by
      rw [Heap.contains_iff, ← hshape.size]
      exact Heap.contains_iff.1 hcell
    show (s.machine.heap.words h).length = width
    rw [hshape.words, Heap.words_ofSize hcell', List.length_replicate]
  small := by
    show s.machine.heap.size ≤ Handle.greatest + 1
    rw [hshape.size, Heap.size_ofSize]
    exact Nat.max_le.2 ⟨hsize, Nat.succ_le_succ (Nat.zero_le _)⟩
  apart j k _ h hreach := by
    have hroots : s.withoutPast.calls.stackRoots j = [] := by
      rw [CallStacks.stackRoots, stack_withoutPast]
      rfl
    rw [hroots] at hreach
    exact absurd hreach Heap.not_reaches_empty
  spanned := hshape.width

/-! ### A session beside the one with its past retired -/

/-- Whether a session gets on as the one does whose past is retired: the stacks and frames of the
past are those before the given ones, and nobody works with them. -/
structure Follows (k : StackRef) (f : FrameRef) (s s' : Session MarkSweep) : Prop where
  machine : s.machine.RetiresPast k f s'.machine
  allocator : s'.machine.allocator = s.machine.allocator
  kept : s'.world.kept = s.world.kept
  known : k ≤ s.calls.known.size
  made : f ≤ s.calls.frames.size
  envs : ∀ env ∈ s'.ledger.envs, k ≤ env.stack → f ≤ env.frame
  pending : ∀ call ∈ s'.ledger.calls, call.1.Since k f ∧ call.2.Since k f

namespace Follows

variable {k : StackRef} {f : FrameRef}

/-- At first nobody has anything of the past in hand. -/
theorem withoutPast (hs : EnvsAgree s.ledger.envs s.calls) (hgate : s.machine.gate.holder = none) :
    Follows s.calls.known.size s.calls.frames.size s s.withoutPast where
  machine := ⟨rfl, rfl, rfl, hgate, hgate⟩
  allocator := rfl
  kept := rfl
  known := Nat.le_refl _
  made := Nat.le_refl _
  envs env henv hstack := absurd (hs.known env henv) (Nat.not_lt.2 hstack)
  pending _ hcall := nomatch hcall

/-- A run goes on a stack that is not of the past: those of the past are empty. -/
theorem le_stack (h : s.Follows k f s') (hs' : s'.WellFormed width) {run : Env}
    (hrun : run ∈ s'.ledger.runs) : k ≤ run.stack := by
  have hhead := (hs'.tallies.entered run (List.mem_append_left _ hrun)).2
  by_contra hlt
  have hempty : (s'.calls.stack run.stack).frames = [] := by
    show (s'.machine.calls.stack run.stack).frames = []
    rw [h.machine.calls, CallStacks.stack_retirePast, if_pos (Nat.not_le.1 hlt)]
  rw [hempty] at hhead
  cases hhead

/-- What is on the registered stacks is not of the past. -/
theorem recent (h : s.Follows k f s') (hs' : s'.WellFormed width) : s.calls.Recent k f := by
  intro j hj
  have hregistered : j ∈ s'.calls.registered := by
    show j ∈ s'.machine.calls.registered
    rw [h.machine.calls]
    exact hj
  obtain ⟨run, hrun, rfl⟩ := (hs'.tallies.registered j).1 hregistered
  have hstack := h.le_stack hs' hrun
  refine ⟨hstack, fun g hg => ?_⟩
  have hmem : g ∈ (s'.calls.stack run.stack).frames := by
    show g ∈ (s'.machine.calls.stack run.stack).frames
    rw [h.machine.calls, CallStacks.stack_retirePast_of_le hstack]
    exact hg
  have hactive := (hs'.tallies.listed run.stack g hmem).2
  by_contra hlt
  have hpopped : (s'.calls.frame g).state = .popped := by
    show (s'.machine.calls.frame g).state = .popped
    rw [h.machine.calls, CallStacks.frame_retirePast, if_pos (Nat.not_le.1 hlt)]
    rfl
  rw [hpopped] at hactive
  cases hactive

theorem roots_eq (h : s.Follows k f s') (hs' : s'.WellFormed width) :
    s'.machine.calls.roots = s.machine.calls.roots := by
  rw [h.machine.calls]
  exact (h.recent hs').roots_retirePast

/-- An action of a frame that works on no stack of the past works with nothing of the past. -/
theorem since (h : s.Follows k f s') (hs' : s'.WellFormed width) (hworks : action.works = true)
    (hpermits : s'.ledger.permits action) (hstack : k ≤ action.stack s'.calls) :
    action.Since k f := by
  have hbegun : ∀ env ∈ s'.ledger.envs, k ≤ env.stack → env.Since k f :=
    fun env henv hk => ⟨hk, h.envs env henv hk⟩
  cases action with
  | newObject env => exact hbegun env hpermits hstack
  | getReference env object slot => exact hbegun env hpermits hstack
  | getData env object slot => exact hbegun env hpermits hstack
  | setReference env object slot target => exact hbegun env hpermits hstack
  | setData env object slot word => exact hbegun env hpermits hstack
  | release env object => exact hbegun env hpermits hstack
  | beginCall caller name args => exact hbegun caller hpermits hstack
  | endCall caller callee outcome => exact h.pending (caller, callee) hpermits
  | beginRun name args => exact trivial
  | endRun entry outcome =>
    exact hbegun entry (hs'.tallies.entered entry (List.mem_append_left _ hpermits)).1 hstack
  | _ => cases hworks

/-- A request for an object is answered alike. -/
theorem newObject (h : s.Follows k f s') (hs' : s'.WellFormed width) {env : Env}
    (henv : env.Since k f) (hpermits : s'.ledger.permits (.newObject env)) :
    Machine.Accords k f (s.machine.newObject t env) (s'.machine.newObject t env) ∧
      (s'.machine.newObject t env).2.allocator = (s.machine.newObject t env).2.allocator := by
  have hactive' := h.machine.checkActive henv
  cases hactive : s.machine.checkActive env with
  | error fault =>
    rw [Machine.newObject_eq, Machine.newObject_eq, hactive', hactive]
    exact ⟨⟨rfl, h.machine⟩, h.allocator⟩
  | ok _ =>
    have hr := Machine.request_newObject (t := t) hactive
    have hr' := Machine.request_newObject (t := t) (hactive'.trans hactive)
    have hbooks : s.machine.toArena.SameBooks s'.machine.toArena :=
      ⟨h.allocator, h.machine.heap, h.machine.unheld'.trans h.machine.unheld.symm⟩
    have hfits : s'.machine.allocator.Fits s'.machine.heap.size := hs'.ready.fits
    obtain ⟨hfound, hsame⟩ : (Allocator.allocate t s'.machine.calls s'.machine.toArena).1 =
          (Allocator.allocate t s.machine.calls s.machine.toArena).1 ∧
        (Allocator.allocate t s.machine.calls s.machine.toArena).2.SameBooks
          (Allocator.allocate t s'.machine.calls s'.machine.toArena).2 :=
      MarkSweep.allocate_same hbooks (h.roots_eq hs') (h.allocator ▸ hfits.bound) h.machine.unheld
    have hgranted : s'.machine.granted env = s.machine.granted env := by
      funext o
      rw [Machine.granted, Machine.granted, h.machine.frame henv]
    have hunheld' : (s'.machine.newObject t env).2.gate.holder = none :=
      (hs'.after (t := t) hpermits rfl).ready.unheld
    refine ⟨⟨?_, ?_, ?_, ?_, ?_, hunheld'⟩, ?_⟩
    · rw [hr.answer, hr'.answer, hfound, hgranted]
    · rw [hr.heap, hr'.heap, hsame.heap]
    · rw [hr.calls, hr'.calls, hfound, hgranted]
      generalize (Allocator.allocate t s.machine.calls s.machine.toArena).1 >>=
        s.machine.granted env = answer
      cases answer with
      | error fault => exact h.machine.calls
      | ok o =>
        dsimp only
        rw [CallStacks.retirePast_change henv.frame, h.machine.calls]
    · rw [hr.config, hr'.config, h.machine.config]
    · rw [hr.gate, ← hsame.gate, ← hr'.gate]
      exact hunheld'
    · rw [hr.allocator, hr'.allocator, hsame.allocator]

/-- Calls that are pending after an action were so before, or the action began them on its stack. -/
theorem pending_after (h : s.Follows k f s') (hworks : action.works = true)
    (hsince : action.Since k f) :
    ∀ call ∈ (s'.after t action).ledger.calls, call.1.Since k f ∧ call.2.Since k f := by
  cases action with
  | beginCall caller name args =>
    obtain ⟨text, heq⟩ := Machine.beginCall_eq s'.machine t caller name args
    have hrecord : (s'.after t (.beginCall caller name args)).ledger = s'.ledger.record
      (.beginCall caller name args) (s'.machine.beginCall t caller name args).1 := rfl
    rw [hrecord, heq]
    cases s'.machine.callable caller args with
    | error fault => exact h.pending
    | ok objects =>
      refine List.forall_mem_cons.2 ⟨⟨hsince, hsince.stack, ?_⟩, h.pending⟩
      show f ≤ s'.calls.frames.size
      exact h.made.trans_eq h.machine.frames_size.symm
  | endCall caller callee outcome =>
    exact fun call hcall => h.pending call (List.mem_of_mem_erase hcall)
  | beginRun name args =>
    have hcalls : (s'.after t (.beginRun name args)).ledger.calls = s'.ledger.calls :=
      Ledger.calls_beginRun
    rw [hcalls]
    exact h.pending
  | newObject env => exact h.pending
  | getReference env object slot => exact h.pending
  | getData env object slot => exact h.pending
  | setReference env object slot target => exact h.pending
  | setData env object slot word => exact h.pending
  | release env object => exact h.pending
  | endRun entry outcome => exact h.pending
  | _ => cases hworks

/-- An action that works with nothing of the past is answered alike. -/
theorem perform (h : s.Follows k f s') (hs' : s'.WellFormed width) (hworks : action.works = true)
    (hpermits : s'.ledger.permits action) (hsince : action.Since k f) :
    s'.reply t action = s.reply t action ∧
      (s.after t action).machine.RetiresPast k f (s'.after t action).machine ∧
      (s'.after t action).world.kept = (s.after t action).world.kept ∧
      (s'.after t action).machine.allocator = (s.after t action).machine.allocator := by
  cases hquiet : action.allocates with
  | false =>
    have hcommon : action.common = true := by
      cases action with
      | stop => cases hworks
      | resume => cases hworks
      | stats => cases hworks
      | pauses => cases hworks
      | _ => rfl
    obtain ⟨hanswer, hmachine, hkept⟩ :=
      World.perform_since h.machine h.kept h.known h.made t hquiet hcommon hsince
    have hsame : (s.after t action).machine.allocator = s.machine.allocator :=
      World.allocator_perform hquiet
    have hsame' : (s'.after t action).machine.allocator = s'.machine.allocator :=
      World.allocator_perform hquiet
    exact ⟨hanswer, hmachine, hkept, hsame'.trans (h.allocator.trans hsame.symm)⟩
  | true =>
    cases action with
    | newObject env =>
      obtain ⟨haccords, hallocator⟩ := h.newObject (t := t) hs' hsince hpermits
      exact ⟨haccords.answer, haccords.machine, h.kept, hallocator⟩
    | collect => cases hworks
    | _ => cases hquiet

/-- After an action that works on no stack of the past the one session still follows the other. -/
theorem step (h : s.Follows k f s') (hs' : s'.WellFormed width) (hworks : action.works = true)
    (hpermits : s'.ledger.permits action) (hstack : k ≤ action.stack s'.calls) :
    s'.reply t action = s.reply t action ∧ (s.after t action).Follows k f (s'.after t action) := by
  have hsince := h.since hs' hworks hpermits hstack
  obtain ⟨hanswer, hmachine, hkept, hallocator⟩ := h.perform (t := t) hs' hworks hpermits hsince
  have hgrows := grows_after (t := t) hpermits
  have hknown : s'.calls.known.size = s.calls.known.size := h.machine.known_size
  have hknown' : (s'.after t action).calls.known.size = (s.after t action).calls.known.size :=
    hmachine.known_size
  have hframes : s'.calls.frames.size = s.calls.frames.size := h.machine.frames_size
  have hframes' : (s'.after t action).calls.frames.size = (s.after t action).calls.frames.size :=
    hmachine.frames_size
  refine ⟨hanswer, hmachine, hallocator, hkept, ?_, ?_, fun env henv hk => ?_,
    h.pending_after hworks hsince⟩
  · exact hknown' ▸ h.known.trans (hknown ▸ hgrows.known)
  · exact hframes' ▸ h.made.trans (hframes ▸ hgrows.frames)
  · rcases envs_after s' t action with hold | hnew
    · rw [hold] at henv
      exact h.envs env henv hk
    · rw [hnew] at henv
      rcases List.mem_append.1 henv with henv | henv
      · exact h.envs env henv hk
      · obtain rfl := List.mem_singleton.1 henv
        show f ≤ s'.calls.frames.size
        exact h.made.trans_eq h.machine.frames_size.symm

end Follows

end Session

/-! ### A crowd beside the one with its past retired -/

namespace Crowd

variable {A ι : Type} [Allocator A] [LawfulCollector A] [DecidableEq ι] {width n : Nat} {i : ι}
  {Stops : Fault → Prop}

omit [LawfulCollector A] in
/-- What a thread does next is within the rules, on the next stack or on that of a run that goes
on. -/
theorem Staged.placed {c : Crowd A ι} {Sure : Session A → Prop}
    {Q : ι → (entry : Env) → Word → Knowledge A entry} {place : ι → Option Env}
    (h : c.Staged Sure Stops Q n place) {action : Action} {next : action.Reply → Program Outcome}
    (hprogram : (c.scene n).program i = .act action next) :
    (c.scene n).session.ledger.permits action ∧
      (action.stack (c.scene n).session.calls = (c.scene n).session.calls.known.size ∨
        ∃ run ∈ (c.scene n).session.ledger.runs,
          action.stack (c.scene n).session.calls = run.stack) := by
  have hstage := h.stage i
  generalize place i = mine at hstage
  cases hstage with
  | waiting program =>
    rw [Code.outcome_eq, Session.ended_runMethod] at program
    cases program.symm.trans hprogram
    exact ⟨trivial, .inl rfl⟩
  | finished program reports => cases program.symm.trans hprogram
  | @running run p program begun entered ensures =>
    cases p with
    | done result =>
      obtain ⟨answer, rfl, -⟩ := ensures _ h.sure .refl
      obtain ⟨next', hclosing, -⟩ := Session.closing_reported run answer
      have hact : (c.scene n).program i = .act (.endRun run answer) next' := program.trans hclosing
      cases hact.symm.trans hprogram
      exact ⟨begun, .inr ⟨run, begun, rfl⟩⟩
    | act action' next' =>
      obtain ⟨hproper, -, -⟩ := ensures _ h.sure .refl
      cases program.symm.trans hprogram
      exact ⟨hproper.permitted,
        hproper.placed.symm.imp_right fun hstack => ⟨run, begun, hstack⟩⟩

variable {c : Crowd MarkSweep ι} {Sure : Session MarkSweep → Prop}
  {Q : ι → (entry : Env) → Word → Knowledge MarkSweep entry}

def withoutPast (c : Crowd MarkSweep ι) : Crowd MarkSweep ι :=
  { c with start := c.start.withoutPast }

/-- Whether the threads of a scene are where they are in one whose past is retired, and its session
follows that one's. -/
structure Resumes (k : StackRef) (f : FrameRef) (scene scene' : Scene MarkSweep ι) : Prop where
  program : scene.program = scene'.program
  session : scene.session.Follows k f scene'.session

variable (hkeeps : c.withoutPast.MethodsKeep width Sure Stops Q) (hstart : Sure c.withoutPast.start)
  (hworks : ∀ n i action next, (c.withoutPast.scene n).program i = .act action next →
    action.works = true)

include hkeeps hstart hworks

/-- What a thread does next is answered as if the past were retired. -/
theorem Resumes.answers {k : StackRef} {f : FrameRef}
    (h : Resumes k f (c.scene n) (c.withoutPast.scene n)) {action : Action}
    {next : action.Reply → Program Outcome} (hprogram : (c.scene n).program i = .act action next) :
    (c.withoutPast.scene n).session.reply (c.thread i) action =
        (c.scene n).session.reply (c.thread i) action ∧
      ((c.scene n).session.after (c.thread i) action).Follows k f
        ((c.withoutPast.scene n).session.after (c.thread i) action) := by
  obtain ⟨place, hstaged⟩ := hkeeps.staged hstart n
  have hformed := hkeeps.wellFormed _ hstaged.sure
  have hprogram' : (c.withoutPast.scene n).program i = .act action next :=
    (congrFun h.program i).symm.trans hprogram
  obtain ⟨hpermits, hplaced⟩ := hstaged.placed hprogram'
  refine h.session.step hformed (hworks n i action next hprogram') hpermits ?_
  rcases hplaced with hnew | ⟨run, hrun, hstack⟩
  · rw [hnew]
    exact h.session.known.trans_eq h.session.machine.known_size.symm
  · rw [hstack]
    exact h.session.le_stack hformed hrun

/-- A crowd goes on as it would if the past were retired. -/
theorem resumes (henvsAgree : EnvsAgree c.start.ledger.envs c.start.calls)
    (hgate : c.start.machine.gate.holder = none) (n : Nat) :
    Resumes c.start.calls.known.size c.start.calls.frames.size (c.scene n)
      (c.withoutPast.scene n) := by
  induction n with
  | zero => exact ⟨rfl, .withoutPast henvsAgree hgate⟩
  | succ n ih =>
    cases hprogram : (c.scene n).program (c.turn n) with
    | done outcome =>
      have hprogram' : (c.withoutPast.scene n).program (c.turn n) = .done outcome :=
        (congrFun ih.program _).symm.trans hprogram
      have hscene := (scene_succ (c := c) (n := n)).trans (after_over hprogram)
      have hscene' := (scene_succ (c := c.withoutPast) (n := n)).trans (after_over hprogram')
      rw [hscene, hscene']
      exact ih
    | act action next =>
      have hprogram' : (c.withoutPast.scene n).program (c.turn n) = .act action next :=
        (congrFun ih.program _).symm.trans hprogram
      have hscene := (scene_succ (c := c) (n := n)).trans (after_act hprogram)
      have hscene' := (scene_succ (c := c.withoutPast) (n := n)).trans (after_act hprogram')
      obtain ⟨hanswer, hfollows⟩ := ih.answers hkeeps hstart hworks hprogram
      rw [hscene, hscene']
      refine ⟨?_, hfollows⟩
      show Function.update (c.scene n).program (c.turn n) (next _) =
        Function.update (c.withoutPast.scene n).program (c.turn n) (next _)
      rw [ih.program, ← hanswer]
      rfl

end Crowd

end RootedHeap
