import RootedHeap.Proofs.Schedules

/-!
What a stop holds up. While a stop of one thread is in force no other thread is inside a scope, and
whatever a frame operation does it does inside one, so the frames, the stacks and the cells stay as
they are. A few things are done without asking the gate: a panic pops the frames of the calls that
it unwinds and forgets the stack of its run, a new object is cleared and handed to its frame under
the allocator's lock alone, and a program may write to cells past all frames. `Crew.strays` is the
list of them, complete by `Step.still`. The runs at the end are of a panic and of a new object that
the holder of a stop sees.
-/

namespace RootedHeap

/-- Whether an action goes to frames, stacks or cells without asking the gate. -/
def Action.unasked : Action → Bool
  | .abandonCall _ | .abandonRun _ | .cell .. => true
  | _ => false

namespace Crew

variable {A : Type} [Allocator A] [Staged A] {c c' c'' : Crew A} {t u : Thread}

/-- Nothing has changed that frames hold, that stacks consist of, or that is in cells. -/
structure Still (c c' : Crew A) : Prop where
  frames : c'.calls.frames = c.calls.frames
  stack_frames : ∀ s, (c'.calls.stack s).frames = (c.calls.stack s).frames
  heap : c'.heap = c.heap
  roots : c'.calls.roots = c.calls.roots

namespace Still

theorem of_same (hcalls : c'.calls = c.calls) (hheap : c'.heap = c.heap) : c.Still c' :=
  ⟨by rw [hcalls], fun s => by rw [hcalls], hheap, by rw [hcalls]⟩

theorem refl (c : Crew A) : c.Still c := .of_same rfl rfl

theorem trans (h : c.Still c') (h' : c'.Still c'') : c.Still c'' :=
  ⟨h'.frames.trans h.frames, fun s => (h'.stack_frames s).trans (h.stack_frames s),
    h'.heap.trans h.heap, h'.roots.trans h.roots⟩

end Still

/-- Whether what a thread does next may change frames, stacks or cells outside of any scope. -/
def strays (c : Crew A) (t : Thread) : Prop :=
  match c.stage t with
  | .working task point =>
    ∃ allocator heap log next,
      Staged.nextStep t task.request point c.machine.toArena = .work allocator heap log next
  | .receiving .. => True
  | .unregistering entry =>
    ∃ s ∈ c.calls.registered, (c.calls.stack s).id = (c.calls.stack entry.stack).id ∧
      (c.calls.stack s).frames ≠ []
  | .idle => ∃ action rest, c.todo t = action :: rest ∧ action.unasked = true
  | _ => False

/-- What is done at once, but for what goes past the gate, leaves frames, stacks and cells alone. -/
theorem Still.atOnce {action : Action} (hsimple : action.atOnce = true)
    (hasked : action.unasked = false) : c.Still (c.perform t action) := by
  cases action with
  | abandonCall callee => cases hasked
  | abandonRun entry => cases hasked
  | cell h command => cases hasked
  | beginRun name args =>
    obtain ⟨h, hargs⟩ := Option.isSome_iff_exists.1 hsimple
    have hsame : (c.machine.beginRun t name args).2 = c.machine := by
      rw [Machine.beginRun_refused hargs]
    exact .of_same (congrArg Machine.calls hsame) (congrArg (·.heap) hsame)
  | resume => exact .of_same rfl Arena.heap_resume
  | _ => first | exact .of_same rfl rfl | cases hsimple

/-- While a stop of another thread is in force, a thread that does not stray changes nothing. -/
theorem Step.still (h : c.LockOwnership) (hheld : c.gate.holder = some t)
    (hreturned : (c.stage t).wait ≠ .silence) (hu : u ≠ t) (hstep : c.Step u c')
    (hgated : ¬ c.strays u) : c.Still c' := by
  -- nobody else is inside a scope
  have houtside : (c.stage u).hasScope = false := by
    rw [← Bool.not_eq_true]
    intro hscope
    exact hu (Gate.quiet_iff.1 (h.inv.silent t hheld hreturned) u (h.mem_scopes_iff.2 hscope))
  cases hstep with
  | begin idle next first => exact .of_same rfl rfl
  | register idle next plain =>
    exact ⟨rfl, fun _ => CallStacks.frames_register, rfl, CallStacks.roots_register⟩
  | @atOnce action rest idle next simple free =>
    have hasked : action.unasked = false := Bool.eq_false_iff.2 fun hunasked => hgated (by
      unfold strays
      rw [idle]
      exact ⟨action, rest, next, hunasked⟩)
    have hstill : c.Still (c.perform u action) := .atOnce simple hasked
    exact ⟨hstill.frames, hstill.stack_frames, hstill.heap, hstill.roots⟩
  | sleep awake barred => exact .of_same rfl rfl
  | enter entering awake admitted => exact .of_same rfl rfl
  | operate inside => simp [inside, Stage.hasScope] at houtside
  | check inside => simp [inside, Stage.hasScope] at houtside
  | enterRun inside => simp [inside, Stage.hasScope] at houtside
  | leaveRun inside => simp [inside, Stage.hasScope] at houtside
  | leave leaving => exact .of_same rfl rfl
  | unregister unregistering =>
    refine ⟨rfl, fun _ => rfl, rfl, CallStacks.roots_unregister fun k hk hid => ?_⟩
    refine Classical.byContradiction fun hframes => hgated ?_
    unfold strays
    rw [unregistering]
    exact ⟨k, hk, hid, hframes⟩
  | lock locking free => exact .of_same rfl rfl
  | work working nextStep =>
    refine absurd ?_ hgated
    unfold strays
    rw [working]
    exact ⟨_, _, _, _, nextStep⟩
  | callStop working nextStep => exact .of_same rfl rfl
  | scan working nextStep => exact .of_same rfl rfl
  | resume working nextStep => exact .of_same rfl Arena.heap_resume
  | deliver working nextStep => exact .of_same rfl rfl
  | deny working nextStep => exact .of_same rfl rfl
  | finish working nextStep => exact .of_same rfl rfl
  | @close cause stopping awake admitted still => cases cause <;> exact .of_same rfl rfl
  | claim stopping awake unheld loud => exact .of_same rfl rfl
  | @drained cause draining awake still => cases cause <;> exact .of_same rfl rfl
  | receive receiving =>
    refine absurd ?_ hgated
    unfold strays
    rw [receiving]
    trivial
  | unlock unlocking => exact .of_same rfl rfl

/-! ### A whole pause -/

/-- What comes of a crew while thread `t` does nothing but look at the roots, and nobody else
strays. -/
inductive Pause (t : Thread) (c : Crew A) : Crew A → Prop
  | here : Pause t c c
  | other {u : Thread} {c₁ c₂ : Crew A} (before : Pause t c c₁) (hu : u ≠ t)
      (gated : ¬ c₁.strays u) (step : c₁.Step u c₂) : Pause t c c₂
  | look {rest : List Action} {c₁ c₂ : Crew A} (before : Pause t c c₁) (idle : c₁.stage t = .idle)
      (next : c₁.todo t = .roots :: rest) (step : c₁.Step t c₂) : Pause t c c₂

/-- A thread that looks at the roots changes nothing that the gate or the machine is about. -/
theorem Step.look {rest : List Action} (idle : c.stage t = .idle) (next : c.todo t = .roots :: rest)
    (hstep : c.Step t c') :
    c.Still c' ∧ c'.gate = c.gate ∧ c'.stage t = .idle := by
  cases hstep with
  | begin _ next' first =>
    rw [next] at next'
    obtain ⟨rfl, -⟩ := List.cons.inj next'
    cases first
  | register _ next' plain =>
    rw [next] at next'
    cases next'
  | atOnce _ next' simple free =>
    rw [next] at next'
    obtain ⟨rfl, -⟩ := List.cons.inj next'
    exact ⟨.of_same rfl rfl, rfl, idle⟩
  | sleep awake barred =>
    rw [idle] at barred
    cases barred
  | _ => simp_all

/-- Through a whole pause the stop stays in force and nothing changes. -/
theorem Pause.still (h : c.LockOwnership) (hheld : c.gate.holder = some t)
    (hreturned : (c.stage t).wait ≠ .silence) (hpause : Pause t c c') :
    c'.LockOwnership ∧ c'.gate.holder = some t ∧ (c'.stage t).wait ≠ .silence ∧ c.Still c' := by
  induction hpause with
  | here => exact ⟨h, hheld, hreturned, .refl c⟩
  | other before hu gated step ih =>
    obtain ⟨howner, hheld', hreturned', hstill⟩ := ih
    refine ⟨howner.step step, step.holder hheld' hu, ?_,
      hstill.trans (step.still howner hheld' hreturned' hu gated)⟩
    rwa [(step.others hu.symm).1]
  | look before idle next step ih =>
    obtain ⟨howner, hheld', -, hstill⟩ := ih
    obtain ⟨hlook, hgate, hidle⟩ := step.look idle next
    refine ⟨howner.step step, hgate ▸ hheld', ?_, hstill.trans hlook⟩
    rw [hidle]
    simp [Stage.wait]

/-- From the moment a stop of a thread has returned, and as long as no other thread strays, frames,
stacks and cells stay as they are, and each look at the roots shows the same. -/
theorem Ran.quiescent {start : Machine A} {todo : Thread → List Action}
    (hgate : start.gate = .fresh) (hran : Ran anything (.opening start todo) c)
    (hheld : c.gate.holder = some t) (hreturned : (c.stage t).wait ≠ .silence)
    (hpause : Pause t c c') :
    c.Still c' ∧ c'.machine.roots t = .ok c.calls.roots := by
  obtain ⟨-, hheld', -, hstill⟩ := hpause.still (hran.lockOwnership hgate) hheld hreturned
  refine ⟨hstill, ?_⟩
  rw [roots_eq hheld', hstill.roots]

/-- One thread makes an object, the other stops everybody and looks at the roots twice. -/
def creating : Thread → List Action
  | 0 => [.beginRun "entry" [], .newObject ⟨0, 0⟩]
  | 1 => [.stop, .roots, .roots, .resume]
  | _ => []

/-- What is said of all pauses, said of one in which a thread registers a stack and falls asleep at
the gate, and the holder of the stop looks at the roots. -/
theorem quiescent_of_sleeper :
    ∃ (start : Machine MarkSweep) (c c' : Crew MarkSweep),
      Machine.build Thread.first (.ofSize 8 2) (MarkSweep.fresh .zero) .standard = .ok start ∧
        Ran anything (.opening start creating) c ∧ Pause 1 c c' ∧ c'.past.length = 2 ∧
        c.Still c' ∧ c'.machine.roots 1 = .ok c.calls.roots := by
  obtain ⟨start, hbuild, hgate⟩ : ∃ start : Machine MarkSweep,
      Machine.build Thread.first (.ofSize 8 2) (MarkSweep.fresh .zero) .standard = .ok start ∧
        start.gate = .fresh := ⟨_, rfl, rfl⟩
  have hopen : start.gate.lets 1 = true := by rw [hgate]; rfl
  have hquiet : start.gate.quiet 1 = true := by rw [hgate]; rfl
  have hclosed : (start.gate.close 1).lets 0 = false := by rw [hgate]; rfl
  let c := ((((opening start creating).takeUp 1 [.roots, .roots, .resume]).put 1
    (.stopping .program)).withGate (start.gate.close 1)).halted 1 .program
  have hran : Ran anything (opening start creating) c :=
    (Ran.start.step trivial (.begin (t := 1) rfl rfl rfl)).step trivial
      (.close (t := 1) rfl rfl hopen (.inr hquiet))
  have hfirst : ¬ c.strays 0 := by
    rintro ⟨action, rest, hnext, hunasked⟩
    obtain rfl := (List.cons.inj hnext).1
    cases hunasked
  let c₁ := ((c.takeUp 0 [.newObject ⟨0, 0⟩]).register 0).put 0
    (.entering (.enterRun c.calls.known.size "entry" []))
  have hsleep : c₁.Step 0 (c₁.fallAsleep 0) := .sleep rfl hclosed
  have hpause : Pause 1 c _ :=
    ((Pause.here.other (by decide) hfirst (.register rfl rfl rfl)).other (by decide) id hsleep).look
      rfl rfl (.atOnce rfl rfl rfl (fun h => nomatch h))
  exact ⟨start, c, _, hbuild, hran, hpause, rfl,
    hran.quiescent hgate (Gate.holder_close hopen) (fun h => nomatch h) hpause⟩

/-! ### What strays -/

/-- What a thread that holds a stop sees, whether it waits, what it would see after the next step of
another thread, and whether it would hold the stop then. -/
def sightsAround (holder other : Thread) (c : Crew A) :
    (Option Thread × Wait × List Handle) × Option (Option Thread × List Handle) :=
  ((c.gate.holder, (c.stage holder).wait, c.calls.roots),
    (c.next? other).map fun c' => (c'.gate.holder, c'.calls.roots))

/-- One thread makes a call that makes an object and panics, the other stops everybody and looks at
the roots twice. -/
def unwinding : Thread → List Action
  | 0 => [.beginRun "entry" [], .beginCall ⟨0, 0⟩ "callee" [], .newObject ⟨0, 1⟩,
      .abandonCall ⟨0, 1⟩]
  | 1 => [.stop, .roots, .roots, .resume]
  | _ => []

/-- While a stop is in force the roots change under the eyes of its holder: a panic pops a frame,
and a frame gets a new object that was checked for before the stop. -/
theorem not_still_under_stop :
    (∃ (start : Machine MarkSweep) (c c' : Crew MarkSweep),
      Machine.build Thread.first (.ofSize 8 2) (MarkSweep.fresh .zero) .standard = .ok start ∧
        Ran anything (.opening start unwinding) c ∧ c.gate.holder = some 1 ∧
        (c.stage 1).wait = .nothing ∧ c.Step 0 c' ∧ c.machine.roots 1 = .ok [1] ∧
        c'.machine.roots 1 = .ok []) ∧
    ∃ (start : Machine MarkSweep) (c c' : Crew MarkSweep),
      Machine.build Thread.first (.ofSize 8 2) (MarkSweep.fresh .zero) .standard = .ok start ∧
        Ran anything (.opening start creating) c ∧ c.gate.holder = some 1 ∧
        (c.stage 1).wait = .nothing ∧ c.Step 0 c' ∧ c.machine.roots 1 = .ok [] ∧
        c'.machine.roots 1 = .ok [1] := by
  constructor
  · have hseen : observed anything (.ofSize 8 2) (MarkSweep.fresh .zero) unwinding
        (List.replicate 17 0 ++ [1, 1]) (sightsAround 1 0) =
          some ((some 1, .nothing, [1]), some (some 1, [])) := by decide +kernel
    obtain ⟨start, c, hbuild, hran, hsights⟩ := exists_ran_of_observed hseen
    simp only [sightsAround, Prod.mk.injEq, Option.map_eq_some_iff] at hsights
    obtain ⟨⟨hheld, hwait, hroots⟩, c', hnext, hheld', hroots'⟩ := hsights
    exact ⟨start, c, c', hbuild, hran, hheld, hwait, step_of_next? hnext,
      hroots ▸ roots_eq hheld, hroots' ▸ roots_eq hheld'⟩
  · have hseen : observed anything (.ofSize 8 2) (MarkSweep.fresh .zero) creating
        (List.replicate 8 0 ++ [1, 1] ++ List.replicate 3 0) (sightsAround 1 0) =
          some ((some 1, .nothing, []), some (some 1, [1])) := by decide +kernel
    obtain ⟨start, c, hbuild, hran, hsights⟩ := exists_ran_of_observed hseen
    simp only [sightsAround, Prod.mk.injEq, Option.map_eq_some_iff] at hsights
    obtain ⟨⟨hheld, hwait, hroots⟩, c', hnext, hheld', hroots'⟩ := hsights
    exact ⟨start, c, c', hbuild, hran, hheld, hwait, step_of_next? hnext,
      hroots ▸ roots_eq hheld, hroots' ▸ roots_eq hheld'⟩

end Crew

end RootedHeap
