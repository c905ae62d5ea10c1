import RootedHeap.Program.Basic
import RootedHeap.Proofs.Operations

/-!
Everything that can happen to a machine. A session is a world together with a ledger of what
programs have in their hands: the environments that were given out, the calls and runs that have
begun and not ended, and the runs that were cut off. A program acts by an environment only if it was
given one, and ends only what has begun; within these rules any thread may take any action at any
time, so the sessions that `Session.Ran` reaches are those of all programs in all orders.

`Session.ledger_step` says once what an action can do to the tables of frames and stacks. What an
action answers decides which objects it brings to a frame from outside, by `Action.gain`.
-/

namespace RootedHeap

/-- What programs have in their hands. -/
structure Ledger where
  envs : List Env
  /-- The calls that have begun and not ended, each as its caller and its callee. -/
  calls : List (Env × Env)
  runs : List Env
  broken : List Env

/-- An action, the thread that took it, and what it answered. -/
structure Move where
  thread : Thread
  action : Action
  reply : action.Reply

/-- The objects that an answer brings to the frame that asked. -/
def Action.gain : (action : Action) → action.Reply → List Handle
  | .newObject _, .ok h => [h]
  | .getReference .., .ok h => if h = Handle.null then [] else [h]
  | _, _ => []

namespace Ledger

def empty : Ledger := ⟨[], [], [], []⟩

/-- Whether a program may take an action, given what is in the ledger. -/
def permits (l : Ledger) : Action → Prop
  | .newObject env | .getReference env _ _ | .getData env _ _ | .setReference env _ _ _
  | .setData env _ _ _ | .release env _ | .beginCall env _ _ | .frame env | .envLayout env
  | .keep _ env => env ∈ l.envs
  | .endCall caller callee _ => (caller, callee) ∈ l.calls
  | .abandonCall callee => ∃ caller, (caller, callee) ∈ l.calls
  | .endRun entry _ | .abandonRun entry => entry ∈ l.runs
  | _ => True

instance (l : Ledger) (action : Action) : Decidable (l.permits action) :=
  match action with
  | .newObject env | .getReference env _ _ | .getData env _ _ | .setReference env _ _ _
  | .setData env _ _ _ | .release env _ | .beginCall env _ _ | .frame env | .envLayout env
  | .keep _ env => inferInstanceAs (Decidable (env ∈ l.envs))
  | .endCall caller callee _ => inferInstanceAs (Decidable ((caller, callee) ∈ l.calls))
  | .abandonCall callee =>
    decidable_of_iff (∃ p ∈ l.calls, p.2 = callee)
      ⟨fun ⟨p, hp, heq⟩ => ⟨p.1, heq ▸ hp⟩, fun ⟨_, hp⟩ => ⟨_, hp, rfl⟩⟩
  | .endRun entry _ | .abandonRun entry => inferInstanceAs (Decidable (entry ∈ l.runs))
  | .beginRun .. | .collect | .stop | .resume | .roots | .stats | .threadCount | .pauses | .width
  | .handles | .cell .. | .note .. | .kept _ | .report _ | .turn => isTrue trivial

/-- The ledger after an action was answered. -/
def record (l : Ledger) : (action : Action) → action.Reply → Ledger
  | .beginCall caller _ _, .ok callee =>
    { l with envs := l.envs ++ [callee], calls := (caller, callee) :: l.calls }
  | .endCall caller callee _, _ => { l with calls := l.calls.erase (caller, callee) }
  | .abandonCall callee, _ => { l with calls := l.calls.filter (·.2 ≠ callee) }
  | .beginRun _ _, .ok entry => { l with envs := l.envs ++ [entry], runs := l.runs ++ [entry] }
  | .endRun entry _, _ => { l with runs := l.runs.erase entry }
  | .abandonRun entry, _ =>
    { l with runs := l.runs.erase entry, broken := l.broken ++ [entry] }
  | _, _ => l

/-- What an action within the rules does to the ledger and the tables, with the objects that it
brings to a frame from outside. -/
inductive Step (l : Ledger) (t : CallStacks) : List Handle → Ledger → CallStacks → Prop
  | idle : Step l t [] l t
  | hold {env : Env} {h : Handle} (known : env ∈ l.envs)
      (active : (t.frame env.frame).state = .active) :
    Step l t [h] l (t.change env.frame (·.insert h))
  | release {env : Env} {h : Handle} (known : env ∈ l.envs)
      (active : (t.frame env.frame).state = .active) :
    Step l t [] l (t.change env.frame (·.remove h))
  | beginCall {caller : Env} {objects : List Handle} (known : caller ∈ l.envs)
      (active : (t.frame caller.frame).state = .active)
      (handed : ∀ h ∈ objects, h ∈ (t.frame caller.frame).handles) :
    Step l t []
      { l with
        envs := l.envs ++ [⟨caller.stack, t.frames.size⟩]
        calls := (caller, ⟨caller.stack, t.frames.size⟩) :: l.calls }
      (t.opened caller.stack objects)
  | endCall {caller callee : Env} {result : Answer Word} (pending : (caller, callee) ∈ l.calls)
      (returned : ∀ word h, result = .ok word → word.target? = some h →
        h ∈ (t.frame callee.frame).handles) :
    Step l t [] { l with calls := l.calls.erase (caller, callee) }
      ((t.settled caller.frame callee.frame result).pop callee.stack callee.frame)
  | abandonCall {caller callee : Env} (pending : (caller, callee) ∈ l.calls) :
    Step l t [] { l with calls := l.calls.filter (·.2 ≠ callee) }
      (t.pop callee.stack callee.frame)
  | beginRun :
    Step l t []
      { l with
        envs := l.envs ++ [⟨t.known.size, t.frames.size⟩]
        runs := l.runs ++ [⟨t.known.size, t.frames.size⟩] }
      (t.register.2.opened t.known.size [])
  | endRun {entry : Env} (begun : entry ∈ l.runs) :
    Step l t [] { l with runs := l.runs.erase entry }
      ((t.pop entry.stack entry.frame).unregister (t.stack entry.stack).id)
  | abandonRun {entry : Env} (begun : entry ∈ l.runs) :
    Step l t [] { l with runs := l.runs.erase entry, broken := l.broken ++ [entry] }
      (t.unregister (t.stack entry.stack).id)

end Ledger

/-- A machine over new memory, with cells of one width, and no more of them than a word can number,
as in any memory. -/
inductive Machine.OnNewHeap {A : Type} [Allocator A] (allocator : A) (config : MachineConfig)
    (width : Nat) (m : Machine A) : Prop
  | mk {first : Thread} {size : Nat}
      (build : Machine.build first (.ofSize size width) allocator config = .ok m)
      (small : size ≤ Handle.greatest + 1)

/-- A world and the ledger of the programs on it. -/
structure Session (A : Type) where
  world : World A
  ledger : Ledger

namespace Session

variable {A : Type}

def opening (start : Machine A) : Session A := ⟨.around start, .empty⟩

def machine (s : Session A) : Machine A := s.world.machine

def calls (s : Session A) : CallStacks := s.machine.calls

/-! ### What an operation does to the ledger and the tables -/

section Operations

open Machine

variable {s : Session A} {t : Thread}

theorem step_getReference {env : Env} {object : Handle} {slot : Nat}
    (hknown : env ∈ s.ledger.envs) :
    s.ledger.Step s.calls
      (Action.gain (.getReference env object slot) (s.machine.getReference t env object slot).1)
      s.ledger (s.machine.getReference t env object slot).2.calls := by
  rw [getReference_eq]
  cases hcheck : s.machine.referenceAt env object slot with
  | error fault => exact .idle
  | ok h =>
    rw [decided_ok]
    show s.ledger.Step _ (if h = Handle.null then [] else [h]) _ _
    by_cases h0 : h = Handle.null
    · simp only [h0, ↓reduceIte]
      exact .idle
    · simp only [h0, ↓reduceIte]
      exact .hold hknown (of_referenceAt_eq_ok hcheck).1

theorem step_release {env : Env} {object : Handle} (hknown : env ∈ s.ledger.envs) :
    s.ledger.Step s.calls [] s.ledger (s.machine.release t env object).2.calls := by
  rw [release_eq]
  cases hcheck : s.machine.releasable env object with
  | error fault => exact .idle
  | ok _ => exact .release hknown (releasable_eq_ok.1 hcheck).1

theorem step_beginCall {caller : Env} {name : String} {args : List Word}
    (hknown : caller ∈ s.ledger.envs) :
    s.ledger.Step s.calls []
      (s.ledger.record (.beginCall caller name args) (s.machine.beginCall t caller name args).1)
      (s.machine.beginCall t caller name args).2.calls := by
  obtain ⟨text, heq⟩ := beginCall_eq s.machine t caller name args
  rw [heq]
  cases hcheck : s.machine.callable caller args with
  | error fault => exact .idle
  | ok objects =>
    rw [decided_ok, calls_traced]
    obtain ⟨hactive, -, hhanded⟩ := of_callable_eq_ok hcheck
    exact .beginCall hknown hactive hhanded

theorem step_endCall {caller callee : Env} {outcome : Answer Word}
    (hpending : (caller, callee) ∈ s.ledger.calls) :
    s.ledger.Step s.calls [] { s.ledger with calls := s.ledger.calls.erase (caller, callee) }
      (s.machine.endCall t caller callee outcome).2.calls := by
  obtain ⟨text, heq⟩ := endCall_eq s.machine t caller callee outcome
  rw [heq, calls_traced]
  exact .endCall hpending fun word h hok htarget => held_of_checkResult_eq_ok hok htarget

theorem step_beginRun {name : String} {args : List Word} :
    s.ledger.Step s.calls []
      (s.ledger.record (.beginRun name args) (s.machine.beginRun t name args).1)
      (s.machine.beginRun t name args).2.calls := by
  cases hargs : args.findSome? Word.target? with
  | some h =>
    rw [beginRun_refused hargs]
    exact .idle
  | none =>
    obtain ⟨text, heq⟩ := beginRun_eq s.machine t name hargs
    rw [heq]
    exact .beginRun

theorem step_endRun {entry : Env} {outcome : Answer Word} (hbegun : entry ∈ s.ledger.runs) :
    s.ledger.Step s.calls [] { s.ledger with runs := s.ledger.runs.erase entry }
      (s.machine.endRun t entry outcome).2.calls := by
  obtain ⟨text, heq⟩ := endRun_eq s.machine t entry outcome
  rw [heq]
  exact .endRun hbegun

end Operations

/-! ### Sessions in motion -/

variable [Allocator A]

def reply (s : Session A) (t : Thread) (action : Action) : action.Reply :=
  (s.world.perform t action).1

def after (s : Session A) (t : Thread) (action : Action) : Session A :=
  ⟨(s.world.perform t action).2, s.ledger.record action (s.reply t action)⟩

/-- The sessions that moves within the rules lead to, the latest move first. -/
inductive Ran (start : Machine A) : List Move → Session A → Prop
  | opening : Ran start [] (.opening start)
  | move {past : List Move} {s : Session A} (ran : Ran start past s) (t : Thread) (action : Action)
      (permitted : s.ledger.permits action) :
    Ran start (⟨t, action, s.reply t action⟩ :: past) (s.after t action)

/-- A machine that was just built has no frames. -/
theorem calls_of_build {m : Machine A} {t : Thread} {heap : Heap} {allocator : A}
    {config : MachineConfig}
    (hbuild : Machine.build t heap allocator config = .ok m) : m.calls = .empty := by
  unfold Machine.build at hbuild
  split at hbuild
  · cases hbuild
  · obtain rfl := Except.ok.inj hbuild
    rfl

theorem config_of_build {m : Machine A} {t : Thread} {heap : Heap} {allocator : A}
    {config : MachineConfig} (hbuild : Machine.build t heap allocator config = .ok m) :
    m.config = config := by
  unfold Machine.build at hbuild
  split at hbuild
  · cases hbuild
  · obtain rfl := Except.ok.inj hbuild
    rfl

section Step

open Machine

variable {s : Session A} {t : Thread}

theorem step_newObject {env : Env} (hknown : env ∈ s.ledger.envs) :
    s.ledger.Step s.calls (Action.gain (.newObject env) (s.machine.newObject t env).1) s.ledger
      (s.machine.newObject t env).2.calls := by
  rw [newObject_eq]
  cases hactive : s.machine.checkActive env with
  | error fault => exact .idle
  | ok _ =>
    dsimp only
    rcases Allocator.allocate t s.machine.calls s.machine.toArena with ⟨fault | h, arena⟩
    · exact .idle
    · dsimp only
      split
      · exact .idle
      · rw [calls_traced]
        exact .hold hknown (checkActive_eq_ok.1 hactive)

/-- A request to a cell, past all frames, is none of the tables' business. -/
theorem calls_cell {h : Handle} {command : CellCommand} :
    (s.after t (.cell h command)).calls = s.calls := by
  cases hperform : s.world.machine.heap.perform h command with
  | error fault => simp only [after, calls, machine, World.perform, World.onMachine, hperform]
  | ok answered => simp only [after, calls, machine, World.perform, World.onMachine, hperform]

/-- Whatever the allocator does, an action within the rules changes the ledger and the tables by one
of nine steps. -/
theorem ledger_step {action : Action} (hpermits : s.ledger.permits action) :
    s.ledger.Step s.calls (action.gain (s.reply t action)) (s.after t action).ledger
      (s.after t action).calls := by
  cases action with
  | newObject env => exact step_newObject hpermits
  | getReference env object slot => exact step_getReference hpermits
  | getData env object slot =>
    show s.ledger.Step s.calls [] s.ledger (s.machine.getData t env object slot).2.calls
    rw [getData_eq]
    cases s.machine.dataAt env object slot <;> exact .idle
  | setReference env object slot target =>
    show s.ledger.Step s.calls [] s.ledger (s.machine.setReference t env object slot target).2.calls
    rw [setReference_eq]
    cases s.machine.storableReference env object slot target <;> exact .idle
  | setData env object slot word =>
    show s.ledger.Step s.calls [] s.ledger (s.machine.setData t env object slot word).2.calls
    rw [setData_eq]
    cases s.machine.storableData env object slot word <;> exact .idle
  | release env object => exact step_release hpermits
  | beginCall caller name args => exact step_beginCall hpermits
  | endCall caller callee outcome => exact step_endCall hpermits
  | abandonCall callee =>
    obtain ⟨caller, hpending⟩ := hpermits
    exact .abandonCall hpending
  | beginRun name args => exact step_beginRun
  | endRun entry outcome => exact step_endRun hpermits
  | abandonRun entry => exact .abandonRun hpermits
  | cell h command =>
    have hcalls : (s.after t (.cell h command)).calls = s.calls := calls_cell
    rw [hcalls]
    exact .idle
  | resume =>
    show s.ledger.Step s.calls [] s.ledger s.calls
    exact .idle
  | _ => exact .idle

theorem config_newObject {env : Env} :
    (s.machine.newObject t env).2.config = s.machine.config := by
  rw [newObject_eq]
  cases s.machine.checkActive env with
  | error fault => rfl
  | ok _ =>
    dsimp only
    rcases Allocator.allocate t s.machine.calls s.machine.toArena with ⟨fault | h, arena⟩
    · rfl
    · dsimp only
      split
      · rfl
      · rw [config_traced]
        rfl

/-- No action changes the settings. -/
theorem config_after {action : Action} :
    (s.after t action).machine.config = s.machine.config := by
  have hdecided : ∀ {α γ : Type} {check : Answer γ} {answer : γ → α} {effect : γ → Machine A},
      (∀ c, (effect c).config = s.machine.config) →
        (s.machine.decided check answer effect).2.config = s.machine.config :=
    fun heffect =>
      decided_keeps (P := fun m => m.config = s.machine.config) rfl fun c _ => heffect c
  cases action with
  | newObject env => exact config_newObject
  | getReference env object slot =>
    show (s.machine.getReference t env object slot).2.config = _
    rw [getReference_eq]
    exact hdecided fun h => by split <;> rfl
  | getData env object slot =>
    show (s.machine.getData t env object slot).2.config = _
    rw [getData_eq]
    exact hdecided fun _ => rfl
  | setReference env object slot target =>
    show (s.machine.setReference t env object slot target).2.config = _
    rw [setReference_eq]
    exact hdecided fun _ => rfl
  | setData env object slot word =>
    show (s.machine.setData t env object slot word).2.config = _
    rw [setData_eq]
    exact hdecided fun _ => rfl
  | release env object =>
    show (s.machine.release t env object).2.config = _
    rw [release_eq]
    exact hdecided fun _ => rfl
  | beginCall caller name args =>
    obtain ⟨text, heq⟩ := beginCall_eq s.machine t caller name args
    show (s.machine.beginCall t caller name args).2.config = _
    rw [heq]
    exact hdecided fun _ => config_traced
  | endCall caller callee outcome =>
    obtain ⟨text, heq⟩ := endCall_eq s.machine t caller callee outcome
    show (s.machine.endCall t caller callee outcome).2.config = _
    rw [heq, config_traced]
  | beginRun name args =>
    show (s.machine.beginRun t name args).2.config = _
    cases hargs : args.findSome? Word.target? with
    | some h => rw [beginRun_refused hargs]
    | none =>
      obtain ⟨text, heq⟩ := beginRun_eq s.machine t name hargs
      rw [heq]
      rfl
  | endRun entry outcome =>
    obtain ⟨text, heq⟩ := endRun_eq s.machine t entry outcome
    show (s.machine.endRun t entry outcome).2.config = _
    rw [heq]
    rfl
  | cell h command =>
    cases hperform : s.world.machine.heap.perform h command with
    | error fault => simp only [after, machine, World.perform, World.onMachine, hperform]
    | ok answered => simp only [after, machine, World.perform, World.onMachine, hperform]
  | _ => rfl

end Step

/-! ### Sessions that can be computed -/

/-- The moves that a list of actions makes, the first one last. -/
def moves (s : Session A) : List (Thread × Action) → List Move
  | [] => []
  | (t, action) :: rest => (s.after t action).moves rest ++ [⟨t, action, s.reply t action⟩]

theorem map_moves {s : Session A} {script : List (Thread × Action)} :
    (s.moves script).map (fun move => (move.thread, move.action)) = script.reverse := by
  induction script generalizing s with
  | nil => rfl
  | cons step script ih => rw [moves, List.map_append, ih, List.reverse_cons]; rfl

/-- The session after a list of actions, the first one first, if the rules permit them. -/
def follow (s : Session A) : List (Thread × Action) → Option (Session A)
  | [] => some s
  | (t, action) :: rest =>
    if s.ledger.permits action then (s.after t action).follow rest else none

/-- Every list of actions that can be followed leads to a session by the moves that it makes. -/
theorem Ran.follow {start : Machine A} {past : List Move} {s s' : Session A}
    {script : List (Thread × Action)} (hran : Ran start past s)
    (hfollow : s.follow script = some s') : Ran start (s.moves script ++ past) s' := by
  induction script generalizing s past with
  | nil =>
    obtain rfl := Option.some.inj hfollow
    exact hran
  | cons step script ih =>
    rw [Session.follow] at hfollow
    split at hfollow
    · rename_i hpermits
      rw [moves, List.append_assoc]
      exact ih (hran.move step.1 step.2 hpermits) hfollow
    · cases hfollow

/-- What there is to see at the end of a list of actions and of the moves that it makes, if it can
be followed. -/
def observed {β : Type} (heap : Heap) (allocator : A) (script : List (Thread × Action))
    (see : List Move → Session A → β) : Option β :=
  match Machine.build Thread.first heap allocator .standard with
  | .error _ => none
  | .ok start => ((opening start).follow script).map (see ((opening start).moves script))

/-- What is seen is seen in a session. -/
theorem exists_ran_of_observed {β : Type} {heap : Heap} {allocator : A}
    {script : List (Thread × Action)} {see : List Move → Session A → β} {sight : β}
    (hseen : observed heap allocator script see = some sight) :
    ∃ start past s, Machine.build Thread.first heap allocator .standard = .ok start ∧
      Ran start past s ∧ past.map (fun move => (move.thread, move.action)) = script.reverse ∧
      see past s = sight := by
  unfold observed at hseen
  split at hseen
  · cases hseen
  · rename_i start hbuild
    obtain ⟨s, hfollow, hsee⟩ := Option.map_eq_some_iff.1 hseen
    have hran := Ran.opening.follow hfollow
    rw [List.append_nil] at hran
    exact ⟨start, _, s, hbuild, hran, map_moves, hsee⟩

end Session

end RootedHeap
