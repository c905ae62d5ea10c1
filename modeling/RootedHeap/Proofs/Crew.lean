import RootedHeap.Proofs.AllocatorSteps
import RootedHeap.Proofs.Gatehouse
import RootedHeap.Proofs.Sessions

/-!
Many threads on one machine. Each thread has a list of actions to carry out and is at some stage of
one of them; a step of the crew is a step of one thread, cut where the program takes or drops a lock
or a scope. A frame operation opens a scope, has its effect, and leaves the scope. A request for an
object checks the frame in a scope, leaves it, waits for the allocator, and hands the cell to the
frame before it lets the allocator go. A collection holds the allocator from its beginning to its
end. A run registers its stack before it opens the scope of its entry frame and forgets the stack
after it has left the scope of its exit. What an action does inside its scope is what
`World.perform` says.

`Crew.gatehouse` is the crew as the gate sees it: each step of a crew is one at the gate or none.
-/

namespace RootedHeap

/-- Whether an action has all its effect in one scope. -/
def Action.operates : Action → Bool
  | .getReference .. | .getData .. | .setReference .. | .setData .. | .release ..
  | .beginCall .. | .endCall .. => true
  | _ => false

/-- What a thread does inside a scope. -/
inductive ScopedWork where
  | operate (action : Action) (fits : action.operates = true)
  | check (env : Env)
  | enterRun (stack : StackRef) (name : String) (args : List Word)
  | leaveRun (entry : Env) (outcome : Answer Word)

/-- What a thread does when it has left a scope. -/
inductive AfterScope where
  | nothing
  | allocate (env : Env)
  | unregister (entry : Env)

/-- What a thread asks the allocator for. -/
inductive AllocatorTask where
  | object (env : Env)
  | collection

namespace AllocatorTask

def request : AllocatorTask → Request
  | .object _ => .cell
  | .collection => .collection

end AllocatorTask

/-- Who wants the gate closed, and what comes when it is. -/
inductive StopCause (S : Type) where
  | program
  | allocator (task : AllocatorTask) (next : S)

/-- How far a thread has come with an action, for an allocator with control points `S`. -/
inductive Stage (S : Type) where
  | idle
  | entering (scopedWork : ScopedWork)
  | inside (scopedWork : ScopedWork)
  | leaving (following : AfterScope)
  | unregistering (entry : Env)
  | locking (task : AllocatorTask)
  | working (task : AllocatorTask) (point : S)
  | stopping (cause : StopCause S)
  /-- Has closed the gate and waits for the scopes of others. -/
  | draining (cause : StopCause S)
  /-- Has the allocator, and a cell that no frame holds yet. -/
  | receiving (env : Env) (h : Handle)
  | unlocking

namespace AfterScope

def stage {S : Type} : AfterScope → Stage S
  | .nothing => .idle
  | .allocate env => .locking (.object env)
  | .unregister entry => .unregistering entry

end AfterScope

namespace StopCause

variable {S : Type}

def stage : StopCause S → Stage S
  | .program => .idle
  | .allocator task next => .working task next

def locked : StopCause S → Bool
  | .program => false
  | .allocator .. => true

end StopCause

namespace Stage

variable {S : Type}

def wait : Stage S → Wait
  | .entering _ => .scope
  | .stopping _ => .stop
  | .draining _ => .silence
  | _ => .nothing

def hasScope : Stage S → Bool
  | .inside _ | .leaving _ => true
  | _ => false

def hasLock : Stage S → Bool
  | .working .. | .receiving .. | .unlocking => true
  | .stopping cause | .draining cause => cause.locked
  | _ => false

@[simp] theorem wait_afterScope {following : AfterScope} :
    (following.stage : Stage S).wait = .nothing := by
  cases following <;> rfl

@[simp] theorem hasScope_afterScope {following : AfterScope} :
    (following.stage : Stage S).hasScope = false := by
  cases following <;> rfl

@[simp] theorem hasLock_afterScope {following : AfterScope} :
    (following.stage : Stage S).hasLock = false := by
  cases following <;> rfl

end Stage

namespace Action

/-- The stage at which an action begins that has to wait for a scope, the allocator or a stop. -/
def first {S : Type} : Action → Option (Stage S)
  | .newObject env => some (.entering (.check env))
  | .endRun entry outcome => some (.entering (.leaveRun entry outcome))
  | .collect => some (.locking .collection)
  | .stop => some (.stopping .program)
  | action =>
    if fits : action.operates = true then some (.entering (.operate action fits)) else none

/-- Whether an action is done at once, outside of any scope. The frames that a panic leaves behind
are popped, and the stack of a run that panicked is forgotten, without asking the gate. -/
def atOnce : Action → Bool
  | .abandonCall _ | .abandonRun _ | .resume | .roots | .frame _ | .envLayout _ | .stats
  | .threadCount | .pauses | .width | .handles | .cell .. | .note .. | .keep .. | .kept _
  | .report _ | .turn => true
  | .beginRun _ args => (args.findSome? Word.target?).isSome
  | _ => false

end Action

theorem Machine.gate_resume {A : Type} {m : Machine A} {t : Thread} :
    (m.resume t).gate = m.gate.resume t := by
  show (m.toArena.resume t).gate = m.gate.resume t
  unfold Arena.resume Gate.resume
  cases m.gate.resume? t <;> rfl

/-- A machine, the threads on it, and what they have in their hands. -/
structure Crew (A : Type) [Allocator A] [Staged A] where
  world : World A
  ledger : Ledger
  past : List Move
  lock : Option Thread
  stage : Thread → Stage (Staged.ControlPoint A)
  asleep : Thread → Bool
  todo : Thread → List Action
  owner : StackRef → Thread

namespace Crew

variable {A : Type} [Allocator A] [Staged A]

/-- Threads with something to do on a machine that nothing has happened to. -/
def opening (start : Machine A) (todo : Thread → List Action) : Crew A :=
  ⟨.around start, .empty, [], none, fun _ => .idle, fun _ => false, todo, fun _ => Thread.first⟩

def machine (c : Crew A) : Machine A := c.world.machine

def calls (c : Crew A) : CallStacks := c.machine.calls

def gate (c : Crew A) : Gate := c.machine.gate

def heap (c : Crew A) : Heap := c.machine.heap

def session (c : Crew A) : Session A := ⟨c.world, c.ledger⟩

def withMachine (c : Crew A) (machine : Machine A) : Crew A :=
  { c with world := { c.world with machine } }

def withGate (c : Crew A) (gate : Gate) : Crew A := c.withMachine { c.machine with gate }

def put (c : Crew A) (t : Thread) (stage : Stage (Staged.ControlPoint A)) : Crew A :=
  { c with stage := Function.update c.stage t stage }

def fallAsleep (c : Crew A) (t : Thread) : Crew A :=
  { c with asleep := Function.update c.asleep t true }

/-- All sleepers are notified, if there is reason to. -/
def notifyAll (c : Crew A) (reason : Bool) : Crew A :=
  { c with asleep := if reason then fun _ => false else c.asleep }

def takeUp (c : Crew A) (t : Thread) (rest : List Action) : Crew A :=
  { c with todo := Function.update c.todo t rest }

def answer (c : Crew A) (t : Thread) (action : Action) (reply : action.Reply) : Crew A :=
  { c with ledger := c.ledger.record action reply, past := ⟨t, action, reply⟩ :: c.past }

def perform (c : Crew A) (t : Thread) (action : Action) : Crew A :=
  { c with world := (c.world.perform t action).2 }.answer t action (c.world.perform t action).1

def register (c : Crew A) (t : Thread) : Crew A :=
  { c.withMachine { c.machine with calls := c.calls.register.2 } with
    owner := Function.update c.owner c.calls.known.size t }

def check (c : Crew A) (t : Thread) (env : Env) : Crew A :=
  match c.machine.checkActive env with
  | .ok _ => c.put t (.leaving (.allocate env))
  | .error fault => (c.answer t (.newObject env) (.error fault)).put t (.leaving .nothing)

/-- Thread `t` opens the entry frame of a run. -/
def enterRun (c : Crew A) (t : Thread) (stack : StackRef) (name : String) (args : List Word) :
    Crew A :=
  let (entry, m) := c.machine.openFrame stack []
  let line := s!"mutator stack {(m.calls.stack stack).id}: enter {name}"
  (c.withMachine (m.note t .debug line)).answer t (.beginRun name args) (.ok entry)

/-- Thread `t` closes the entry frame of a run. -/
def leaveRun (c : Crew A) (t : Thread) (entry : Env) (outcome : Answer Word) : Crew A :=
  let result := c.machine.checkResult entry outcome
  let popped := { c.machine with calls := c.calls.pop entry.stack entry.frame }
  let line := s!"mutator stack {(c.calls.stack entry.stack).id}: exit with " ++ Answer.layout result
  (c.withMachine (popped.note t .debug line)).answer t (.endRun entry outcome) result

/-- A frame comes to hold the cell that thread `t` got for it, unless it does already. -/
def receive (c : Crew A) (t : Thread) (env : Env) (h : Handle) : Crew A :=
  if (c.machine.frame env).holds h then
    c.answer t (.newObject env) (.error (.invalidState (.alreadyHeld h)))
  else
    (c.withMachine ((c.machine.hold env h).traced t
      s!"frame {(c.machine.frame env).depth}: new object {h}")).answer t (.newObject env) (.ok h)

/-- The gate is closed and quiet for thread `t`. -/
def halted (c : Crew A) (t : Thread) (cause : StopCause (Staged.ControlPoint A)) : Crew A :=
  match cause with
  | .program => (c.answer t .stop ()).put t cause.stage
  | .allocator .. => c.put t cause.stage

/-- One step of thread `t`. -/
inductive Step (c : Crew A) (t : Thread) : Crew A → Prop
  | begin {action : Action} {rest : List Action} {stage : Stage (Staged.ControlPoint A)}
      (idle : c.stage t = .idle) (next : c.todo t = action :: rest)
      (first : action.first = some stage) : Step c t ((c.takeUp t rest).put t stage)
  | register {name : String} {args : List Word} {rest : List Action} (idle : c.stage t = .idle)
      (next : c.todo t = .beginRun name args :: rest)
      (plain : args.findSome? Word.target? = none) :
    Step c t (((c.takeUp t rest).register t).put t
      (.entering (.enterRun c.calls.known.size name args)))
  /-- The statistics are the allocator's, so they wait for it. Only a resume opens the gate. -/
  | atOnce {action : Action} {rest : List Action} (idle : c.stage t = .idle)
      (next : c.todo t = action :: rest) (simple : action.atOnce = true)
      (free : action = .stats → c.lock = none) :
    Step c t (((c.takeUp t rest).perform t action).notifyAll
      (c.gate.isClosed && !(c.perform t action).gate.isClosed))
  | sleep (awake : c.asleep t = false) (barred : c.gate.admits t (c.stage t).wait = false) :
    Step c t (c.fallAsleep t)
  | enter {scopedWork : ScopedWork} (entering : c.stage t = .entering scopedWork)
      (awake : c.asleep t = false)
      (admitted : c.gate.lets t = true) :
    Step c t ((c.withGate (c.gate.enter t)).put t (.inside scopedWork))
  | operate {action : Action} {fits : action.operates = true}
      (inside : c.stage t = .inside (.operate action fits)) :
    Step c t ((c.perform t action).put t (.leaving .nothing))
  | check {env : Env} (inside : c.stage t = .inside (.check env)) : Step c t (c.check t env)
  | enterRun {stack : StackRef} {name : String} {args : List Word}
      (inside : c.stage t = .inside (.enterRun stack name args)) :
    Step c t ((c.enterRun t stack name args).put t (.leaving .nothing))
  | leaveRun {entry : Env} {outcome : Answer Word}
      (inside : c.stage t = .inside (.leaveRun entry outcome)) :
    Step c t ((c.leaveRun t entry outcome).put t (.leaving (.unregister entry)))
  | leave {following : AfterScope} (leaving : c.stage t = .leaving following) :
    Step c t (((c.withGate (c.gate.leave t)).notifyAll c.gate.isClosed).put t following.stage)
  | unregister {entry : Env} (unregistering : c.stage t = .unregistering entry) :
    Step c t ((c.withMachine (c.machine.unregister entry)).put t .idle)
  | lock {task : AllocatorTask} (locking : c.stage t = .locking task) (free : c.lock = none) :
    Step c t ({ c with lock := some t }.put t (.working task Staged.asked))
  | work {task : AllocatorTask} {point next : Staged.ControlPoint A} {allocator : A} {heap : Heap}
      {log : Array Entry}
      (working : c.stage t = .working task point)
      (nextStep : Staged.nextStep t task.request point c.machine.toArena =
        .work allocator heap log next) :
    Step c t ((c.withMachine { c.machine with allocator, heap, log }).put t (.working task next))
  | callStop {task : AllocatorTask} {point next : Staged.ControlPoint A}
      (working : c.stage t = .working task point)
      (nextStep : Staged.nextStep t task.request point c.machine.toArena = .stop next) :
    Step c t (c.put t (.stopping (.allocator task next)))
  | scan {task : AllocatorTask} {point : Staged.ControlPoint A}
      {next : Answer (List Handle) → Staged.ControlPoint A}
      (working : c.stage t = .working task point)
      (nextStep : Staged.nextStep t task.request point c.machine.toArena = .scan next) :
    Step c t (c.put t (.working task (next (c.machine.roots t))))
  | resume {task : AllocatorTask} {point next : Staged.ControlPoint A}
      (working : c.stage t = .working task point)
      (nextStep : Staged.nextStep t task.request point c.machine.toArena = .resume next) :
    Step c t (((c.withMachine (c.machine.resume t)).notifyAll
      (c.gate.isClosed && !(c.machine.resume t).gate.isClosed)).put t (.working task next))
  | deliver {env : Env} {point : Staged.ControlPoint A} {h : Handle}
      (working : c.stage t = .working (.object env) point)
      (nextStep : Staged.nextStep t .cell point c.machine.toArena = .done (.ok h)) :
    Step c t (c.put t (.receiving env h))
  | deny {env : Env} {point : Staged.ControlPoint A} {fault : Fault}
      (working : c.stage t = .working (.object env) point)
      (nextStep : Staged.nextStep t .cell point c.machine.toArena = .done (.error fault)) :
    Step c t ((c.answer t (.newObject env) (.error fault)).put t .unlocking)
  | finish {point : Staged.ControlPoint A} {reclaimed : Answer Nat}
      (working : c.stage t = .working .collection point)
      (nextStep : Staged.nextStep t .collection point c.machine.toArena = .done reclaimed) :
    Step c t ((c.answer t .collect reclaimed).put t .unlocking)
  | close {cause : StopCause (Staged.ControlPoint A)} (stopping : c.stage t = .stopping cause)
      (awake : c.asleep t = false) (admitted : c.gate.lets t = true)
      (still : c.gate.heldBy t = true ∨ c.gate.quiet t = true) :
    Step c t ((c.withGate (c.gate.close t)).halted t cause)
  /-- A stop that claims the gate and waits. -/
  | claim {cause : StopCause (Staged.ControlPoint A)} (stopping : c.stage t = .stopping cause)
      (awake : c.asleep t = false) (unheld : c.gate.holder = none)
      (loud : c.gate.quiet t = false) :
    Step c t (((c.withGate (c.gate.close t)).put t (.draining cause)).fallAsleep t)
  | drained {cause : StopCause (Staged.ControlPoint A)} (draining : c.stage t = .draining cause)
      (awake : c.asleep t = false) (still : c.gate.quiet t = true) : Step c t (c.halted t cause)
  | receive {env : Env} {h : Handle} (receiving : c.stage t = .receiving env h) :
    Step c t ((c.receive t env h).put t .unlocking)
  | unlock (unlocking : c.stage t = .unlocking) : Step c t ({ c with lock := none }.put t .idle)

/-- What steps lead to in which every thread keeps a rule. -/
inductive Ran (rule : Crew A → Thread → Prop) (start : Crew A) : Crew A → Prop
  | start : Ran rule start start
  | step {c c' : Crew A} {t : Thread} (ran : Ran rule start c) (kept : rule c t)
      (step : c.Step t c') : Ran rule start c'

def anything : Crew A → Thread → Prop := fun _ _ => True

instance (c : Crew A) (t : Thread) : Decidable (c.anything t) := isTrue trivial

/-! ### A crew at the gate -/

/-- The crew as the gate sees it. -/
def gatehouse (c : Crew A) : Gatehouse := ⟨c.gate, fun t => (c.stage t).wait, c.asleep⟩

variable {c c' : Crew A} {t u : Thread}

theorem gatehouse_put {stage : Stage (Staged.ControlPoint A)} :
    (c.put t stage).gatehouse = c.gatehouse.turn t stage.wait := by
  have hwait : (fun u => (Function.update c.stage t stage u).wait) =
      Function.update (fun u => (c.stage u).wait) t stage.wait :=
    Function.comp_update Stage.wait c.stage t stage
  simp only [gatehouse, put, Gatehouse.turn, gate, machine, hwait]

@[simp] theorem gatehouse_fallAsleep : (c.fallAsleep t).gatehouse = c.gatehouse.fallAsleep t := rfl

@[simp] theorem gatehouse_notifyAll {reason : Bool} :
    (c.notifyAll reason).gatehouse = c.gatehouse.notifyAll reason := rfl

/-- A thread that goes on without having to do with the gate makes no difference there. -/
theorem gatehouse_put_of_gate {c₁ : Crew A} {old stage : Stage (Staged.ControlPoint A)}
    (hold : c.stage t = old) (hwait : stage.wait = old.wait) (hgate : c₁.gate = c.gate)
    (hstage : c₁.stage = c.stage) (hasleep : c₁.asleep = c.asleep) :
    (c₁.put t stage).gatehouse = c.gatehouse := by
  have hsame : c₁.gatehouse = c.gatehouse := by
    rw [Crew.gatehouse, Crew.gatehouse, hgate, hstage, hasleep]
  rw [gatehouse_put, hwait, hsame, Gatehouse.turn_eq (congrArg Stage.wait hold)]

theorem gatehouse_halted {cause : StopCause (Staged.ControlPoint A)} :
    (c.halted t cause).gatehouse = c.gatehouse.turn t .nothing := by
  cases cause <;> exact gatehouse_put

/-- A thread that holds a stop sees the roots. -/
theorem roots_eq (hheld : c.gate.holder = some t) : c.machine.roots t = .ok c.calls.roots :=
  if_pos (Gate.heldBy_iff.2 hheld)

/-- What an action does inside a scope leaves the gate as it was. -/
theorem gate_perform {action : Action} (hfits : action.operates = true) :
    (c.perform t action).gate = c.gate := by
  cases action with
  | getReference env object slot => exact Machine.SameArena.getReference.gate
  | getData env object slot => exact Machine.SameArena.getData.gate
  | setReference env object slot target =>
    show (c.machine.setReference t env object slot target).2.gate = c.machine.gate
    rw [Machine.setReference_eq]
    exact Machine.decided_keeps (P := fun m => m.gate = c.machine.gate) rfl fun _ _ => rfl
  | setData env object slot word =>
    show (c.machine.setData t env object slot word).2.gate = c.machine.gate
    rw [Machine.setData_eq]
    exact Machine.decided_keeps (P := fun m => m.gate = c.machine.gate) rfl fun _ _ => rfl
  | release env object => exact Machine.SameArena.release.gate
  | beginCall caller name args => exact Machine.SameArena.beginCall.gate
  | endCall caller callee outcome => exact Machine.SameArena.endCall.gate
  | _ => cases hfits

/-- Of the actions that are done at once only a resume has to do with the gate. -/
theorem gate_perform_atOnce {action : Action} (hsimple : action.atOnce = true)
    (hresume : action ≠ .resume) : (c.perform t action).gate = c.gate := by
  cases action with
  | resume => exact absurd rfl hresume
  | beginRun name args =>
    obtain ⟨h, hargs⟩ := Option.isSome_iff_exists.1 hsimple
    show (c.machine.beginRun t name args).2.gate = c.machine.gate
    rw [Machine.beginRun_refused hargs]
  | cell h command =>
    cases hperform : c.world.machine.heap.perform h command with
    | error fault => simp only [gate, machine, perform, answer, World.perform, World.onMachine,
        hperform]
    | ok answered => simp only [gate, machine, perform, answer, World.perform, World.onMachine,
        hperform]
  | _ => first | rfl | cases hsimple

/-- A resume as the gate sees it. -/
theorem resume_gatehouse {m : Machine A} (hm : m = c.machine.resume t) :
    ((c.withMachine m).notifyAll (c.gate.isClosed && !m.gate.isClosed)).gatehouse =
      c.gatehouse.resume t := by
  have hgate : m.gate = c.gate.resume t := hm ▸ Machine.gate_resume
  have hgatehouse : (c.withMachine m).gatehouse = { c.gatehouse with gate := m.gate } := rfl
  rw [gatehouse_notifyAll, hgatehouse, hgate]
  by_cases hheld : c.gate.heldBy t = true
  · have hclosed : c.gate.isClosed = true := Gate.isClosed_iff.2 ⟨t, Gate.heldBy_iff.1 hheld⟩
    have hreopen : c.gate.resume t = c.gate.reopen := by simp [Gate.resume, Gate.resume?, hheld]
    rw [Gatehouse.resume_of_held hheld, hreopen, hclosed, Bool.true_and]
    rfl
  · have hsame : c.gate.resume t = c.gate := by simp [Gate.resume, Gate.resume?, hheld]
    rw [Gatehouse.resume_of_unheld (Bool.eq_false_iff.2 hheld), hsame, Bool.and_not_self]
    rfl

/-- Where an action begins, its thread has not come past the gate. -/
theorem first_cases {S : Type} {action : Action} {stage : Stage S}
    (hfirst : action.first = some stage) :
    (stage.wait = .scope ∨ stage.wait = .stop ∨ stage.wait = .nothing) ∧
      stage.hasScope = false ∧ stage.hasLock = false := by
  unfold Action.first at hfirst
  split at hfirst
  · obtain rfl := Option.some.inj hfirst
    exact ⟨.inl rfl, rfl, rfl⟩
  · obtain rfl := Option.some.inj hfirst
    exact ⟨.inl rfl, rfl, rfl⟩
  · obtain rfl := Option.some.inj hfirst
    exact ⟨.inr (.inr rfl), rfl, rfl⟩
  · obtain rfl := Option.some.inj hfirst
    exact ⟨.inr (.inl rfl), rfl, rfl⟩
  · split at hfirst
    · obtain rfl := Option.some.inj hfirst
      exact ⟨.inl rfl, rfl, rfl⟩
    · cases hfirst

section Receive

variable {env : Env} {h : Handle}

theorem gate_receive : (c.receive t env h).gate = c.gate := by
  unfold receive
  split
  · rfl
  · exact Machine.gate_traced

@[simp] theorem stage_receive : (c.receive t env h).stage = c.stage := by
  unfold receive
  split <;> rfl

@[simp] theorem lock_receive : (c.receive t env h).lock = c.lock := by
  unfold receive
  split <;> rfl

@[simp] theorem asleep_receive : (c.receive t env h).asleep = c.asleep := by
  unfold receive
  split <;> rfl

@[simp] theorem ledger_receive : (c.receive t env h).ledger = c.ledger := by
  unfold receive
  split <;> rfl

@[simp] theorem owner_receive : (c.receive t env h).owner = c.owner := by
  unfold receive
  split <;> rfl

theorem calls_receive : (c.receive t env h).calls = c.calls ∨
    (c.receive t env h).calls = c.calls.change env.frame (·.insert h) := by
  unfold receive
  split
  · exact .inl rfl
  · exact .inr Machine.calls_traced

end Receive

/-- A step of a crew is a step at the gate or none. -/
theorem Step.gatehouse (hstep : c.Step t c') :
    c'.gatehouse = c.gatehouse ∨ ∃ events, c.gatehouse.Step events c'.gatehouse := by
  have hwait : c.gatehouse.wait t = (c.stage t).wait := rfl
  cases hstep with
  | @begin action rest stage idle next first =>
    rw [idle] at hwait
    rcases (first_cases first).1 with hscope | hstop | hnothing
    · right
      rw [gatehouse_put, hscope]
      exact ⟨_, .call hwait (.inl rfl)⟩
    · right
      rw [gatehouse_put, hstop]
      exact ⟨_, .call hwait (.inr rfl)⟩
    · left
      exact gatehouse_put_of_gate idle hnothing rfl rfl rfl
  | register idle next plain =>
    rw [idle] at hwait
    right
    rw [gatehouse_put]
    exact ⟨_, .call hwait (.inl rfl)⟩
  | @atOnce action rest idle next simple free =>
    rw [idle] at hwait
    by_cases hresume : action = .resume
    · subst hresume
      right
      refine ⟨[.resumed t], ?_⟩
      have hgatehouse : (((c.takeUp t rest).perform t .resume).notifyAll
          (c.gate.isClosed && !(c.perform t .resume).gate.isClosed)).gatehouse =
        c.gatehouse.resume t :=
        resume_gatehouse rfl
      rw [hgatehouse]
      exact .resume hwait
    · left
      have hgate : ((c.takeUp t rest).perform t action).gate = c.gate :=
        gate_perform_atOnce (c := c) simple hresume
      rw [gatehouse_notifyAll, gate_perform_atOnce simple hresume, Bool.and_not_self,
        Crew.gatehouse, hgate]
      rfl
  | sleep awake barred => exact .inr ⟨_, .sleep awake barred⟩
  | enter entering awake admitted =>
    rw [entering] at hwait
    right
    rw [gatehouse_put]
    exact ⟨_, .enter hwait awake admitted⟩
  | @operate action fits inside =>
    exact .inl (gatehouse_put_of_gate inside rfl (gate_perform fits) rfl rfl)
  | @check env inside =>
    left
    unfold Crew.check
    split
    · exact gatehouse_put_of_gate inside rfl rfl rfl rfl
    · exact gatehouse_put_of_gate inside rfl rfl rfl rfl
  | enterRun inside => exact .inl (gatehouse_put_of_gate inside rfl rfl rfl rfl)
  | leaveRun inside => exact .inl (gatehouse_put_of_gate inside rfl rfl rfl rfl)
  | leave leaving =>
    right
    rw [gatehouse_put, Stage.wait_afterScope, Gatehouse.turn_eq (congrArg Stage.wait leaving)]
    exact ⟨_, .leave t⟩
  | unregister unregistering => exact .inl (gatehouse_put_of_gate unregistering rfl rfl rfl rfl)
  | lock locking free => exact .inl (gatehouse_put_of_gate locking rfl rfl rfl rfl)
  | work working nextStep => exact .inl (gatehouse_put_of_gate working rfl rfl rfl rfl)
  | callStop working nextStep =>
    rw [working] at hwait
    right
    rw [gatehouse_put]
    exact ⟨_, .call hwait (.inr rfl)⟩
  | scan working nextStep => exact .inl (gatehouse_put_of_gate working rfl rfl rfl rfl)
  | @resume task point next working nextStep =>
    right
    have hfree : c.gatehouse.wait t = .nothing := congrArg Stage.wait working
    have hkept : (c.gatehouse.resume t).wait t = (Stage.working task next).wait := by
      rwa [Gatehouse.wait_resume]
    rw [gatehouse_put, resume_gatehouse rfl, Gatehouse.turn_eq hkept]
    exact ⟨_, .resume hfree⟩
  | deliver working nextStep => exact .inl (gatehouse_put_of_gate working rfl rfl rfl rfl)
  | deny working nextStep => exact .inl (gatehouse_put_of_gate working rfl rfl rfl rfl)
  | finish working nextStep => exact .inl (gatehouse_put_of_gate working rfl rfl rfl rfl)
  | @close cause stopping awake admitted still =>
    rw [stopping] at hwait
    right
    refine ⟨[.returned t, .stopped t], ?_⟩
    rw [gatehouse_halted]
    exact .close hwait awake admitted still
  | claim stopping awake unheld loud =>
    rw [stopping] at hwait
    right
    rw [gatehouse_fallAsleep, gatehouse_put]
    exact ⟨_, .claim hwait awake unheld loud⟩
  | drained draining awake still =>
    rw [draining] at hwait
    right
    rw [gatehouse_halted]
    exact ⟨_, .drained hwait awake still⟩
  | receive receiving =>
    exact .inl (gatehouse_put_of_gate receiving rfl gate_receive stage_receive asleep_receive)
  | unlock unlocking => exact .inl (gatehouse_put_of_gate unlocking rfl rfl rfl rfl)

/-- A step of one thread leaves the others at their stages, with the actions that they have still to
begin. -/
theorem Step.others (hstep : c.Step t c') (hu : u ≠ t) :
    c'.stage u = c.stage u ∧ c'.todo u = c.todo u := by
  have hput : ∀ stage, Function.update c.stage t stage u = c.stage u := fun _ =>
    Function.update_of_ne hu _ _
  have htake : ∀ rest, Function.update c.todo t rest u = c.todo u := fun _ =>
    Function.update_of_ne hu _ _
  cases hstep with
  | begin idle next first => exact ⟨hput _, htake _⟩
  | register idle next plain => exact ⟨hput _, htake _⟩
  | atOnce idle next simple free => exact ⟨rfl, htake _⟩
  | sleep awake barred => exact ⟨rfl, rfl⟩
  | check inside =>
    unfold Crew.check
    split
    · exact ⟨hput _, rfl⟩
    · exact ⟨hput _, rfl⟩
  | @close cause stopping awake admitted still => cases cause <;> exact ⟨hput _, rfl⟩
  | @drained cause draining awake still => cases cause <;> exact ⟨hput _, rfl⟩
  | receive receiving =>
    unfold Crew.receive
    split
    · exact ⟨hput _, rfl⟩
    · exact ⟨hput _, rfl⟩
  | _ => exact ⟨hput _, rfl⟩

/-- A stop of one thread is none of the others' to end. -/
theorem Step.holder (hheld : c.gate.holder = some t) (hu : u ≠ t) (hstep : c.Step u c') :
    c'.gate.holder = some t := by
  have hopen : c.gate.lets u ≠ true := fun hlets => hu (Gate.lets_iff.1 hlets t hheld).symm
  have hresume : (c.machine.resume u).gate.holder = some t := by
    have hunheld : c.gate.heldBy u = false := by simp [Gate.heldBy, hheld, hu.symm]
    have hsame : c.gate.resume u = c.gate := by simp [Gate.resume, Gate.resume?, hunheld]
    exact (congrArg Gate.holder (Machine.gate_resume.trans hsame)).trans hheld
  cases hstep with
  | @atOnce action rest idle next simple free =>
    by_cases hres : action = .resume
    · subst hres
      exact hresume
    · exact (congrArg Gate.holder (gate_perform_atOnce (c := c) simple hres)).trans hheld
  | @operate action fits inside => exact (congrArg Gate.holder (gate_perform fits)).trans hheld
  | check inside =>
    unfold Crew.check
    split <;> exact hheld
  | resume working nextStep => exact hresume
  | close stopping awake admitted still => exact absurd admitted hopen
  | claim stopping awake unheld loud =>
    rw [hheld] at unheld
    cases unheld
  | @drained cause draining awake still => cases cause <;> exact hheld
  | receive receiving => exact (congrArg Gate.holder gate_receive).trans hheld
  | _ => exact hheld

/-! ### Who has the allocator, and who a scope -/

/-- The gate is in order, the allocator is had by the thread that works with it, and a thread has a
scope open exactly while it does something inside. -/
structure LockOwnership (c : Crew A) : Prop where
  inv : c.gatehouse.Inv
  lock_iff : ∀ t, c.lock = some t ↔ (c.stage t).hasLock = true
  count_eq : ∀ t, c.gate.scopes.count t = if (c.stage t).hasScope then 1 else 0

namespace LockOwnership

variable {stage old : Stage (Staged.ControlPoint A)}

/-- The books of one thread are kept if those of the others stay as they are. -/
theorem update (h : c.LockOwnership) (hinv : c'.gatehouse.Inv)
    (hstage : c'.stage = Function.update c.stage t stage)
    (hlock : c'.lock = some t ↔ stage.hasLock = true)
    (hlocks : ∀ u ≠ t, (c'.lock = some u ↔ c.lock = some u))
    (hcount : c'.gate.scopes.count t = if stage.hasScope then 1 else 0)
    (hcounts : ∀ u ≠ t, c'.gate.scopes.count u = c.gate.scopes.count u) : c'.LockOwnership where
  inv := hinv
  lock_iff u := by
    by_cases hu : u = t
    · subst hu
      rw [hstage, Function.update_self, hlock]
    · rw [hstage, Function.update_of_ne hu, hlocks u hu, h.lock_iff]
  count_eq u := by
    by_cases hu : u = t
    · subst hu
      rw [hstage, Function.update_self, hcount]
    · rw [hstage, Function.update_of_ne hu, hcounts u hu, h.count_eq]

/-- A thread that takes and drops neither the allocator nor a scope. -/
theorem put (h : c.LockOwnership) (hinv : c'.gatehouse.Inv) (hold : c.stage t = old)
    (hstage : c'.stage = Function.update c.stage t stage) (hscope : stage.hasScope = old.hasScope)
    (hlock : stage.hasLock = old.hasLock) (hlock' : c'.lock = c.lock)
    (hscopes' : c'.gate.scopes = c.gate.scopes) : c'.LockOwnership :=
  h.update hinv hstage (by rw [hlock', h.lock_iff, hold, hlock]) (fun u _ => by rw [hlock'])
    (by rw [hscopes', h.count_eq, hold, hscope]) (fun u _ => by rw [hscopes'])

/-- The gate's book names the threads that have a scope open. -/
theorem mem_scopes_iff (h : c.LockOwnership) : t ∈ c.gate.scopes ↔ (c.stage t).hasScope = true := by
  rw [← List.count_pos_iff, h.count_eq]
  cases (c.stage t).hasScope <;> simp

/-- Each step of a crew keeps the books on who has what. -/
theorem step (h : c.LockOwnership) (hstep : c.Step t c') : c'.LockOwnership := by
  have hinv : c'.gatehouse.Inv := by
    rcases hstep.gatehouse with hsame | ⟨events, hmoved⟩
    · exact hsame ▸ h.inv
    · exact h.inv.step hmoved
  have hresume : (c.machine.resume t).gate.scopes = c.gate.scopes :=
    (congrArg Gate.scopes Machine.gate_resume).trans Gate.scopes_resume
  cases hstep with
  | begin idle next first =>
    obtain ⟨-, hscope, hlock⟩ := first_cases first
    exact h.put hinv idle rfl hscope hlock rfl rfl
  | register idle next plain => exact h.put hinv idle rfl rfl rfl rfl rfl
  | @atOnce action rest idle next simple free =>
    have hscopes : (c.perform t action).gate.scopes = c.gate.scopes := by
      by_cases hres : action = .resume
      · subst hres
        exact hresume
      · rw [gate_perform_atOnce simple hres]
    exact ⟨hinv, h.lock_iff, fun u => (congrArg (List.count u) hscopes).trans (h.count_eq u)⟩
  | sleep awake barred => exact ⟨hinv, h.lock_iff, h.count_eq⟩
  | enter entering awake admitted =>
    have hlock : c.lock ≠ some t := by simp [h.lock_iff, entering, Stage.hasLock]
    have hcount : c.gate.scopes.count t = 0 := by simp [h.count_eq, entering, Stage.hasScope]
    refine h.update hinv rfl (iff_of_false hlock (by simp [Stage.hasLock])) (fun _ _ => Iff.rfl) ?_
      fun u hu => List.count_cons_of_ne hu.symm
    exact List.count_cons_self.trans (by simp [hcount, Stage.hasScope])
  | @operate action fits inside =>
    exact h.put hinv inside rfl rfl rfl rfl (congrArg Gate.scopes (gate_perform fits))
  | @check env inside =>
    unfold Crew.check at hinv ⊢
    split at hinv
    · exact h.put hinv inside rfl rfl rfl rfl rfl
    · exact h.put hinv inside rfl rfl rfl rfl rfl
  | enterRun inside => exact h.put hinv inside rfl rfl rfl rfl rfl
  | leaveRun inside => exact h.put hinv inside rfl rfl rfl rfl rfl
  | leave leaving =>
    have hlock : c.lock ≠ some t := by simp [h.lock_iff, leaving, Stage.hasLock]
    have hcount : c.gate.scopes.count t = 1 := by simp [h.count_eq, leaving, Stage.hasScope]
    refine h.update hinv rfl (iff_of_false hlock (by simp)) (fun _ _ => Iff.rfl) ?_
      fun u hu => List.count_erase_of_ne hu
    exact List.count_erase_self.trans (by simp [hcount])
  | unregister unregistering => exact h.put hinv unregistering rfl rfl rfl rfl rfl
  | lock locking free =>
    have hcount : c.gate.scopes.count t = 0 := by simp [h.count_eq, locking, Stage.hasScope]
    exact h.update hinv rfl (by simp [Crew.put, Stage.hasLock])
      (fun u hu => by simp [Crew.put, free, hu.symm]) hcount fun _ _ => rfl
  | work working nextStep => exact h.put hinv working rfl rfl rfl rfl rfl
  | callStop working nextStep => exact h.put hinv working rfl rfl rfl rfl rfl
  | scan working nextStep => exact h.put hinv working rfl rfl rfl rfl rfl
  | resume working nextStep => exact h.put hinv working rfl rfl rfl rfl hresume
  | deliver working nextStep => exact h.put hinv working rfl rfl rfl rfl rfl
  | deny working nextStep => exact h.put hinv working rfl rfl rfl rfl rfl
  | finish working nextStep => exact h.put hinv working rfl rfl rfl rfl rfl
  | @close cause stopping awake admitted still =>
    cases cause <;> exact h.put hinv stopping rfl rfl rfl rfl Gate.scopes_close
  | claim stopping awake unheld loud =>
    exact h.put hinv stopping rfl rfl rfl rfl Gate.scopes_close
  | @drained cause draining awake still =>
    cases cause <;> exact h.put hinv draining rfl rfl rfl rfl rfl
  | @receive env o receiving =>
    exact h.put hinv receiving (congrArg (Function.update · t _) stage_receive) rfl rfl
      lock_receive (congrArg Gate.scopes gate_receive)
  | unlock unlocking =>
    have hlock : c.lock = some t := by simp [h.lock_iff, unlocking, Stage.hasLock]
    have hcount : c.gate.scopes.count t = 0 := by simp [h.count_eq, unlocking, Stage.hasScope]
    exact h.update hinv rfl (by simp [Crew.put, Stage.hasLock])
      (fun u hu => by simp [Crew.put, hlock, hu.symm]) hcount fun _ _ => rfl

end LockOwnership

/-- On a machine whose gate nobody has passed, every crew keeps its books. -/
theorem Ran.lockOwnership {rule : Crew A → Thread → Prop} {start : Machine A}
    {todo : Thread → List Action} (hgate : start.gate = .fresh)
    (hran : Ran rule (.opening start todo) c) : c.LockOwnership := by
  induction hran with
  | start =>
    have hfresh : (opening start todo).gate = .fresh := hgate
    refine ⟨?_, ?_, ?_⟩
    · have hgatehouse : (opening start todo).gatehouse = .fresh := by rw [gatehouse, hfresh]; rfl
      exact hgatehouse ▸ .of_fresh
    · simp [opening, Stage.hasLock]
    · rw [hfresh]
      simp [opening, Stage.hasScope, Gate.fresh]
  | step _ _ hstep ih => exact ih.step hstep

end Crew

end RootedHeap
