import RootedHeap.Program.Action

/-!
Programs as trees of actions: a finished one has a result, any other asks for one action and goes on
with its answer. A program is data, so it can be run to its end by one thread, or step by step among
others.

A `Program.Segment` is a piece of a program that still waits for what follows it. Segments are what
programs are put together from: a tree that is extended at its leaves is walked through once for
each extension, a segment gets what follows it at once, however deep it is nested. `followedBy_eq`
says that both come to the same.

A `Code` is a segment that may stop early, by a fault or by a panic. `Code.call` and
`Code.runMethod` put the beginning and the end of a call or run around the code of a method, on
every way out.
-/

namespace RootedHeap

/-- A program with results of type `α`. -/
inductive Program (α : Type) where
  | done (result : α)
  | act (action : Action) (next : action.Reply → Program α)

namespace Program

variable {α β : Type}

/-- A program, and after it one that depends on its result. -/
def andThen : Program α → (α → Program β) → Program β
  | .done result, f => f result
  | .act action next, f => .act action fun reply => (next reply).andThen f

instance : Monad Program where
  pure := .done
  bind := andThen

variable {A : Type} [Allocator A]

/-- Runs a program to its end on thread `t`. -/
def run (t : Thread) : Program α → World A → α × World A
  | .done result, w => (result, w)
  | .act action next, w =>
    let (reply, w) := w.perform t action
    (next reply).run t w

/-- Runs a program on thread `t` up to and over its next turn, or to its end. -/
def runTurn (t : Thread) : Program α → World A → Program α × World A
  | .done result, w => (.done result, w)
  | .act .turn next, w => (next (), w)
  | .act action next, w =>
    let (reply, w) := w.perform t action
    (next reply).runTurn t w

/-- A piece of a program, which makes a program of whatever follows it. -/
structure Segment (α : Type) : Type 1 where
  followedBy : {β : Type} → (α → Program β) → Program β
  /-- A segment runs what follows it, and nothing of it before its own end. -/
  followedBy_andThen : ∀ {β γ : Type} (f : α → Program β) (g : β → Program γ),
    (followedBy f).andThen g = followedBy fun a => (f a).andThen g

namespace Segment

def ask (action : Action) : Segment action.Reply := ⟨fun f => .act action f, fun _ _ => rfl⟩

instance : Monad Segment where
  pure a := ⟨fun f => f a, fun _ _ => rfl⟩
  bind x y := ⟨fun f => x.followedBy fun a => (y a).followedBy f, fun f g => by
    simp only [followedBy_andThen]⟩

/-- A segment as a program, which nothing follows. -/
def program (x : Segment α) : Program α := x.followedBy .done

theorem followedBy_eq (x : Segment α) (f : α → Program β) :
    x.followedBy f = x.program.andThen f :=
  (x.followedBy_andThen .done f).symm

theorem program_bind (x : Segment α) (y : α → Segment β) :
    (x >>= y).program = x.program.andThen fun a => (y a).program :=
  followedBy_eq x fun a => (y a).program

end Segment

end Program

/-- Why code stops before its end. -/
inductive Interrupt where
  | fault (f : Fault)
  | panic

/-- A segment of a program that may stop early. -/
abbrev Code (α : Type) := ExceptT Interrupt Program.Segment α

/-- What a frame can be asked to run: a name and, for an environment and arguments, code. -/
structure Method where
  name : String
  body : Env → List Word → Code Word

namespace Method

def anonymous : String := "<anonymous>"

end Method

namespace Code

variable {α : Type}

def ask (action : Action) : Code action.Reply := ExceptT.lift (.ask action)

/-- Code that does not stop early but says how it would have. -/
def attempt (code : Code α) : Code (Except Interrupt α) := ExceptT.lift (ExceptT.run code)

/-- Stops at a fault. -/
def orStop : Answer α → Code α
  | .ok a => pure a
  | .error fault => throw (.fault fault)

def newObject (env : Env) : Code Handle := do orStop (← ask (.newObject env))

def getReference (env : Env) (object : Handle) (slot : Nat) : Code Handle := do
  orStop (← ask (.getReference env object slot))

def getData (env : Env) (object : Handle) (slot : Nat) : Code Word := do
  orStop (← ask (.getData env object slot))

def setReference (env : Env) (object : Handle) (slot : Nat) (target : Handle) : Code Unit := do
  orStop (← ask (.setReference env object slot target))

def setData (env : Env) (object : Handle) (slot : Nat) (word : Word) : Code Unit := do
  orStop (← ask (.setData env object slot word))

def release (env : Env) (object : Handle) : Code Unit := do
  orStop (← ask (.release env object))

def releaseAll (env : Env) : List Handle → Code Unit
  | [] => pure ()
  | object :: rest => do
    release env object
    releaseAll env rest

/-- The objects that a frame holds. -/
def activeHandles (env : Env) : Code (List Handle) := do return (← ask (.frame env)).handles

def call (caller : Env) (method : Method) (args : List Word) : Code Word := do
  let callee ← orStop (← ask (.beginCall caller method.name args))
  match ← attempt (method.body callee args) with
  | .ok word => orStop (← ask (.endCall caller callee (.ok word)))
  | .error (.fault fault) => orStop (← ask (.endCall caller callee (.error fault)))
  | .error .panic => do
    ask (.abandonCall callee)
    throw .panic

/-- Runs code on a stack of its own, under a name; what it returns beside its word is passed on. -/
def inRun {β : Type} (name : String) (args : List Word) (body : Env → Code (Word × β)) :
    Code (Word × β) := do
  let entry ← orStop (← ask (.beginRun name args))
  match ← attempt (body entry) with
  | .ok (word, extra) =>
    let result ← orStop (← ask (.endRun entry (.ok word)))
    return (result, extra)
  | .error (.fault fault) => do
    let _ ← orStop (← ask (.endRun entry (.error fault)))
    throw (.fault fault)
  | .error .panic => do
    ask (.abandonRun entry)
    throw .panic

/-- Runs a method on a stack of its own. -/
def runMethod (method : Method) (args : List Word) : Code Word := do
  let (word, _) ← inRun method.name args fun entry => do return (← method.body entry args, ())
  return word

/-- Code as a program whose result says how it ended. -/
def ended (code : Code α) : Program (Except Interrupt α) := (ExceptT.run code).program

/-- Code with a word as result, as a program whose result says how it ended. -/
def outcome (code : Code Word) : Program Outcome := do
  match ← ended code with
  | .ok word => return .finished (.ok word)
  | .error (.fault fault) => return .finished (.error fault)
  | .error .panic => return .panicked

end Code

namespace Outcome

/-- The result of a program on a thread of its own, where a panic is a fault. -/
def joined : Outcome → Answer Word
  | .finished result => result
  | .panicked => .error (.runtimeError .threadPanicked)

end Outcome

end RootedHeap
