import RootedHeap.Program.Threads
import RootedHeap.Workload.Lists
import RootedHeap.Workload.RandomGraph

/-!
A small language for mutator programs. A body is a list of statements that run on an environment,
with variables of their own; each operation is reported in the transcript with what it answered. A
body may call other bodies, the named methods of its library and the workloads. `Callee.method`
gives the meaning of a body as a method.

A named method may call itself. Its code is unfolded along the calls that happen, up to a nesting of
`Script.nesting`, beyond which it panics as a program does that has used up its native stack.
-/

namespace RootedHeap

/-- A value in a statement. -/
inductive Operand where
  | word (w : Word)
  | variable (name : String)
  | argument (i : Nat)
  /-- An object that the frame in use holds by place, counted around; 0 if it holds none. -/
  | held (i : Nat)

/-- What a statement asks of the environment in use or of the machine. -/
inductive Operation where
  | newObject
  | getReference (object : Operand) (slot : Nat)
  | getData (object : Operand) (slot : Nat)
  | setReference (object : Operand) (slot : Nat) (target : Operand)
  | setData (object : Operand) (slot : Nat) (value : Operand)
  | release (object : Operand)
  | collect
  | active
  | isActive (object : Operand)
  | depth
  | state
  | layout
  | stats
  | threads
  | pauses
  | evaluate (value : Operand)
  | keep (name : String)
  | stop
  | resume
  | roots
  | cell (h : Operand) (command : CellCommand)

namespace Operation

def name : Operation → String
  | .newObject => "new"
  | .getReference .. => "get_ref"
  | .getData .. => "get_data"
  | .setReference .. => "set_ref"
  | .setData .. => "set_data"
  | .release _ => "release"
  | .collect => "collect"
  | .active => "active"
  | .isActive _ => "is_active"
  | .depth => "depth"
  | .state => "state"
  | .layout => "debug"
  | .stats => "stats"
  | .threads => "threads"
  | .pauses => "pauses"
  | .evaluate _ => "let"
  | .keep _ => "stash"
  | .stop => "stop"
  | .resume => "resume"
  | .roots => "roots"
  | .cell .. => "raw"

end Operation

/-- How a statement uses its operation. -/
structure Usage where
  on : Option String
  into : Option String
  /-- Whether a fault ends the body. -/
  strict : Bool

mutual

/-- One statement of a body. -/
inductive Statement where
  | operate (usage : Usage) (operation : Operation)
  | call (usage : Usage) (callee : Callee) (args : List Operand) (catches : Bool)
  | invoke (usage : Usage) (callee : Callee) (args : List Operand)
  | fail (fault : Fault)
  | panic
  | give (on : Option String) (value : Operand)
  | rounds (times : Nat) (body : List Statement)
  | whenBelow (on : Option String) (depth : Nat) (body : List Statement)

/-- What a statement can call. A quiet callee reports nothing, nor does what it calls. -/
inductive Callee where
  | block (quiet : Bool) (body : List Statement)
  | named (quiet : Bool) (name : String)
  | buildList (length : Nat)
  | listChurn (iterations length : Nat)
  | randomGraph (iterations maxLive seed : Nat)

end

namespace Script

/-- The variables of a body that have been set. -/
abbrev Variables := Assignment String Word

/-- The value of a variable. -/
def Variables.get (vars : Variables) (name : String) : Word := (vars.lookup name).getD 0

/-- What stays the same while a body runs. -/
structure Frame where
  env : Env
  args : List Word
  quiet : Bool

/-- How a statement leaves a body. -/
inductive Flow where
  | next (vars : Variables)
  | give (word : Word)

open Code

/-- The word that an observation leaves in a variable. -/
def wordOf : Observation → Word
  | .number n => Int64.ofInt n
  | _ => 0

/-- Adds a line to the transcript, unless the body is quiet. -/
def report (frame : Frame) (event : Event) : Code Unit :=
  if frame.quiet then pure () else ask (.report event)

/-- The environment that a statement uses. -/
def envOf (frame : Frame) : Option String → Code Env
  | none => return frame.env
  | some name => return (← ask (.kept name)).getD frame.env

/-- The value of an operand. -/
def value (frame : Frame) (vars : Variables) (env : Env) : Operand → Code Word
  | .word w => return w
  | .variable name => return vars.get name
  | .argument i => return frame.args.getD i 0
  | .held i => do
    let held := (← ask (.frame env)).active
    return (held.getD (i % held.size) Handle.null).toWord

def values (frame : Frame) (vars : Variables) (env : Env) : List Operand → Code (List Word)
  | [] => return []
  | operand :: rest => do
    let word ← value frame vars env operand
    return word :: (← values frame vars env rest)

def count (n : Nat) : Observation := .number n

/-- What an operation answers. -/
def observe (frame : Frame) (vars : Variables) (env : Env) :
    Operation → Code (Answer Observation)
  | .newObject => do return (← ask (.newObject env)).map count
  | .getReference object slot => do
    let object ← value frame vars env object
    return (← ask (.getReference env (Word.toHandle object) slot)).map count
  | .getData object slot => do
    let object ← value frame vars env object
    return (← ask (.getData env (Word.toHandle object) slot)).map fun word => .number word.toInt
  | .setReference object slot target => do
    let object ← value frame vars env object
    let target ← value frame vars env target
    let answer ← ask (.setReference env (Word.toHandle object) slot (Word.toHandle target))
    return answer.map fun _ => .nothing
  | .setData object slot word => do
    let object ← value frame vars env object
    let word ← value frame vars env word
    return (← ask (.setData env (Word.toHandle object) slot word)).map fun _ => .nothing
  | .release object => do
    let object ← value frame vars env object
    return (← ask (.release env (Word.toHandle object))).map fun _ => .nothing
  | .collect => do return (← ask .collect).map count
  | .active => do return .ok (.handles (← activeHandles env))
  | .isActive object => do
    let object ← value frame vars env object
    return .ok (.flag ((← ask (.frame env)).holds (Word.toHandle object)))
  | .depth => do return .ok (count (← ask (.frame env)).depth)
  | .state => do return .ok (.text (← ask (.frame env)).state.name)
  | .layout => do return .ok (.text (← ask (.envLayout env)))
  | .stats => do return .ok (.stats (← ask .stats))
  | .threads => do return .ok (count (← ask .threadCount))
  | .pauses => do return .ok (count (← ask .pauses))
  | .evaluate word => do return .ok (.number (← value frame vars env word).toInt)
  | .keep name => do
    ask (.keep name env)
    return .ok .nothing
  | .stop => do
    ask .stop
    return .ok .nothing
  | .resume => do
    ask .resume
    return .ok .nothing
  | .roots => do
    return (← ask .roots).map fun roots => .handles (roots.mergeSort (· ≤ ·))
  | .cell h command => do
    let h ← value frame vars env h
    return .ok (.cell (← ask (.cell (Word.toHandle h) command)))

/-- Reports what a statement answered and goes on as its usage says. -/
def conclude (frame : Frame) (vars : Variables) (usage : Usage) (name : String)
    (answer : Answer Observation) : Code Flow := do
  report frame (.did name answer)
  match answer with
  | .ok observation =>
    match usage.into with
    | some into => return .next (vars.set into (wordOf observation))
    | none => return .next vars
  | .error fault => if usage.strict then throw (.fault fault) else return .next vars

/-- Runs code, and takes a fault for an answer; a panic goes on, unless it is to be caught. -/
def observeCode (catches : Bool) (code : Code Word) : Code (Answer Observation) := do
  match ← attempt code with
  | .ok word => return .ok (.number word.toInt)
  | .error (.fault fault) => return .error fault
  | .error .panic => if catches then return .ok (.text "panicked") else throw .panic

def repeated (round : Variables → Code Flow) : (n i : Nat) → Variables → Code Flow
  | 0, _, vars => return .next vars
  | n + 1, i, vars => do
    match ← round (vars.set "i" (Word.ofCount i)) with
    | .next vars => repeated round n (i + 1) vars
    | .give word => return .give word

/-- A body as the code of a method: it reports its start, and gives 0 if no statement gives one. -/
def enterBody (quiet : Bool) (code : Frame → Variables → Code Flow) (env : Env)
    (args : List Word) : Code Word := do
  let record ← ask (.frame env)
  let frame : Frame := ⟨env, args, quiet⟩
  report frame (.entered record.depth args record.handles)
  match ← code frame [] with
  | .next _ => return 0
  | .give word => return word

end Script

open Script Code

mutual

/-- The code of a statement. `methods` gives the named methods, loud and quiet ones. -/
def Statement.code (methods : Bool → String → Method) (frame : Script.Frame) :
    Statement → Variables → Code Flow
  | .operate usage operation, vars => do
    ask .turn
    let env ← envOf frame usage.on
    let answer ← observe frame vars env operation
    conclude frame vars usage operation.name answer
  | .call usage callee args catches, vars => do
    ask .turn
    let env ← envOf frame usage.on
    let args ← values frame vars env args
    let answer ← observeCode catches (Code.call env (callee.method methods frame.quiet) args)
    conclude frame vars usage "call" answer
  | .invoke usage callee args, vars => do
    ask .turn
    let env ← envOf frame usage.on
    let args ← values frame vars env args
    let answer ← observeCode false ((callee.method methods frame.quiet).body env args)
    conclude frame vars usage "invoke" answer
  | .fail fault, _ => do
    ask .turn
    throw (.fault fault)
  | .panic, _ => do
    ask .turn
    throw .panic
  | .give on word, vars => do
    ask .turn
    let env ← envOf frame on
    return .give (← value frame vars env word)
  | .rounds times body, vars => do
    ask .turn
    repeated (Statement.codeAll methods frame body) times 0 vars
  | .whenBelow on depth body, vars => do
    ask .turn
    let env ← envOf frame on
    if (← ask (.frame env)).depth < depth then Statement.codeAll methods frame body vars
    else return .next vars

/-- The code of several statements in order. -/
def Statement.codeAll (methods : Bool → String → Method) (frame : Script.Frame) :
    List Statement → Variables → Code Flow
  | [], vars => return .next vars
  | statement :: rest, vars => do
    match ← statement.code methods frame vars with
    | .next vars => Statement.codeAll methods frame rest vars
    | .give word => return .give word

/-- A callee as a method, quiet if its caller is. -/
def Callee.method (methods : Bool → String → Method) (quiet : Bool) : Callee → Method
  | .block quiet' body =>
    ⟨Method.anonymous, enterBody (quiet || quiet') fun frame =>
      Statement.codeAll methods frame body⟩
  | .named quiet' name => methods (quiet || quiet') name
  | .buildList length => Workload.buildList length
  | .listChurn iterations length => Workload.listChurn iterations length
  | .randomGraph iterations maxLive seed =>
    Workload.randomGraph iterations maxLive (ChaCha.ofSeed (UInt64.ofNat seed))

end

namespace Script

/-- Named bodies. -/
abbrev Library := List (String × List Statement)

/-- The named methods of a library, unfolded `n` calls deep. -/
def Library.methods (library : Library) : (n : Nat) → Bool → String → Method
  | 0, _, name => ⟨name, fun _ _ => throw .panic⟩
  | n + 1, quiet, name =>
    ⟨name, enterBody quiet fun frame =>
      Statement.codeAll (library.methods n) frame ((library.lookup name).getD [])⟩

/-- How deep named methods are unfolded. -/
def nesting : Nat := 1000000

/-- A callee as a method of a program. -/
def Library.program (library : Library) (callee : Callee) : Method :=
  callee.method (library.methods nesting) false

end Script

variable {A : Type} [Allocator A]

namespace World

/-- The world with nothing kept and nothing reported. -/
def forget (w : World A) : World A := { w with kept := [], transcript := #[] }

/-- Runs a program on the main thread. -/
def runProgram (w : World A) (method : Method) (args : List Word) : Outcome × World A :=
  (outcome (runMethod method args)).run Thread.first w

/-- A program for a strand, which reports how it ended. -/
def strandOf (method : Method) (args : List Word) : Program Unit := do
  let ended ← outcome (runMethod method args)
  (Program.Segment.ask (.report (.exited ended))).program

end World

end RootedHeap
