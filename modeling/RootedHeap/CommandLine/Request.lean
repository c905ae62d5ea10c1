import RootedHeap.Allocator.Strategy
import RootedHeap.CommandLine.Options
import RootedHeap.Config.Basic

/-!
What a user can ask of the program, and how the arguments say it: one command, with options before
it that hold for every command and options after it that are its own.
-/

namespace RootedHeap.CommandLine

/-- The options of a run, which go before the configuration. -/
structure RunSettings where
  config : Option String
  strategy : Option Strategy
  heapSize : Option Nat
  cellSize : Option Nat
  threads : Option Nat
  iterations : Option Nat
  random : Bool

/-- What the program is asked to do. -/
inductive Request where
  | run (settings : RunSettings)
  | scenario (strategy : Strategy)
  | config (path : Option String)
  | version

/-- A request, and whether the log is to be detailed. -/
structure Invocation where
  verbose : Bool
  request : Request

namespace RunSettings

def none : RunSettings := ⟨.none, .none, .none, .none, .none, .none, false⟩

/-- A configuration with what the options say instead. -/
def appliedTo (s : RunSettings) (c : Config) : Config :=
  { c with
    collector := { c.collector with
      strategy := s.strategy.getD c.collector.strategy
      heapSize := s.heapSize.getD c.collector.heapSize
      cellSize := s.cellSize.getD c.collector.cellSize }
    workload := { c.workload with
      threads := s.threads.getD c.workload.threads
      iterations := s.iterations.getD c.workload.iterations } }

end RunSettings

/-! ### Values of options -/

/-- A number of at most 64 bits in decimal, with or without a plus sign. -/
def number? (text : String) : Option Nat :=
  let digits := match text.toList with
    | '+' :: digits => digits
    | digits => digits
  if digits.isEmpty || !digits.all Char.isDigit then none
  else
    let n := digits.foldl (fun n c => n * 10 + (c.toNat - '0'.toNat)) 0
    if n < 0x10000000000000000 then some n else none

/-- A path, which is not empty. -/
def path? (text : String) : Option String := if text.isEmpty then none else some text

def strategy? (text : String) : Option Strategy := (Strategy.parse text).toOption

/-- An option with a value. -/
def valued {σ α : Type} (long : String) (letter : Option Char) (read : String → Option α)
    (set : α → σ → σ) : Switch σ :=
  ⟨long, letter, .value fun text s => (read text).map fun a => set a s⟩

/-! ### Commands -/

/-- The settings of a command, and whether the log is to be detailed. -/
abbrev Detailed (σ : Type) := Bool × σ

/-- The options of every command: a detailed log, and help. -/
def everywhere {σ : Type} : List (Switch (Detailed σ)) :=
  [⟨"verbose", some 'v', .flag fun s => (true, s.2)⟩, ⟨"help", some 'h', .stop .help⟩]

/-- An option of one command. -/
def ofCommand {σ α : Type} (long : String) (letter : Option Char) (read : String → Option α)
    (set : α → σ → σ) : Switch (Detailed σ) :=
  valued long letter read fun a s => (s.1, set a s.2)

def runSwitches : List (Switch (Detailed RunSettings)) :=
  [ofCommand "config" (some 'c') path? fun a s => { s with config := some a },
    ofCommand "strategy" (some 's') strategy? fun a s => { s with strategy := some a },
    ofCommand "heap-size" none number? fun a s => { s with heapSize := some a },
    ofCommand "cell-size" none number? fun a s => { s with cellSize := some a },
    ofCommand "threads" (some 't') number? fun a s => { s with threads := some a },
    ofCommand "iterations" (some 'i') number? fun a s => { s with iterations := some a },
    ⟨"random", none, .flag fun s => (s.1, { s.2 with random := true })⟩] ++ everywhere

def scenarioSwitches : List (Switch (Detailed Strategy)) :=
  ofCommand "strategy" (some 's') strategy? (fun a _ => a) :: everywhere

def configSwitches : List (Switch (Detailed (Option String))) :=
  ofCommand "config" (some 'c') path? (fun a _ => some a) :: everywhere

def topSwitches : List (Switch (Detailed Unit)) :=
  ⟨"version", some 'V', .stop .version⟩ :: everywhere

/-- Reads a whole level, on which no words may stand. -/
def readAll {σ : Type} (switches : List (Switch σ)) (settings : σ) (args : List String) :
    Except Stop σ := do
  match ← readLevel switches .anything args ⟨settings, []⟩ with
  | (settings, none) => return settings
  | (_, some _) => throw .refused

/-- The commands, on each of which there is help. -/
def commandNames : List String := ["run", "scenario", "config", "version", "help"]

/-- Reads a command after its name. Help is on the program or on one of its commands. -/
def readCommand (name : String) (args : List String) : Except Stop (Detailed Request) :=
  match name with
  | "run" => do
    let (verbose, settings) ← readAll runSwitches (false, .none) args
    return (verbose, .run settings)
  | "scenario" => do
    let (verbose, strategy) ← readAll scenarioSwitches (false, .standard) args
    return (verbose, .scenario strategy)
  | "config" => do
    let (verbose, path) ← readAll configSwitches (false, none) args
    return (verbose, .config path)
  | "version" => do
    let (verbose, _) ← readAll everywhere (false, ()) args
    return (verbose, .version)
  | "help" =>
    match args with
    | [] => .error .help
    | [topic] => if topic ∈ commandNames then .error .help else .error .refused
    | _ => .error .refused
  | _ => .error .refused

/-- Reads the arguments of the program. -/
def read (args : List String) : Except Stop Invocation := do
  let ((verbose, _), command) ← readLevel topSwitches .anything args ⟨(false, ()), []⟩
  match command with
  | none => throw .refused
  | some (name, rest) =>
    let (detailed, request) ← readCommand name rest
    return ⟨verbose || detailed, request⟩

/-- The file that a request reads, if it reads one. -/
def Request.file? : Request → Option String
  | .run settings => settings.config
  | .config path => path
  | .scenario _ | .version => none

end RootedHeap.CommandLine
