import RootedHeap.CommandLine.Request
import RootedHeap.Config.Printing
import RootedHeap.Config.Reading
import RootedHeap.Workload.Reachability
import RootedHeap.Workload.Report

/-!
What the program does with its arguments. A session is first carried out and then told: how long the
work took is only known in between, so `Work.told` takes it as an argument.

The heap and the threads of a workload are tables, and no table takes 2⁶³ bytes or more. A session
that asks for one breaks off there.
-/

namespace RootedHeap.CommandLine

/-- What the program leaves behind: its exit code, its lines, and its complaint, if any. -/
structure Output where
  code : Nat
  lines : List String
  complaint : Option String

/-- The work of a session, carried out. -/
inductive Work where
  | output (o : Output)
  | workload (level : Level) (outcomes : List (Answer Word)) (world : World Choice)

def programName : String := "gcharness"

def programVersion : String := "0.1.0"

def versionLine : String := programName ++ " " ++ programVersion

def usageLine : String := "Usage: " ++ programName ++ " [OPTIONS] <COMMAND>"

namespace Output

def success (lines : List String) : Output := ⟨0, lines, none⟩

/-- The lines of a session that failed in the end, and why. -/
def failure (lines : List String) (reason : String) : Output :=
  ⟨1, lines, some ("Error: " ++ reason)⟩

/-- The lines of a session that broke off, for a table that it asked for is too large. -/
def broken (lines : List String) : Output := ⟨101, lines, some "capacity overflow"⟩

/-- The output where reading the arguments ended early. -/
def ofStop : Stop → Output
  | .refused => ⟨2, [], some usageLine⟩
  | .help => success [usageLine]
  | .version => success [versionLine]

end Output

/-- The lines of a log that a reader of a level sees. -/
def logLines (level : Level) (w : World Choice) : List String :=
  (visible level w.machine.log).map Entry.line

/-- The configuration of a request, from the content of its file if it names one; a file that gives
none is a complaint. -/
def configOf (path : Option String) (content : Option ByteArray) : Except Output Config :=
  match path with
  | none => .ok .standard
  | some path =>
    match Config.ofFile content with
    | .ok c => .ok c
    | .error _ => .error (.failure [] ("Failed to load config: " ++ path))

/-- Whether a table of `n` entries of so many bytes each is not too large. -/
def fits (n bytes : Nat) : Bool := n * bytes ≤ 0x7FFFFFFFFFFFFFFF

/-- Whether a heap is not too large. A cell takes 32 bytes in the table of cells, and a slot 8 bytes
in the table of its cell. -/
def heapFits (c : CollectorConfig) : Bool :=
  fits (c.heapSize - 1) 32 && (c.heapSize ≤ 1 || fits c.cellSize 8)

/-- Whether so many threads are not too many: each takes 16 bytes in the table of threads. -/
def threadsFit (n : Nat) : Bool := fits n 16

def runWorkload (verbose : Bool) (settings : RunSettings) (c : Config) : Work :=
  let c := settings.appliedTo c
  let level := if verbose then .debug else c.level
  let collector := c.collectorConfig
  if !heapFits collector then .output (.broken [])
  else
    match Machine.build Thread.first collector.heap (Choice.ofConfig collector) c.machine with
    | .error _ => .output (.failure [] "Failed to create VM")
    | .ok machine =>
      let start := World.around machine
      if !threadsFit c.workload.threads then .output (.broken (logLines level start))
      else
        let (outcomes, w) :=
          if settings.random then Workload.runRandomGraphs start c.workload
          else Workload.runListChurns start c.workload
        .workload level outcomes w

def scenarioLines (strategy : Strategy) (s : Workload.Scenario) : List String :=
  ["strategy:  " ++ strategy.name, s!"released:  object {s.released}", s!"reclaimed: {s.reclaimed}",
    "refilled:  " ++ Text.list (s.refilled.map toString),
    s!"object {s.released} " ++ (if s.survived then "survived" else "was reclaimed")]

def runScenario (verbose : Bool) (strategy : Strategy) : Output :=
  let level := if verbose then .debug else .info
  match Workload.smallWorld strategy with
  | .error _ => .failure [] "Scenario failed"
  | .ok start =>
    match Workload.runReachability start with
    | (.error _, w) => .failure (logLines level w) "Scenario failed"
    | (.ok s, w) =>
      let lines := logLines level w ++ scenarioLines strategy s
      if s.survived then .success lines else .failure lines "reachable object was reclaimed"

/-- Carries out a request, given the content of the file that it reads. -/
def Invocation.work (i : Invocation) (content : Option ByteArray) : Work :=
  match i.request with
  | .version => .output (.success [versionLine])
  | .scenario strategy => .output (runScenario i.verbose strategy)
  | .config path =>
    match configOf path content with
    | .error output => .output output
    | .ok c =>
      if c.isWritable then .output (.success c.lines)
      else .output (.failure [] ConfigError.unwritable.heading)
  | .run settings =>
    match configOf settings.config content with
    | .error output => .output output
    | .ok c => runWorkload i.verbose settings c

/-- What a session leaves behind, if its work took that long. -/
def Work.told (elapsed : Duration) : Work → Output
  | .output o => o
  | .workload level outcomes w =>
    let (report, w) := Workload.conclude outcomes w elapsed
    let lines := logLines level w ++ report.lines
    match report.firstFault? with
    | none => .success lines
    | some fault => .failure lines ("workload failed: " ++ fault.message)

/-- A whole session, if reading a file and work take that long. -/
def session (contentOf : String → Option ByteArray) (elapsed : Duration) (args : List String) :
    Output :=
  match read args with
  | .error stop => .ofStop stop
  | .ok invocation => (invocation.work (invocation.request.file? >>= contentOf)).told elapsed

end RootedHeap.CommandLine
