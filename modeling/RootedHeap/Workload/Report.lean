import RootedHeap.Program.Threads
import RootedHeap.Workload.Lists
import RootedHeap.Workload.RandomGraph
import RootedHeap.Workload.Size

/-!
Workloads on several threads, and the report of what came of each thread and of the allocator's
work.
-/

namespace RootedHeap.Workload

namespace Size

def listChurns (size : Size) : List Method :=
  List.replicate size.threads (listChurn size.iterations size.listLength)

/-- One random graph for each thread, each from a seed of its own. -/
def randomGraphs (size : Size) : List Method :=
  (List.range size.threads).map fun i =>
    randomGraph size.iterations (max size.listLength 1)
      (ChaCha.ofSeed (UInt64.ofNat (size.seed + i)))

end Size

structure Report where
  strategy : String
  outcomes : List (Answer Word)
  stats : Stats
  elapsed : Duration

namespace Report

def succeeded (r : Report) : Bool := r.outcomes.all fun outcome => outcome.toOption.isSome

def fault? : Answer Word → Option Fault
  | .ok _ => none
  | .error fault => some fault

def firstFault? (r : Report) : Option Fault := r.outcomes.findSome? fault?

def outcomeLine (i : Nat) : Answer Word → String
  | .ok word => s!"thread {i}:    ok (" ++ Word.text word ++ ")"
  | .error fault => s!"thread {i}:    error: " ++ fault.message

def lines (r : Report) : List String :=
  ["strategy:    " ++ r.strategy]
    ++ r.outcomes.mapIdx outcomeLine
    ++ [s!"allocations: {r.stats.allocations}", s!"collections: {r.stats.collections}",
      s!"reclaimed:   {r.stats.reclaimed}", "total pause: " ++ r.stats.totalPause.text,
      "elapsed:     " ++ r.elapsed.text]

def text (r : Report) : String := "\n".intercalate r.lines

end Report

variable {A : Type} [Allocator A]

/-- The report of what the threads of a workload came to, and the world with a summary in its log.
How long they took is for the caller to say. -/
def conclude (outcomes : List (Answer Word)) (w : World A) (elapsed : Duration) :
    Report × World A :=
  let allocator := w.machine.allocator
  let report := ⟨Allocator.name allocator, outcomes, Allocator.stats allocator, elapsed⟩
  let summary := s!"{outcomes.length} threads done in " ++ elapsed.text
    ++ s!", {report.stats.collections} collections"
  (report, { w with machine := w.machine.note Thread.first .info summary })

def runListChurns (w : World A) (size : Size) : List (Answer Word) × World A :=
  w.concurrently size.listChurns

def runRandomGraphs (w : World A) (size : Size) : List (Answer Word) × World A :=
  w.concurrently size.randomGraphs

end RootedHeap.Workload
