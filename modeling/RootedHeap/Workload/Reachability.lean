import RootedHeap.Allocator.Choice
import RootedHeap.Program.Threads
import RootedHeap.Workload.Slots

/-!
The reachability scenario. An object `b` is linked from an object `a`, released, and then a
collection is forced. Cells are cleared only when they are handed out again, so reading `b` right
after the collection proves nothing: the heap is filled until allocation fails, and `b` survived
only if it was not among the cells handed out and still carries its tag.
-/

namespace RootedHeap.Workload

open Code

structure Scenario where
  released : Handle
  reclaimed : Nat
  refilled : List Handle
  survived : Bool
  deriving DecidableEq

/-- Allocates once for each of the given handles, until memory is out, and tags what it gets. -/
def refill (env : Env) : List Handle → Code (List Handle)
  | [] => return []
  | _ :: rest => do
    match ← ask (.newObject env) with
    | .ok cell =>
      setData env cell tagSlot (-3)
      return cell :: (← refill env rest)
    | .error .outOfMemory => return []
    | .error fault => throw (.fault fault)

/-- Whether the link of `a` leads to `b`, which was not handed out again and has its tag. -/
def keeps (env : Env) (a b : Handle) (refilled : List Handle) : Code Bool := do
  let linked ← getReference env a linkSlot
  if linked = b ∧ b ∉ refilled then
    return (← ask (.getData env b tagSlot)).toOption == some (-2)
  else return false

/-- The scenario in one frame. -/
def reachability (env : Env) : Code Scenario := do
  let a ← newObject env
  setData env a tagSlot (-1)
  let b ← newObject env
  setReference env a linkSlot b
  setData env b tagSlot (-2)
  let _ ← getReference env a linkSlot
  release env b
  let reclaimed ← orStop (← ask .collect)
  let refilled ← refill env (← ask .handles)
  ask (.note .debug ("scenario refilled cells " ++ Text.list (refilled.map toString)))
  return ⟨b, reclaimed, refilled, ← keeps env a b refilled⟩

def reachabilityRun : Code Scenario := do
  let (_, scenario) ← inRun Method.anonymous [] fun entry => do return (0, ← reachability entry)
  return scenario

variable {A : Type} [Allocator A]

def runReachability (w : World A) : Answer Scenario × World A :=
  let (ended, w) := (ended reachabilityRun).run Thread.first w
  match ended with
  | .ok scenario => (.ok scenario, w)
  | .error (.fault fault) => (.error fault, w)
  | .error .panic => (.error (.runtimeError .threadPanicked), w)

/-- The world of the scenario: five handles of two slots each, under a strategy. -/
def smallWorld (strategy : Strategy) : Answer (World Choice) := do
  let config := { CollectorConfig.standard with heapSize := 5, cellSize := 2, strategy }
  let machine ← Machine.build Thread.first config.heap (Choice.ofConfig config) .standard
  return .around machine

end RootedHeap.Workload
