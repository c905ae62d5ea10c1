import RootedHeap.Random.ChaCha
import RootedHeap.Workload.Slots

/-!
A workload of random choices: allocate, link, read a link, release. The frame allocates only while
it holds fewer than a given number of objects; when memory is out it lets go of everything and tries
once more. Each object gets a tag of its own, and at the end every object held must still carry the
tag it was given. The choices come from a generator that is a parameter of the program.
-/

namespace RootedHeap.Workload

open Code

abbrev Tags := Assignment Handle Word

/-- What the program remembers from one choice to the next. -/
structure Memory (G : Type) where
  draws : G
  tags : Tags
  nextTag : Word

/-- Makes an object; if memory is out, lets go of everything first and forgets all tags. -/
def allocateOrReset (env : Env) (tags : Tags) : Code (Handle × Tags) := do
  match ← ask (.newObject env) with
  | .ok object => return (object, tags)
  | .error .outOfMemory =>
    ask (.note .debug s!"random graph: out of memory with {tags.length} held")
    releaseAll env (← activeHandles env)
    return (← newObject env, [])
  | .error fault => throw (.fault fault)

variable {G : Type}

/-- Makes an object and gives it the next tag. -/
def allocateTagged (env : Env) (memory : Memory G) : Code (Memory G) := do
  let (object, tags) ← allocateOrReset env memory.tags
  setData env object tagSlot memory.nextTag
  let nextTag ← tagBelow memory.nextTag 1
  return { memory with tags := tags.set object memory.nextTag, nextTag }

variable [Draws G]

/-- A slot other than the tag's, drawn at random. -/
def drawSlot (draws : G) (width : Nat) : Nat × G :=
  let (i, draws) := Draws.below draws (width - linkSlot)
  (linkSlot + i, draws)

/-- One choice, by a frame of which `held` are the objects. -/
def choose (env : Env) (width maxLive : Nat) (held : List Handle) (memory : Memory G) :
    Code (Memory G) := do
  if held.isEmpty then allocateTagged env memory
  else
    let (i, draws) := Draws.below memory.draws held.length
    let picked := held.getD i Handle.null
    let (kind, draws) := Draws.below draws 4
    if kind = 0 ∧ held.length < maxLive then allocateTagged env { memory with draws }
    else if kind = 1 ∧ linkSlot < width then
      let (j, draws) := Draws.below draws held.length
      let (slot, draws) := drawSlot draws width
      setReference env picked slot (held.getD j Handle.null)
      return { memory with draws }
    else if kind = 2 ∧ linkSlot < width then
      let (slot, draws) := drawSlot draws width
      let _ ← getReference env picked slot
      return { memory with draws }
    else
      release env picked
      return { memory with draws }

def chooseRepeatedly (env : Env) (width maxLive : Nat) : (n : Nat) → Memory G → Code (Memory G)
  | 0, memory => return memory
  | n + 1, memory => do
    let held ← activeHandles env
    let memory ← choose env width maxLive held memory
    chooseRepeatedly env width maxLive n memory

/-- Checks that objects carry the tags they were given. -/
def checkTags (env : Env) (tags : Tags) : List Handle → Code Unit
  | [] => pure ()
  | object :: rest => do
    let tag ← getData env object tagSlot
    let given := tags.lookup object
    if given ≠ some tag then throw (.fault (.runtimeError (.objectTag object tag given)))
    checkTags env tags rest

/-- Makes random choices, then checks what is left; the result is minus the number of objects held
at the end. -/
def randomGraph (iterations maxLive : Nat) (draws : G) : Method where
  name := "random_graph"
  body env _ := do
    let width ← ask .width
    let memory ← chooseRepeatedly env width maxLive iterations ⟨draws, [], -1⟩
    let held ← activeHandles env
    checkTags env memory.tags held
    return -(Word.ofCount held.length)

end RootedHeap.Workload
