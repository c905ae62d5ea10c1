import RootedHeap.Machine.Basic

/-!
What a frame can do with objects. A frame reads and writes only objects that it holds, stores only
references to objects that it holds, and comes to hold what it allocates and what it reads from a
reference slot. Each operation answers for a frame in any state; one that is not active is refused
before anything else is looked at, and a refused read, write or release changes nothing.
-/

namespace RootedHeap.Machine

variable {A : Type}

/-- Makes a new object, which the frame then holds. The allocator is asked outside of any scope,
since it may have to wait for all of them. -/
def newObject [Allocator A] (t : Thread) (env : Env) (m : Machine A) : Answer Handle × Machine A :=
  match m.inScope t fun inside => (inside.checkActive env, inside) with
  | (.error fault, m) => (.error fault, m)
  | (.ok _, m) =>
    match Allocator.allocate t m.calls m.toArena with
    | (.error fault, arena) => (.error fault, { m with toArena := arena })
    | (.ok h, arena) =>
      let m := { m with toArena := arena }
      if (m.frame env).holds h then (.error (.invalidState (.alreadyHeld h)), m)
      else (.ok h, (m.hold env h).traced t s!"frame {(m.frame env).depth}: new object {h}")

/-- Reads a reference slot; the frame then holds what it read, unless that is null. -/
def getReference (t : Thread) (env : Env) (object : Handle) (slot : Nat) (m : Machine A) :
    Answer Handle × Machine A :=
  m.act t env fun m => do
    m.checkHeld env object
    let word ← m.heap.read object slot
    match Word.target? word with
    | some target =>
      let _ ← m.heap.cell target
      return fun m => (target, m.hold env target)
    | none =>
      if word < 0 then .error (.illegalReference (.otherKind object slot word))
      else return fun m => (Handle.null, m)

def getData (t : Thread) (env : Env) (object : Handle) (slot : Nat) (m : Machine A) :
    Answer Word × Machine A :=
  m.act t env fun m => do
    m.checkHeld env object
    let word ← m.heap.read object slot
    if word < 0 then return fun m => (word, m)
    else .error (.illegalReference (.otherKind object slot word))

/-- Stores null or a reference to an object that the same frame holds. -/
def setReference (t : Thread) (env : Env) (object : Handle) (slot : Nat) (target : Handle)
    (m : Machine A) : Answer Unit × Machine A :=
  m.act t env fun m => do
    m.checkHeld env object
    if target = Handle.null then pure () else m.checkHeld env target
    let word ← m.heap.referenceWord object slot target
    return fun m => ((), m.putWord object slot word)

/-- Stores primitive data, which is negative. -/
def setData (t : Thread) (env : Env) (object : Handle) (slot : Nat) (word : Word)
    (m : Machine A) : Answer Unit × Machine A :=
  m.act t env fun m => do
    m.checkHeld env object
    if word < 0 then
      m.heap.checkSlot object slot
      return fun m => ((), m.putWord object slot word)
    else .error (.illegalReference (.notData word))

/-- Lets go of an object. It lives on while anything else reaches it. -/
def release (t : Thread) (env : Env) (object : Handle) (m : Machine A) : Answer Unit × Machine A :=
  m.act t env fun m => do
    m.checkHeld env object
    return fun m => ((), m.changeFrame env (·.remove object))

/-- Collects now, and says how many cells came free. -/
def collect [Allocator A] (t : Thread) (m : Machine A) : Answer Nat × Machine A :=
  let (answer, arena) := Allocator.collect t m.calls m.toArena
  (answer, { m with toArena := arena })

def stop (t : Thread) (m : Machine A) : Machine A := { m with toArena := m.toArena.stop t }

def resume (t : Thread) (m : Machine A) : Machine A := { m with toArena := m.toArena.resume t }

end RootedHeap.Machine
