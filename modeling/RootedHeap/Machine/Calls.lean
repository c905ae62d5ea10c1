import RootedHeap.Machine.Basic

/-!
Calls and runs. A call opens a frame on top of the caller's stack and hands the objects among its
arguments over; its end checks the result, hands it to the caller and takes the frame off the stack.
A run is a call without a caller, on a stack of its own that is registered for as long as the run
lasts. Each beginning and each end is one step, so that steps of other threads may come between
them. A body that panics ends neither: its call is cut off by `abandonCall`, its run by
`abandonRun`.
-/

namespace RootedHeap.Machine

variable {A : Type}

/-- The objects among the arguments of a call, if the caller holds them all. -/
def handedOver (m : Machine A) (caller : Env) (args : List Word) : Answer (List Handle) :=
  let objects := args.filterMap Word.target?
  match objects.find? fun h => !(m.frame caller).holds h with
  | some missing => .error (.notHeld missing)
  | none => .ok objects

/-- A new active frame on top of a stack that holds the given objects. -/
def openFrame (m : Machine A) (stack : StackRef) (objects : List Handle) : Env × Machine A :=
  let (f, calls) := m.calls.push stack
  let started := calls.change f fun frame => (objects.foldl Frame.insert frame).enter .active
  (⟨stack, f⟩, { m with calls := started })

/-- Begins a call: opens the frame of the callee, unless the stack is full or an argument is not the
caller's to hand over. -/
def beginCall (t : Thread) (caller : Env) (name : String) (args : List Word) (m : Machine A) :
    Answer Env × Machine A :=
  let begun := m.act t caller fun m => do
    if m.config.maxCallDepth ≤ m.calls.depth caller.stack then .error .callStackOverflow
    else
      let objects ← m.handedOver caller args
      return (·.openFrame caller.stack objects)
  match begun with
  | (.error fault, m) => (.error fault, m)
  | (.ok callee, m) =>
    let shown := Text.list (args.map Word.text)
    (.ok callee, m.traced t (s!"frame {(m.frame callee).depth}: call {name} with " ++ shown))

/-- What a call or run may return: data and null always, an object only if its frame holds it. -/
def checkResult (m : Machine A) (env : Env) (outcome : Answer Word) : Answer Word := do
  let word ← outcome
  match Word.target? word with
  | some h => m.checkHeld env h
  | none => pure ()
  return word

/-- Ends a call: the caller comes to hold an object that is returned, and the frame of the callee
leaves the stack with all above it. -/
def endCall (t : Thread) (caller callee : Env) (outcome : Answer Word) (m : Machine A) :
    Answer Word × Machine A :=
  m.inScope t fun m =>
    let result := m.checkResult callee outcome
    let settled :=
      match result with
      | .error _ => m
      | .ok word =>
        let handed := match Word.target? word with
          | some h => m.hold caller h
          | none => m
        handed.changeFrame callee (·.enter .returning)
    let depth := (settled.frame callee).depth
    let popped := { settled with calls := settled.calls.pop callee.stack callee.frame }
    (result, popped.traced t (s!"frame {depth}: return " ++ Answer.layout result))

/-- Takes the frame of a callee that panicked off the stack, with all above it. -/
def abandonCall (callee : Env) (m : Machine A) : Machine A :=
  { m with calls := m.calls.pop callee.stack callee.frame }

/-- Begins a run: registers a stack and opens the entry frame. There is no caller to hand objects
over, so positive arguments are refused. -/
def beginRun (t : Thread) (name : String) (args : List Word) (m : Machine A) :
    Answer Env × Machine A :=
  match args.findSome? Word.target? with
  | some h => (.error (.notHeld h), m)
  | none =>
    let (stack, calls) := m.calls.register
    let (entry, m) := { m with calls }.inScope t fun m => m.openFrame stack []
    (.ok entry, m.note t .debug s!"mutator stack {(m.calls.stack stack).id}: enter {name}")

/-- The machine without the stack of a run among the registered ones. -/
def unregister (m : Machine A) (entry : Env) : Machine A :=
  { m with calls := m.calls.unregister (m.calls.stack entry.stack).id }

/-- Ends a run: checks the result, takes the entry frame off its stack and forgets the stack. -/
def endRun (t : Thread) (entry : Env) (outcome : Answer Word) (m : Machine A) :
    Answer Word × Machine A :=
  let (result, m) := m.inScope t fun m =>
    let result := m.checkResult entry outcome
    let id := (m.calls.stack entry.stack).id
    let popped := { m with calls := m.calls.pop entry.stack entry.frame }
    (result, popped.note t .debug (s!"mutator stack {id}: exit with " ++ Answer.layout result))
  (result, m.unregister entry)

/-- Cuts off a run whose program panicked: its stack is forgotten, its frames stay as they are. -/
def abandonRun (entry : Env) (m : Machine A) : Machine A := m.unregister entry

end RootedHeap.Machine
