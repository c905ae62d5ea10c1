import RootedHeap.Log

/-!
The gate between mutators and collectors. A mutator opens a scope for each operation; a collector
closes the gate with a stop. A thread may open a scope unless another thread holds the stop, and a
stop is complete once no other thread has a scope open. The holder itself may open scopes and may
stop again; as many resumes as stops open the gate.

Each function here is one section under the gate's lock. Where a section has to wait, the condition
it waits for is a function of its own: `lets` before `enter` and `close`, `quiet` after `close`.
-/

namespace RootedHeap

structure Gate where
  holder : Option Thread
  stops : Nat
  scopes : List Thread
  /-- How many times the gate was closed and opened again. -/
  pauses : Nat
  deriving DecidableEq

namespace Gate

/-- An open gate that nobody has passed. -/
def fresh : Gate := ⟨none, 0, [], 0⟩

/-- Whether a thread may open a scope or close the gate now. -/
def lets (g : Gate) (t : Thread) : Bool :=
  match g.holder with
  | none => true
  | some holder => holder = t

def enter (g : Gate) (t : Thread) : Gate := { g with scopes := t :: g.scopes }

def leave (g : Gate) (t : Thread) : Gate := { g with scopes := g.scopes.erase t }

/-- The gate after a thread has stopped once more. -/
def close (g : Gate) (t : Thread) : Gate :=
  match g.holder with
  | none => { g with holder := some t, stops := 1 }
  | some _ => { g with stops := g.stops + 1 }

/-- Whether no thread but `t` has a scope open. -/
def quiet (g : Gate) (t : Thread) : Bool := g.scopes.all (· = t)

def heldBy (g : Gate) (t : Thread) : Bool := g.holder = some t

def isClosed (g : Gate) : Bool := g.holder.isSome

/-- The gate after one resume of the holder. The last one opens the gate. -/
def reopen (g : Gate) : Gate :=
  if g.stops ≤ 1 then { g with holder := none, stops := 0, pauses := g.pauses + 1 }
  else { g with stops := g.stops - 1 }

/-- The gate after a resume by a thread; none if it does not hold the stop. -/
def resume? (g : Gate) (t : Thread) : Option Gate := if g.heldBy t then some g.reopen else none

/-- The gate after a resume by a thread, which changes nothing if it does not hold the stop. -/
def resume (g : Gate) (t : Thread) : Gate := (g.resume? t).getD g

def openScopes (g : Gate) : Nat := g.scopes.length

end Gate

end RootedHeap
