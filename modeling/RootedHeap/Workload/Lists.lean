import RootedHeap.Workload.Slots

/-!
Linked lists as a workload. `buildList` makes a list in a call of its own and returns its head; the
tags fall by one from the tail to the head. `verifyList` walks a list and checks every tag.
`listChurn` builds, verifies and drops lists over and over, so objects are handed over, returned and
kept alive by links.
-/

namespace RootedHeap.Workload

open Code

/-- Puts `n` cells in front of a list whose head is `head`. The `k`-th cell of the list, counted
from the tail, has the tag `base - k`. The frame holds the head only. -/
def buildCells (env : Env) (base : Word) : (n k : Nat) → (head : Handle) → Code Handle
  | 0, _, head => return head
  | n + 1, k, head => do
    let cell ← newObject env
    setData env cell tagSlot (← tagBelow base k)
    if head ≠ Handle.null then
      setReference env cell linkSlot head
      release env head
    buildCells env base n (k + 1) cell

/-- Builds a list of a fixed length. The first argument is the tag of its last cell, -1 if there is
none; the result is the head. -/
def buildList (length : Nat) : Method where
  name := "build_list"
  body env args := do
    let head ← buildCells env (args.headD (-1)) length 0 Handle.null
    return head.toWord

/-- Walks the last `n` cells of a list of `length` cells from `cursor` on. The cell with `k` cells
after it must have the tag `base - k`. Every cell but the head of the list is released on
the way. -/
def verifyRest (env : Env) (head : Handle) (base : Word) (length : Nat) :
    (n : Nat) → (cursor : Handle) → Code Unit
  | 0, cursor =>
    if cursor = Handle.null then pure ()
    else throw (.fault (.runtimeError (.listTooLong length)))
  | n + 1, cursor => do
    if cursor = Handle.null then
      throw (.fault (.runtimeError (.listTooShort (length - (n + 1)) length)))
    let expected ← tagBelow base n
    let tag ← getData env cursor tagSlot
    if tag ≠ expected then throw (.fault (.runtimeError (.listTag cursor tag expected)))
    let next ← getReference env cursor linkSlot
    if cursor ≠ head then release env cursor
    verifyRest env head base length n next

/-- Checks a list of `length` cells that `buildList` made from the tag `base`, and gives the number
of its cells. -/
def verifyList (env : Env) (head : Handle) (base : Word) (length : Nat) : Code Nat := do
  verifyRest env head base length length head
  return length

/-- The rounds of a churn from number `i` on: build, verify, drop. The result is the number of cells
verified, those before included. -/
def churnRounds (env : Env) (length : Nat) : (rounds i verified : Nat) → Code Nat
  | 0, _, verified => return verified
  | rounds + 1, i, verified => do
    let base ← tagBelow (-1) i
    let word ← call env (buildList length) [base]
    let head := Word.toHandle word
    let visited ← verifyList env head base length
    if head ≠ Handle.null then release env head
    churnRounds env length rounds (i + 1) (verified + visited)

/-- Builds, verifies and drops lists; the result is minus the number of cells verified. -/
def listChurn (iterations length : Nat) : Method where
  name := "list_churn"
  body env _ := do
    let verified ← churnRounds env length iterations 0 0
    return -(Word.ofCount verified)

end RootedHeap.Workload
