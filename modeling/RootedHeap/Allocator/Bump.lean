import RootedHeap.Allocator.Basic

/-!
Allocation without collection: cells are handed out in the order of their handles, each once.
Nothing is ever reclaimed.
-/

namespace RootedHeap

/-- An allocator that only counts up. -/
structure Bump where
  binding : Option Binding
  next : Handle
  stats : Stats
  deriving DecidableEq

namespace Bump

def fresh : Bump := ⟨none, 0, .none⟩

def remaining (b : Bump) : Nat :=
  match b.binding with
  | some binding => binding.size - b.next
  | none => 0

def bind (_ : Thread) (a : Arena Bump) : Answer Unit × Arena Bump :=
  match a.allocator.binding with
  | some _ => (.error (.invalidState .alreadyBound), a)
  | none =>
    let binding := ⟨a.heap.size, a.heap.width⟩
    (.ok (), a.withAllocator { a.allocator with binding := some binding, next := 1 })

/-- Hands out the next cell, cleared. -/
def allocate (_ : Thread) (_ : CallStacks) (a : Arena Bump) : Answer Handle × Arena Bump :=
  match a.allocator.binding with
  | none => (.error (.invalidState .unbound), a)
  | some _ =>
    let h := a.allocator.next
    if a.heap.size ≤ h then (.error .outOfMemory, a)
    else
      match a.heap.cell h with
      | .error fault => (.error fault, a)
      | .ok _ =>
        let allocator :=
          { a.allocator with next := h + 1, stats := a.allocator.stats.countAllocation }
        (.ok h, { a with heap := a.heap.clear h, allocator })

def layout (b : Bump) : String :=
  Text.record "BumpAllocator"
    [("binding", Text.option (b.binding.map Binding.layout)), ("next", toString b.next),
      ("stats", b.stats.layout)]

end Bump

instance : Allocator Bump where
  name _ := "bump"
  bind := Bump.bind
  allocate := Bump.allocate
  stats := Bump.stats

end RootedHeap
