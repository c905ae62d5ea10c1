import RootedHeap.Program.Basic

/-!
How the workloads use the slots of a cell: one for a tag of primitive data that tells objects apart,
one for the link of a list. Tags count down, and code that needs one below the least word panics.
-/

namespace RootedHeap.Workload

def tagSlot : Nat := 0

def linkSlot : Nat := 1

def tagBelow (tag : Word) (n : Nat) : Code Word :=
  match tag.below? n with
  | some below => return below
  | none => throw .panic

end RootedHeap.Workload
