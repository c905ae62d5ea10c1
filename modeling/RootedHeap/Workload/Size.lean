/-!
How much work a workload is.
-/

namespace RootedHeap.Workload

structure Size where
  threads : Nat
  iterations : Nat
  /-- The cells of a list, or the objects that a thread holds at most. -/
  listLength : Nat
  seed : Nat
  deriving DecidableEq

/-- Four threads, a hundred iterations, lists of eight cells, seed 42. -/
def Size.standard : Size := ⟨4, 100, 8, 42⟩

end RootedHeap.Workload
