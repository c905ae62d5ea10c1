import RootedHeap.Allocator.Basic

/-!
A collector that does not follow links: it keeps exactly the cells that frames hold directly and
takes all others for free. It does not clear the cells that it hands out and counts nothing.
Programs that keep data reachable through links alone lose it, which makes this strategy a test of
the checks that programs run on what they read back.
-/

namespace RootedHeap

/-- An allocator that frees whatever no frame holds. -/
structure RootsOnly where
  free : List Handle
  deriving DecidableEq

namespace RootsOnly

def fresh : RootsOnly := ⟨[]⟩

/-- Binds the allocator to the heap, all of whose cells are free then. -/
def bind (_ : Thread) (a : Arena RootsOnly) : Answer Unit × Arena RootsOnly :=
  (.ok (), a.withAllocator ⟨a.heap.handles⟩)

/-- Frees every cell that is no root, under a stop. -/
def collect (t : Thread) (calls : CallStacks) (a : Arena RootsOnly) :
    Answer Nat × Arena RootsOnly :=
  let stopped := a.stop t
  let roots := stopped.enumerate t calls
  let resumed := stopped.resume t
  match roots with
  | .error fault => (.error fault, resumed)
  | .ok roots =>
    let free := resumed.heap.handles.filter fun h => !roots.contains h
    (.ok (free.length - resumed.allocator.free.length), resumed.withAllocator ⟨free⟩)

/-- Hands out the lowest free cell as it is. -/
def take (a : Arena RootsOnly) : Answer Handle × Arena RootsOnly :=
  match a.allocator.free with
  | [] => (.error .outOfMemory, a)
  | h :: free => (.ok h, a.withAllocator ⟨free⟩)

/-- Hands out a cell, after a collection if none is free. -/
def allocate (t : Thread) (calls : CallStacks) (a : Arena RootsOnly) :
    Answer Handle × Arena RootsOnly :=
  if a.allocator.free.isEmpty then
    match collect t calls a with
    | (.error fault, a') => (.error fault, a')
    | (.ok _, a') => take a'
  else take a

end RootsOnly

instance : Allocator RootsOnly where
  name _ := "roots-only"
  bind := RootsOnly.bind
  allocate := RootsOnly.allocate
  collect := RootsOnly.collect

end RootedHeap
