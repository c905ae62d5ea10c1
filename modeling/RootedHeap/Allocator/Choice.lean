import RootedHeap.Allocator.Strategy
import RootedHeap.Allocator.RootsOnly
import RootedHeap.Allocator.Scripted

/-!
One type for all allocators of this library, for a machine whose strategy is chosen while it runs.
Each operation is the one of the allocator inside.
-/

namespace RootedHeap

inductive Choice where
  | bump (b : Bump)
  | markSweep (m : MarkSweep)
  | rootsOnly (r : RootsOnly)
  | scripted (s : Scripted)

namespace Choice

def ofConfig (c : CollectorConfig) : Choice :=
  match c.strategy with
  | .bump => .bump .fresh
  | .markSweep => .markSweep (.fresh c.maxPause)

/-- Runs an operation of the allocator inside on the arena. -/
def within {A α : Type} (a : Arena Choice) (inner : A) (wrap : A → Choice)
    (operation : Arena A → α × Arena A) : α × Arena Choice :=
  let (answer, after) := operation (a.withAllocator inner)
  (answer, after.withAllocator (wrap after.allocator))

def name : Choice → String
  | .bump b => Allocator.name b
  | .markSweep m => Allocator.name m
  | .rootsOnly r => Allocator.name r
  | .scripted s => Allocator.name s

def stats : Choice → Stats
  | .bump b => Allocator.stats b
  | .markSweep m => Allocator.stats m
  | .rootsOnly r => Allocator.stats r
  | .scripted s => Allocator.stats s

def bind (t : Thread) (a : Arena Choice) : Answer Unit × Arena Choice :=
  match a.allocator with
  | .bump b => within a b .bump (Allocator.bind t)
  | .markSweep m => within a m .markSweep (Allocator.bind t)
  | .rootsOnly r => within a r .rootsOnly (Allocator.bind t)
  | .scripted s => within a s .scripted (Allocator.bind t)

def allocate (t : Thread) (calls : CallStacks) (a : Arena Choice) :
    Answer Handle × Arena Choice :=
  match a.allocator with
  | .bump b => within a b .bump (Allocator.allocate t calls)
  | .markSweep m => within a m .markSweep (Allocator.allocate t calls)
  | .rootsOnly r => within a r .rootsOnly (Allocator.allocate t calls)
  | .scripted s => within a s .scripted (Allocator.allocate t calls)

def collect (t : Thread) (calls : CallStacks) (a : Arena Choice) : Answer Nat × Arena Choice :=
  match a.allocator with
  | .bump b => within a b .bump (Allocator.collect t calls)
  | .markSweep m => within a m .markSweep (Allocator.collect t calls)
  | .rootsOnly r => within a r .rootsOnly (Allocator.collect t calls)
  | .scripted s => within a s .scripted (Allocator.collect t calls)

/-- The cells that can be handed out without a collection, where the strategy counts them. -/
def free : Choice → Nat
  | .bump b => b.remaining
  | .markSweep m => m.freeCells
  | .rootsOnly r => r.free.length
  | .scripted s => s.script.length

/-- What the collector is doing, for a strategy that has phases. -/
def phase? : Choice → Option Phase
  | .markSweep m => some m.phase
  | _ => none

/-- The structural view of the allocator; a strategy without one shows its name. -/
def layout : Choice → String
  | .bump b => b.layout
  | .markSweep m => m.layout
  | c => c.name

end Choice

instance : Allocator Choice where
  name := Choice.name
  bind := Choice.bind
  allocate := Choice.allocate
  collect := Choice.collect
  stats := Choice.stats

end RootedHeap
