import RootedHeap.Program.Basic

/-!
Several programs on one machine, each on a thread of its own. `concurrently` runs them one after
another, which is one of the orders in which their steps may come. `interleaved` follows a schedule:
at first each program runs to its first turn, then the schedule grants turns, and what is left of
each program runs to its end.
-/

namespace RootedHeap

structure Strand where
  thread : Thread
  program : Program Unit

namespace World

variable {A : Type} [Allocator A]

/-- Numbers for `n` threads that none had before. -/
def spawn (w : World A) (n : Nat) : List Thread × World A :=
  (List.range' w.nextThread n, { w with nextThread := w.nextThread + n })

/-- Runs methods without arguments, each on its own thread, one after another. -/
def runEach (w : World A) : List (Thread × Method) → List (Answer Word) × World A
  | [] => ([], w)
  | (t, method) :: rest =>
    let (outcome, w) := (Code.outcome (Code.runMethod method [])).run t w
    let (outcomes, w) := w.runEach rest
    (outcome.joined :: outcomes, w)

/-- Runs methods without arguments, each on a new thread, and gathers their results in order. -/
def concurrently (w : World A) (methods : List Method) : List (Answer Word) × World A :=
  let (threads, w) := w.spawn methods.length
  w.runEach (threads.zip methods)

def advance (w : World A) (s : Strand) : Strand × World A :=
  let (program, w) := s.program.runTurn s.thread w
  ({ s with program }, w)

/-- Every strand after its next turn, in order. -/
def advanceEach (w : World A) : List Strand → List Strand × World A
  | [] => ([], w)
  | s :: rest =>
    let (s, w) := w.advance s
    let (rest, w) := w.advanceEach rest
    (s :: rest, w)

/-- The strands after the turns of a schedule, which names them by place. -/
def follow (w : World A) (strands : List Strand) : List Nat → List Strand × World A
  | [] => (strands, w)
  | i :: schedule =>
    match strands[i]? with
    | none => w.follow strands schedule
    | some s =>
      let (s, w) := w.advance s
      w.follow (strands.set i s) schedule

/-- Runs what is left of every strand, in order. -/
def finishEach (w : World A) : List Strand → World A
  | [] => w
  | s :: rest => (s.program.run s.thread w).2.finishEach rest

/-- Runs programs, each on a new thread, in the order of a schedule. -/
def interleaved (w : World A) (programs : List (Program Unit)) (schedule : List Nat) : World A :=
  let (threads, w) := w.spawn programs.length
  let strands := List.zipWith Strand.mk threads programs
  let (strands, w) := w.advanceEach strands
  let (strands, w) := w.follow strands schedule
  w.finishEach strands

end World

end RootedHeap
