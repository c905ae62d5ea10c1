import RootedHeap.Proofs.Courses
import RootedHeap.Proofs.Rooting
import RootedHeap.Proofs.Turns

/-!
What becomes of a frame that was popped. A frame leaves its stack with all above it, so the calls
above may still be going on, and end later, in any order. The end of such a call finds its frame on
no stack any more; if its result is accepted, it still marks the frame as one that is returning, and
the pop that follows does not mark it as popped again. `Session.Retired` tells what is left of the
law that a popped frame stays so: it never comes back to a stack, holds nothing and is refused
everything, and it stays popped just as long as no call to it ends with an accepted result.
-/

namespace RootedHeap

/-- Whether an action, by what it answered, is the end of a call to a frame with a result that was
accepted. -/
def Action.accepts (f : FrameRef) : (action : Action) → action.Reply → Bool
  | .endCall _ callee _, result => callee.frame = f && result.isOk
  | _, _ => false

/-- Whether a move is the end of a call to a frame with a result that was accepted. -/
def Move.accepts (f : FrameRef) (move : Move) : Bool := move.action.accepts f move.reply

namespace Session

variable {A : Type} [Allocator A] {start : Machine A} {past moves : List Move} {s s' : Session A}
  {t : Thread} {action : Action} {f : FrameRef} {env : Env}

/-! ### What an action does to a frame that is on no stack -/

/-- What an action does to a frame that is not active. -/
theorem frame_after_of_inactive (h : s.ledger.Tallies s.calls)
    (hpermits : s.ledger.permits action) (hsize : f < s.calls.frames.size)
    (hf : (s.calls.frame f).state ≠ .active) :
    (s.after t action).calls.frame f =
      if action.accepts f (s.reply t action) then (s.calls.frame f).enter .returning
      else s.calls.frame f := by
  have hidle : s.ledger.calls.length ≤ (s.after t action).ledger.calls.length →
      (s.after t action).calls.frame f = s.calls.frame f := fun hcalls =>
    (h.turn (ledger_step hpermits) hsize).eq_of_inactive (Nat.not_lt.2 hcalls) hf
  cases action with
  | endCall caller callee outcome =>
    obtain ⟨hreply, hcalls⟩ := after_endCall s t caller callee outcome
    rw [hcalls, hreply, h.frame_endCall_of_inactive hpermits (fun word o hok htarget =>
      Machine.held_of_checkResult_eq_ok hok htarget) hf]
    simp only [Action.accepts, Bool.and_eq_true, decide_eq_true_iff]
  | abandonCall callee => exact h.frame_pop_of_inactive hf
  | beginCall caller name args => exact hidle Ledger.length_calls_beginCall
  | beginRun name args =>
    exact hidle (Nat.le_of_eq (congrArg List.length Ledger.calls_beginRun.symm))
  | _ => exact hidle (Nat.le_refl _)

/-! ### From a pop on -/

/-- What is left of a frame that was popped, after more moves. -/
structure Retired (s : Session A) (since : List Move) (env : Env) : Prop where
  off : ∀ k, env.frame ∉ (s.calls.stack k).frames
  handles : (s.machine.frame env).handles = []
  refuses : s.machine.Refuses env
  state : (s.machine.frame env).state =
    if since.any (·.accepts env.frame) then .returning else .popped

/-- Frames that are not active are on no stack, hold nothing and are refused everything. -/
theorem retired_of_state (h : s.ledger.Tallies s.calls)
    (hstate : (s.machine.frame env).state =
      if moves.any (·.accepts env.frame) then .returning else .popped) : s.Retired moves env := by
  have hinactive : (s.machine.frame env).state ≠ .active := by
    rw [hstate]
    split <;> exact (nomatch ·)
  exact ⟨fun k hon => hinactive (h.listed k _ hon).2, h.emptied _ hinactive,
    Machine.refuses_iff.2 hinactive, hstate⟩

/-- In every session, whatever the allocator and in whatever order calls end: a frame that is popped
never comes back, holds nothing from then on, and stays popped exactly as long as no call to it ends
with an accepted result. -/
theorem Ran.retired (t : Thread) (heap : Heap) (allocator : A) (config : MachineConfig)
    (hbuild : Machine.build t heap allocator config = .ok start) (hran : Ran start past s)
    (henv : env ∈ s.ledger.envs) (hpopped : (s.machine.frame env).state = .popped)
    (hcourse : Course s moves s') : s'.Retired moves env := by
  have htallies : ∀ {moves s'}, Course s moves s' → s'.ledger.Tallies s'.calls := fun hcourse =>
    (hran.course hcourse).tallies (calls_of_build hbuild)
  induction hcourse with
  | start => exact retired_of_state (htallies .start) hpopped
  | @move moves s' course t action permitted ih =>
    have h := htallies course
    refine retired_of_state (htallies (course.move t action permitted)) ?_
    have hinactive : (s'.calls.frame env.frame).state ≠ .active := Machine.refuses_iff.1 ih.refuses
    have hsize := h.lt_size (course.grows.envs.subset henv)
    show ((s'.after t action).calls.frame env.frame).state = _
    rw [frame_after_of_inactive h permitted hsize hinactive, List.any_cons]
    cases haccepts : action.accepts env.frame (s'.reply t action) with
    | true => simp only [Move.accepts, haccepts, ↓reduceIte, Bool.true_or, Frame.state_enter]
    | false =>
      simp only [Move.accepts, haccepts, Bool.false_eq_true, ↓reduceIte, Bool.false_or]
      exact ih.state

/-- Two calls from one frame overlap: the one that began first ends first, and takes the frame of
the other off the stack with its own. -/
def overlap : List (Thread × Action) :=
  [(0, .beginRun "entry" []), (0, .beginCall ⟨0, 0⟩ "first" []), (1, .beginCall ⟨0, 0⟩ "second" []),
    (0, .endCall ⟨0, 0⟩ ⟨0, 1⟩ (.ok 0))]

/-- When the other call ends with null, its frame is one that is returning again. -/
theorem returning_after_popped :
    ∃ (start : Machine Bump) (past : List Move) (s : Session Bump) (moves : List Move)
      (s' : Session Bump) (env : Env),
      Machine.build Thread.first (.ofSize 3 1) Bump.fresh .standard = .ok start ∧
        Ran start past s ∧ (s.machine.frame env).state = .popped ∧ env ∈ s.ledger.envs ∧
        Course s moves s' ∧ (s'.machine.frame env).state = .returning := by
  have hseen : watched .standard (.ofSize 3 1) Bump.fresh overlap
      [(1, .endCall ⟨0, 0⟩ ⟨0, 2⟩ (.ok 0))]
      (fun (_, s) (_, s') => ((s.machine.frame ⟨0, 2⟩).state, s.ledger.envs,
        (s'.machine.frame ⟨0, 2⟩).state)) =
        some (.popped, [⟨0, 0⟩, ⟨0, 1⟩, ⟨0, 2⟩], .returning) := by decide +kernel
  obtain ⟨start, past, s, moves, s', hbuild, hran, hcourse, hsight⟩ :=
    exists_course_of_watched hseen
  obtain ⟨hpopped, henvs, hreturning⟩ := by simpa only [Prod.mk.injEq] using hsight
  exact ⟨start, past, s, moves, s', ⟨0, 2⟩, hbuild, hran, hpopped, henvs ▸ by decide, hcourse,
    hreturning⟩

/-- What is said of all sessions, said of one in which a frame was popped with another: it is
refused everything, and it is popped until its own call ends. -/
theorem retired_after_overlap :
    ∃ (start : Machine Bump) (past : List Move) (s : Session Bump) (moves : List Move)
      (s' : Session Bump),
      Machine.build Thread.first (.ofSize 3 1) Bump.fresh .standard = .ok start ∧
        Ran start past s ∧ (s.machine.frame ⟨0, 2⟩).state = .popped ∧ Course s moves s' ∧
        s'.Retired moves ⟨0, 2⟩ ∧ (s'.machine.frame ⟨0, 2⟩).state = .popped := by
  have hseen : watched .standard (.ofSize 3 1) Bump.fresh overlap
      [(0, .endRun ⟨0, 0⟩ (.ok 0)), (1, .endCall ⟨0, 0⟩ ⟨0, 2⟩ (.ok 1))]
      (fun (_, s) (_, s') => ((s.machine.frame ⟨0, 2⟩).state, s.ledger.envs,
        (s'.machine.frame ⟨0, 2⟩).state)) =
        some (.popped, [⟨0, 0⟩, ⟨0, 1⟩, ⟨0, 2⟩], .popped) := by decide +kernel
  obtain ⟨start, past, s, moves, s', hbuild, hran, hcourse, hsight⟩ :=
    exists_course_of_watched hseen
  obtain ⟨hpopped, henvs, hstill⟩ := by simpa only [Prod.mk.injEq] using hsight
  exact ⟨start, past, s, moves, s', hbuild, hran, hpopped, hcourse,
    Ran.retired Thread.first (.ofSize 3 1) Bump.fresh .standard hbuild hran (henvs ▸ by decide)
      hpopped hcourse, hstill⟩

end Session

end RootedHeap
