import RootedHeap.Proofs.Ensembles
import RootedHeap.Proofs.ProgramLogic

/-!
Methods that run side by side. Each thread of a crowd runs a method on a stack of its own, one
action at a time, and a schedule says whose turn it is. Where each method takes only steps on its
own stack, so does the crowd: each run is reported as what its method came to, at a moment at which
what the method knew of its result was true, whatever the schedule; and a thread that the schedule
does not leave out for good is over in the end.
-/

namespace RootedHeap

/-- A session and what is left of the program of each thread. -/
structure Scene (A ι : Type) where
  session : Session A
  program : ι → Program Outcome

/-- Methods that run side by side: the thread of each, the session that they start in, and whose
turn it is at each moment. -/
structure Crowd (A ι : Type) where
  start : Session A
  method : ι → Method
  thread : ι → Thread
  turn : Nat → ι

namespace Crowd

variable {A ι : Type} [Allocator A] [DecidableEq ι]

/-- A scene after the next action of one thread; nothing happens if its program is over. -/
def after (c : Crowd A ι) (scene : Scene A ι) (i : ι) : Scene A ι :=
  match scene.program i with
  | .done _ => scene
  | .act action next =>
    ⟨scene.session.after (c.thread i) action,
      Function.update scene.program i (next (scene.session.reply (c.thread i) action))⟩

def scene (c : Crowd A ι) : Nat → Scene A ι
  | 0 => ⟨c.start, fun i => (Code.runMethod (c.method i) []).outcome⟩
  | n + 1 => c.after (c.scene n) (c.turn n)

/-- Whether a thread begins its run in a turn, with the given entry. -/
def Enters (c : Crowd A ι) (i : ι) (n : Nat) (entry : Env) : Prop :=
  c.turn n = i ∧ ∃ name next, (c.scene n).program i = .act (.beginRun name []) next ∧
    (c.scene n).session.reply (c.thread i) (.beginRun name []) = .ok entry

/-- Whether a thread ends its run in a turn, with the given outcome of its method. -/
def Leaves (c : Crowd A ι) (i : ι) (n : Nat) (entry : Env) (answer : Answer Word) : Prop :=
  c.turn n = i ∧ ∃ next, (c.scene n).program i = .act (.endRun entry answer) next

/-- Whether a thread has run its method within so many turns, and reports what the method came to,
of which something was true when the run ended. -/
def Reports (c : Crowd A ι) (R : Env → Answer Word → Session A → Prop) (i : ι) (n : Nat)
    (outcome : Outcome) : Prop :=
  ∃ entry answer l m, l < m ∧ m < n ∧ c.Enters i l entry ∧ c.Leaves i m entry answer ∧
    outcome = .finished answer ∧ R entry answer (c.scene m).session

def Recurs (c : Crowd A ι) (i : ι) : Prop := ∀ n, ∃ m, n ≤ m ∧ c.turn m = i

variable {c : Crowd A ι} {i : ι} {n m : Nat}

theorem scene_succ : c.scene (n + 1) = c.after (c.scene n) (c.turn n) := rfl

theorem after_over {scene : Scene A ι} {outcome : Outcome}
    (hprogram : scene.program i = .done outcome) : c.after scene i = scene := by
  rw [after, hprogram]

theorem after_act {scene : Scene A ι} {action : Action} {next : action.Reply → Program Outcome}
    (hprogram : scene.program i = .act action next) :
    c.after scene i = ⟨scene.session.after (c.thread i) action,
      Function.update scene.program i (next (scene.session.reply (c.thread i) action))⟩ := by
  rw [after, hprogram]

theorem program_after_ne {scene : Scene A ι} {j : ι} (hne : i ≠ j) :
    (c.after scene j).program i = scene.program i := by
  unfold after
  split
  · rfl
  · exact Function.update_of_ne hne _ _

/-! ### Every program comes to its end -/

/-- A thread that has no turn stays where it is. -/
theorem program_of_idle (hle : n ≤ m) (hidle : ∀ l, n ≤ l → l < m → c.turn l ≠ i) :
    (c.scene m).program i = (c.scene n).program i := by
  induction m, hle using Nat.le_induction with
  | base => rfl
  | succ m hle ih =>
    have hne : i ≠ c.turn m := (hidle m hle (Nat.lt_succ_self m)).symm
    rw [scene_succ, program_after_ne hne]
    exact ih fun l hl hlt => hidle l hl (Nat.lt_succ_of_lt hlt)

omit [Allocator A] in
/-- The next turn of a thread that is not left out for good. -/
theorem Recurs.exists_next (hrecurs : c.Recurs i) (n : Nat) :
    ∃ m, n ≤ m ∧ c.turn m = i ∧ ∀ l, n ≤ l → l < m → c.turn l ≠ i := by
  obtain ⟨hle, hturn⟩ := Nat.find_spec (hrecurs n)
  refine ⟨Nat.find (hrecurs n), hle, hturn, fun l hl hlt heq => ?_⟩
  exact Nat.find_min (hrecurs n) hlt ⟨hl, heq⟩

omit [DecidableEq ι] [Allocator A] in
/-- Of two threads that take turns none is left out. -/
theorem recurs_of_turns {c : Crowd A Bool} (hturn : ∀ n, c.turn n = (n % 2 == 1)) (i : Bool) :
    c.Recurs i := by
  refine fun n => ⟨2 * n + i.toNat, by omega, ?_⟩
  rw [hturn]
  cases i <;> simp

/-- A program of a thread that is not left out for good comes to its end. -/
theorem Recurs.exists_over (hrecurs : c.Recurs i) :
    ∃ n outcome, (c.scene n).program i = .done outcome := by
  have hends : ∀ (p : Program Outcome) (n : Nat), (c.scene n).program i = p →
      ∃ m outcome, (c.scene m).program i = .done outcome := by
    intro p
    induction p with
    | done outcome => exact fun n hp => ⟨n, outcome, hp⟩
    | act action next ih =>
      intro n hp
      obtain ⟨m, hle, hturn, hidle⟩ := hrecurs.exists_next n
      have hprogram := (program_of_idle hle hidle).trans hp
      refine ih ((c.scene m).session.reply (c.thread i) action) (m + 1) ?_
      rw [scene_succ, hturn, after_act hprogram]
      exact Function.update_self ..
  exact hends _ 0 rfl

end Crowd

/-! ### A run from its beginning to its end -/

/-- How a run is reported once it is over. -/
def Code.reported : Except Interrupt Word → Program Outcome
  | .ok word => .done (.finished (.ok word))
  | .error (.fault fault) => .done (.finished (.error fault))
  | .error .panic => .done .panicked

theorem Code.outcome_eq (code : Code Word) : code.outcome = code.ended.andThen reported := by
  show code.ended.andThen _ = _
  congr 1

namespace Session

variable {A : Type} [Allocator A] {s : Session A} {t : Thread} {entry : Env} {name : String}

/-- A run that begins has a frame that is alone on its stack and holds nothing. -/
theorem aloneHolding_begun {args : List Word}
    (hbegun : s.reply t (.beginRun name args) = .ok entry) :
    (s.after t (.beginRun name args)).AloneHolding entry [] := by
  obtain ⟨rfl, hcalls, henvs⟩ := beginRun_ok hbegun
  have hframe : (s.after t (.beginRun name args)).machine.frame
        ⟨s.calls.known.size, s.calls.frames.size⟩ =
      (Frame.fresh (s.calls.register.2.depth s.calls.known.size)).enter .active := by
    show (s.after t (.beginRun name args)).calls.frame s.calls.frames.size = _
    rw [hcalls]
    exact CallStacks.frame_opened.trans (if_pos rfl)
  refine ⟨henvs ▸ List.mem_append_right _ (List.mem_singleton.2 rfl), ?_, ?_, ?_⟩
  · rw [hframe]
    rfl
  · rw [hcalls, CallStacks.stack_opened, CallStacks.known_size_register,
      if_pos ⟨rfl, Nat.lt_succ_self _⟩, CallStacks.stack_register, if_pos rfl]
    rfl
  · rw [hframe]
    rfl

/-- Data and faults are reported as they are. -/
theorem reply_endRun {answer : Answer Word}
    (hdata : ∀ word, answer = .ok word → word.target? = none) :
    s.reply t (.endRun entry answer) = answer := by
  obtain ⟨text, heq⟩ := Machine.endRun_eq s.machine t entry answer
  have hreply : s.reply t (.endRun entry answer) = s.machine.checkResult entry answer :=
    congrArg Prod.fst heq
  rw [hreply]
  rcases answer with fault | word
  · rfl
  · rw [Machine.checkResult]
    simp only [bind, Except.bind, hdata word rfl]
    rfl

theorem closing_reported (entry : Env) (answer : Answer Word) :
    ∃ next, (closing entry answer.ending).andThen Code.reported =
      .act (.endRun entry answer) next ∧ next answer = .done (.finished answer) := by
  cases answer <;> exact ⟨_, rfl, rfl⟩

/-- Played to its end, a method that comes to data or a fault is reported as what it came to. -/
theorem play_reported {p : Program (Except Interrupt Word)} {answer : Answer Word}
    (hending : (s.play t p).1 = answer.ending)
    (hdata : ∀ word, answer = .ok word → word.target? = none) :
    s.play t ((p.andThen (closing entry)).andThen Code.reported) =
      (.finished answer, (s.play t p).2.after t (.endRun entry answer)) := by
  obtain ⟨next, hclosing, hnext⟩ := closing_reported entry answer
  rw [play_andThen, play_andThen, ← play_andThen t _ Code.reported, hending, hclosing, play,
    reply_endRun hdata, hnext, play]

end Session

/-! ### Methods that keep to their own stacks -/

namespace Crowd

variable {A ι : Type} [Allocator A] [LawfulCollector A] [DecidableEq ι] {c : Crowd A ι}
  {i j : ι} {n width : Nat} {Sure : Session A → Prop} {Stops : Fault → Prop}
  {Q : ι → (entry : Env) → Word → Knowledge A entry}

/-- The context of a thread's method, once its run has begun. -/
def context (c : Crowd A ι) (Sure : Session A → Prop) (Stops : Fault → Prop) (i : ι) (entry : Env) :
    CodeContext A :=
  ⟨c.thread i, entry, Sure, fun interrupt => ∃ fault, interrupt = .fault fault ∧ Stops fault⟩

/-- Whether the runs that go on are those that went on from the start and those of the threads in
their places. -/
def RunsPlaced (c : Crowd A ι) (place : ι → Option Env) (s : Session A) : Prop :=
  ∀ run ∈ s.ledger.runs, run ∈ c.start.ledger.runs ∨ ∃ i, place i = some run

/-- What can be sure of the sessions of a crowd: they are well formed, and what is sure stays so
when a thread without a place begins its run, and when a run ends. -/
structure SureStays (c : Crowd A ι) (width : Nat) (Sure : Session A → Prop) : Prop where
  wellFormed : ∀ s, Sure s → s.WellFormed width
  begins : ∀ s place i t name, Sure s → c.RunsPlaced place s → place i = none →
    Sure (s.after t (.beginRun name []))
  ends : ∀ s t entry answer, Sure s → entry ∈ s.ledger.runs →
    Sure (s.after t (.endRun entry answer))

/-- What is true of the outcome of a method: it was known of its result, or the method may stop with
its fault. -/
def Truth (Stops : Fault → Prop) {entry : Env} (Q : Word → Knowledge A entry) (s : Session A) :
    Answer Word → Prop
  | .ok word => (Q word).Holds s
  | .error fault => Stops fault

/-- Whether a method, run in a frame that holds nothing, keeps to its own stack and returns data of
which something is known, unless it stops with a fault as it may. -/
structure MethodsKeep (c : Crowd A ι) (width : Nat) (Sure : Session A → Prop) (Stops : Fault → Prop)
    (Q : ι → (entry : Env) → Word → Knowledge A entry) : Prop extends c.SureStays width Sure where
  keeps : ∀ i entry, (c.context Sure Stops i entry).Keeps
    ⟨Session.AloneHolding entry [], fun hun h => h.unnoticed hun⟩ ((c.method i).body entry [])
    (Q i entry)
  data : ∀ i entry word s, (Q i entry word).Holds s → word.target? = none

omit [DecidableEq ι] in
/-- A method that is run in a frame that holds nothing comes to a result of which the truth was
told. -/
theorem MethodsKeep.ensures (hkeeps : c.MethodsKeep width Sure Stops Q) {s : Session A}
    {entry : Env} (hsure : Sure s) (hholding : s.AloneHolding entry []) :
    (c.context Sure Stops i entry).Ensures (fun result s => ∃ answer,
      result = Answer.ending answer ∧ Truth Stops (Q i entry) s answer)
        ((c.method i).body entry []).ended s := by
  refine (hkeeps.keeps i entry s hsure hholding).imp fun result s' hresult => ?_
  rcases result with interrupt | word
  · obtain ⟨fault, rfl, hstops⟩ := hresult
    exact ⟨.error fault, rfl, hstops⟩
  · exact ⟨.ok word, rfl, hresult⟩

/-- Where a thread is: it waits for its run to begin, it is in its run, or it has reported. -/
inductive Stage (c : Crowd A ι) (Sure : Session A → Prop) (Stops : Fault → Prop)
    (Q : ι → (entry : Env) → Word → Knowledge A entry) (n : Nat) (i : ι) : Option Env → Prop
  | waiting (program : (c.scene n).program i = (Code.runMethod (c.method i) []).outcome) :
    Stage c Sure Stops Q n i none
  | running {entry : Env} {p : Program (Except Interrupt Word)}
      (program : (c.scene n).program i = (p.andThen (Session.closing entry)).andThen Code.reported)
      (begun : entry ∈ (c.scene n).session.ledger.runs)
      (entered : ∃ l, l < n ∧ c.Enters i l entry)
      (ensures : (c.context Sure Stops i entry).Ensures (fun result s => ∃ answer,
        result = Answer.ending answer ∧ Truth Stops (Q i entry) s answer) p (c.scene n).session) :
    Stage c Sure Stops Q n i (some entry)
  | finished {outcome : Outcome} (program : (c.scene n).program i = .done outcome)
      (reports : c.Reports (fun entry answer s => Truth Stops (Q i entry) s answer) i n outcome) :
    Stage c Sure Stops Q n i none

/-- Where all threads are: on stacks of their own, in a session of which something is sure. -/
structure Staged (c : Crowd A ι) (Sure : Session A → Prop) (Stops : Fault → Prop)
    (Q : ι → (entry : Env) → Word → Knowledge A entry) (n : Nat) (place : ι → Option Env) :
    Prop where
  sure : Sure (c.scene n).session
  runsPlaced : c.RunsPlaced place (c.scene n).session
  stage : ∀ i, c.Stage Sure Stops Q n i (place i)
  alone : ∀ i j entry entry', place i = some entry → place j = some entry' →
    entry.stack = entry'.stack → i = j

/-- What the turn of a thread in some place may do to the session: nothing, or an orderly action
within the rules on the thread's own stack, or on none that others have. -/
def Turned (s s' : Session A) (mine : Option Env) : Prop :=
  s' = s ∨ ∃ t action, s.ledger.permits action ∧ action.orderly = true ∧ s' = s.after t action ∧
    (action.stack s.calls = s.calls.known.size ∨
      ∃ entry, mine = some entry ∧ action.stack s.calls = entry.stack)

omit [DecidableEq ι] in
theorem known_of_begun {s : Session A} {entry : Env} (hs : s.WellFormed width)
    (hbegun : entry ∈ s.ledger.runs) : entry ∈ s.ledger.envs :=
  (hs.tallies.entered entry (List.mem_append_left _ hbegun)).1

omit [LawfulCollector A] in
theorem Reports.later {R : Env → Answer Word → Session A → Prop} {outcome : Outcome}
    (h : c.Reports R i n outcome) : c.Reports R i (n + 1) outcome := by
  obtain ⟨entry, answer, l, m, hlm, hmn, hrest⟩ := h
  exact ⟨entry, answer, l, m, hlm, Nat.lt_succ_of_lt hmn, hrest⟩

/-- A thread stays where it is while another has its turn. -/
theorem Stage.persists {place mine : Option Env} (h : c.Stage Sure Stops Q n i place)
    (hs : (c.scene n).session.WellFormed width)
    (hprogram : (c.scene (n + 1)).program i = (c.scene n).program i)
    (hturned : Turned (c.scene n).session (c.scene (n + 1)).session mine)
    (halone : ∀ entry entry', place = some entry → mine = some entry' →
      entry.stack ≠ entry'.stack) :
    c.Stage Sure Stops Q (n + 1) i place := by
  cases h with
  | waiting program => exact .waiting (hprogram.trans program)
  | finished program reports => exact .finished (hprogram.trans program) reports.later
  | @running entry p program begun entered ensures =>
    obtain ⟨l, hl, hentered⟩ := entered
    have hentered' : ∃ l, l < n + 1 ∧ c.Enters i l entry := ⟨l, Nat.lt_succ_of_lt hl, hentered⟩
    rcases hturned with hsame | ⟨t, action, hpermits, horderly, hafter, hstack⟩
    · exact .running (hprogram.trans program) (hsame ▸ begun) hentered' (hsame ▸ ensures)
    · have hknown := known_of_begun hs begun
      have hoff : action.stack (c.scene n).session.calls ≠ entry.stack := by
        rcases hstack with hnone | ⟨entry', hmine, hown⟩
        · rw [hnone]
          exact Nat.ne_of_gt (hs.tallies.known entry hknown)
        · rw [hown]
          exact (halone entry entry' rfl hmine).symm
      have hunnoticed : (c.scene n).session.Unnoticed entry ((c.scene n).session.after t action) :=
        hs.unnoticed hpermits horderly hoff
      refine .running (hprogram.trans program) ?_ hentered' ?_
      · rw [hafter]
        exact Session.mem_runs_after begun hoff
      · rw [hafter]
        exact ensures.unnoticed hunnoticed

/-- Threads are still where they were, but for the one whose turn it was. -/
theorem Staged.step {place : ι → Option Env} (h : c.Staged Sure Stops Q n place)
    (hsureStays : c.SureStays width Sure) (mine : Option Env)
    (hturned : Turned (c.scene n).session (c.scene (n + 1)).session (place (c.turn n)))
    (hsure : Sure (c.scene (n + 1)).session)
    (hrunsPlaced : c.RunsPlaced (Function.update place (c.turn n) mine) (c.scene (n + 1)).session)
    (hmine : c.Stage Sure Stops Q (n + 1) (c.turn n) mine)
    (hplace : mine = place (c.turn n) ∨ ∀ entry, mine = some entry →
      entry.stack = (c.scene n).session.calls.known.size) :
    c.Staged Sure Stops Q (n + 1) (Function.update place (c.turn n) mine) := by
  have hformed := hsureStays.wellFormed _ h.sure
  have hknown : ∀ {i entry}, place i = some entry →
      entry.stack < (c.scene n).session.calls.known.size := by
    intro i entry hi
    have hstage := h.stage i
    rw [hi] at hstage
    cases hstage with
    | running program begun entered ensures =>
      exact hformed.tallies.known entry (known_of_begun hformed begun)
  have hother : ∀ {i entry entry'}, i ≠ c.turn n → place i = some entry → mine = some entry' →
      entry.stack ≠ entry'.stack := by
    intro i entry entry' hne hi hentry' heq
    rcases hplace with hold | hnew
    · exact hne (h.alone i _ entry entry' hi (hold ▸ hentry') heq)
    · exact Nat.ne_of_lt (hknown hi) (heq.trans (hnew entry' hentry'))
  refine ⟨hsure, hrunsPlaced, fun i => ?_, fun i j entry entry' hi hj heq => ?_⟩
  · by_cases hi : i = c.turn n
    · subst hi
      rw [Function.update_self]
      exact hmine
    · rw [Function.update_of_ne hi]
      refine (h.stage i).persists hformed (program_after_ne hi) hturned ?_
      exact fun entry entry' hentry hentry' heq => hi (h.alone i _ entry entry' hentry hentry' heq)
  · by_cases hi' : i = c.turn n
    · by_cases hj' : j = c.turn n
      · exact hi'.trans hj'.symm
      · rw [hi', Function.update_self] at hi
        rw [Function.update_of_ne hj'] at hj
        exact absurd heq.symm (hother hj' hj hi)
    · rw [Function.update_of_ne hi'] at hi
      by_cases hj' : j = c.turn n
      · rw [hj', Function.update_self] at hj
        exact absurd heq (hother hi' hi hj)
      · rw [Function.update_of_ne hj'] at hj
        exact h.alone i j entry entry' hi hj heq

omit [Allocator A] [LawfulCollector A] in
theorem runsPlaced_elsewhere {place : ι → Option Env} {mine : Option Env} {run : Env}
    (hrun : run ∈ c.start.ledger.runs ∨ ∃ i, place i = some run) (hne : place i ≠ some run) :
    run ∈ c.start.ledger.runs ∨ ∃ j, Function.update place i mine j = some run := by
  refine hrun.imp_right fun ⟨j, hj⟩ => ⟨j, ?_⟩
  rw [Function.update_of_ne]
  · exact hj
  · rintro rfl
    exact hne hj

/-! ### A thread's own turn -/

/-- A thread that waits begins its run. -/
theorem Staged.begins {place : ι → Option Env} (h : c.Staged Sure Stops Q n place)
    (hkeeps : c.MethodsKeep width Sure Stops Q) (hplace : place (c.turn n) = none)
    (hprogram : (c.scene n).program (c.turn n) =
      (Code.runMethod (c.method (c.turn n)) []).outcome) :
    ∃ place, c.Staged Sure Stops Q (n + 1) place := by
  rw [Code.outcome_eq, Session.ended_runMethod] at hprogram
  have hscene := (scene_succ (c := c) (n := n)).trans (after_act hprogram)
  let entry : Env := ⟨(c.scene n).session.calls.known.size, (c.scene n).session.calls.frames.size⟩
  have hbegun : (c.scene n).session.reply (c.thread (c.turn n))
      (.beginRun (c.method (c.turn n)).name []) = .ok entry := Session.reply_beginRun ..
  have hafter : Sure (c.scene (n + 1)).session := by
    rw [hscene]
    exact hkeeps.begins _ place _ _ _ h.sure h.runsPlaced hplace
  have hruns : (c.scene (n + 1)).session.ledger.runs =
      (c.scene n).session.ledger.runs ++ [entry] := by
    rw [hscene]
    exact Session.runs_of_begun hbegun
  rw [hbegun] at hscene
  refine ⟨_, h.step hkeeps.toSureStays (some entry) ?_ hafter (fun run hrun => ?_) ?_
    (.inr fun entry' hentry' => ?_)⟩
  · exact .inr ⟨c.thread (c.turn n), .beginRun (c.method (c.turn n)).name [], trivial, rfl,
      congrArg Scene.session hscene, .inl rfl⟩
  · rw [hruns] at hrun
    rcases List.mem_append.1 hrun with hold | hnew
    · exact runsPlaced_elsewhere (h.runsPlaced run hold) (by rw [hplace]; exact (nomatch ·))
    · obtain rfl := List.mem_singleton.1 hnew
      exact .inr ⟨c.turn n, Function.update_self ..⟩
  · refine .running (p := ((c.method (c.turn n)).body entry []).ended) ?_ ?_ ?_ ?_
    · rw [hscene]
      exact Function.update_self ..
    · rw [hruns]
      exact List.mem_append_right _ (List.mem_singleton.2 rfl)
    · exact ⟨n, Nat.lt_succ_self n, rfl, _, _, hprogram, hbegun⟩
    · have hholding : (c.scene (n + 1)).session.AloneHolding entry [] := by
        rw [hscene]
        exact Session.aloneHolding_begun hbegun
      exact hkeeps.ensures hafter hholding
  · obtain rfl := Option.some.inj hentry'
    rfl

/-- A thread in its run takes a step. -/
theorem Staged.goesOn {place : ι → Option Env} (h : c.Staged Sure Stops Q n place)
    (hsureStays : c.SureStays width Sure) {entry : Env}
    {action : Action} {next : action.Reply → Program (Except Interrupt Word)}
    (hplace : place (c.turn n) = some entry)
    (hprogram : (c.scene n).program (c.turn n) =
      ((Program.act action next).andThen (Session.closing entry)).andThen Code.reported)
    (hbegun : entry ∈ (c.scene n).session.ledger.runs)
    (hentered : ∃ l, l < n ∧ c.Enters (c.turn n) l entry)
    (hensures : (c.context Sure Stops (c.turn n) entry).Ensures (fun result s => ∃ answer,
      result = Answer.ending answer ∧ Truth Stops (Q (c.turn n) entry) s answer)
        (.act action next) (c.scene n).session) :
    ∃ place, c.Staged Sure Stops Q (n + 1) place := by
  obtain ⟨hproper, hafter, hnext⟩ := hensures _ h.sure .refl
  have hscene := (scene_succ (c := c) (n := n)).trans (after_act hprogram)
  have hruns : (c.scene (n + 1)).session.ledger.runs = (c.scene n).session.ledger.runs := by
    rw [hscene]
    exact hproper.runs _
  obtain ⟨l, hl, hentered⟩ := hentered
  have hsame : Function.update place (c.turn n) (some entry) = place := by
    rw [← hplace]
    exact Function.update_eq_self _ _
  refine ⟨_, h.step hsureStays (some entry) ?_ ?_ ?_ ?_ (.inl hplace.symm)⟩
  · refine .inr ⟨_, _, hproper.permitted, hproper.orderly, congrArg Scene.session hscene, ?_⟩
    exact hproper.placed.symm.imp_right fun hown => ⟨entry, hplace, hown⟩
  · rw [hscene]
    exact hafter
  · intro run hrun
    rw [hruns] at hrun
    rw [hsame]
    exact h.runsPlaced run hrun
  · refine .running (p := next ((c.scene n).session.reply (c.thread (c.turn n)) action)) ?_ ?_
      ⟨l, Nat.lt_succ_of_lt hl, hentered⟩ ?_
    · rw [hscene]
      exact Function.update_self ..
    · rw [hruns]
      exact hbegun
    · rw [hscene]
      exact hnext

/-- A thread whose method has come to its end ends its run and reports. -/
theorem Staged.ends {place : ι → Option Env} (h : c.Staged Sure Stops Q n place)
    (hkeeps : c.MethodsKeep width Sure Stops Q) {entry : Env} {answer : Answer Word}
    (hplace : place (c.turn n) = some entry)
    (hprogram : (c.scene n).program (c.turn n) =
      (Session.closing entry (Answer.ending answer)).andThen Code.reported)
    (hbegun : entry ∈ (c.scene n).session.ledger.runs)
    (hentered : ∃ l, l < n ∧ c.Enters (c.turn n) l entry)
    (htrue : Truth Stops (Q (c.turn n) entry) (c.scene n).session answer) :
    ∃ place, c.Staged Sure Stops Q (n + 1) place := by
  obtain ⟨next, hclosing, hnext⟩ := Session.closing_reported entry answer
  rw [hclosing] at hprogram
  have hscene := (scene_succ (c := c) (n := n)).trans (after_act hprogram)
  have hreply : (c.scene n).session.reply (c.thread (c.turn n)) (.endRun entry answer) = answer :=
    Session.reply_endRun fun word hok => hkeeps.data _ entry word _ (by rwa [hok] at htrue)
  rw [hreply, hnext] at hscene
  obtain ⟨l, hl, hentered⟩ := hentered
  refine ⟨_, h.step hkeeps.toSureStays none ?_ ?_ ?_ ?_ (.inr fun _ => (nomatch ·))⟩
  · exact .inr ⟨c.thread (c.turn n), .endRun entry answer, hbegun, rfl,
      congrArg Scene.session hscene, .inr ⟨entry, hplace, rfl⟩⟩
  · rw [hscene]
    exact hkeeps.ends _ _ entry answer h.sure hbegun
  · intro run hrun
    rw [hscene] at hrun
    have hrun : run ∈ (c.scene n).session.ledger.runs.erase entry := hrun
    have hapart := (hkeeps.wellFormed _ h.sure).tallies.apart
    have hnodup : (c.scene n).session.ledger.runs.Nodup :=
      (List.Nodup.of_map _ hapart).sublist (List.sublist_append_left _ _)
    obtain ⟨hne, hold⟩ := hnodup.mem_erase_iff.1 hrun
    refine runsPlaced_elsewhere (h.runsPlaced run hold) ?_
    rw [hplace]
    exact fun heq => hne (Option.some.inj heq).symm
  · refine .finished ?_ ⟨entry, answer, l, n, hl, Nat.lt_succ_self n, hentered,
      ⟨rfl, next, hprogram⟩, rfl, htrue⟩
    rw [hscene]
    exact Function.update_self ..

/-- Each turn leaves all threads in their places. -/
theorem Staged.succ {place : ι → Option Env} (h : c.Staged Sure Stops Q n place)
    (hkeeps : c.MethodsKeep width Sure Stops Q) : ∃ place, c.Staged Sure Stops Q (n + 1) place := by
  have hstage := h.stage (c.turn n)
  generalize hplace : place (c.turn n) = mine at hstage
  cases hstage with
  | waiting program => exact h.begins hkeeps hplace program
  | finished program reports =>
    have hscene := (scene_succ (c := c) (n := n)).trans (after_over program)
    have hsame : Function.update place (c.turn n) none = place := by
      rw [← hplace]
      exact Function.update_eq_self _ _
    refine ⟨_, h.step hkeeps.toSureStays none (.inl (congrArg Scene.session hscene)) ?_ ?_
      (.finished ?_ reports.later) (.inl hplace.symm)⟩
    · rw [hscene]
      exact h.sure
    · rw [hscene, hsame]
      exact h.runsPlaced
    · rw [hscene]
      exact program
  | @running entry p program begun entered ensures =>
    cases p with
    | act action next => exact h.goesOn hkeeps.toSureStays hplace program begun entered ensures
    | done result =>
      obtain ⟨answer, rfl, htrue⟩ := ensures _ h.sure .refl
      exact h.ends hkeeps hplace program begun entered htrue

theorem MethodsKeep.staged (hkeeps : c.MethodsKeep width Sure Stops Q) (hstart : Sure c.start)
    (n : Nat) : ∃ place, c.Staged Sure Stops Q n place := by
  induction n with
  | zero =>
    exact ⟨fun _ => none, hstart, fun _ => .inl, fun _ => .waiting rfl, fun _ _ _ _ => (nomatch ·)⟩
  | succ n ih =>
    obtain ⟨place, hstaged⟩ := ih
    exact hstaged.succ hkeeps

/-- Whatever the schedule: what is reported is what was true. -/
theorem MethodsKeep.reports (hkeeps : c.MethodsKeep width Sure Stops Q) (hstart : Sure c.start)
    {outcome : Outcome} (hover : (c.scene n).program i = .done outcome) :
    c.Reports (fun entry answer s => Truth Stops (Q i entry) s answer) i n outcome := by
  obtain ⟨place, hstaged⟩ := hkeeps.staged hstart n
  have hstage := hstaged.stage i
  generalize place i = mine at hstage
  cases hstage with
  | waiting program =>
    rw [Code.outcome_eq, Session.ended_runMethod] at program
    cases program.symm.trans hover
  | @running entry p program begun entered ensures =>
    have hopen := program.symm.trans hover
    cases p with
    | act action next => cases hopen
    | done result => rcases result with (fault | _) | word <;> cases hopen
  | finished program reports =>
    obtain rfl := Program.done.inj (program.symm.trans hover)
    exact reports

end Crowd

end RootedHeap
