import RootedHeap.Proofs.Exhaustion
import RootedHeap.Proofs.RunEffects
import RootedHeap.Workload.Slots

/-!
What is left after a run: nothing. The code that runs a method puts the end of the run on every way
out of it, so a method that acts on its own stack and on those of runs of its own leaves all that
there was as it was. With no other run going on there are no roots after it, and the next collection
of mark and sweep, whatever went on before, takes back every cell that was handed out and not taken
back yet.
-/

namespace RootedHeap

/-- Segments are put together as one likes. -/
instance : LawfulMonad Program.Segment :=
  LawfulMonad.mk' _ (fun _ => rfl) (fun _ _ => rfl) (fun _ _ _ => rfl)

theorem Code.ended_bind {α β : Type} (x : Code α) (f : α → Code β) :
    (x >>= f).ended = x.ended.andThen fun
      | .ok a => (f a).ended
      | .error interrupt => .done (.error interrupt) := by
  refine (Program.Segment.program_bind (ExceptT.run x) (ExceptT.bindCont f)).trans ?_
  congr 1
  funext result
  cases result <;> rfl

/-- Code that is only attempted ends well, with how it would have ended. -/
theorem Code.ended_attempt {α : Type} (x : Code α) :
    x.attempt.ended = x.ended.andThen fun result => .done (.ok result) :=
  Program.Segment.followedBy_eq (ExceptT.run x) _

/-- The outcome of a method, as its code ends with it. -/
def Answer.ending : Answer Word → Except Interrupt Word
  | .ok word => .ok word
  | .error fault => .error (.fault fault)

namespace Session

variable {A : Type} [Allocator A] {α β : Type} {s s' : Session A} {t : Thread} {known : Nat}

/-! ### A program as moves of a session -/

/-- What a program of one thread results in, and the session after it. -/
def play (t : Thread) : Program α → Session A → α × Session A
  | .done result, s => (result, s)
  | .act action next, s => play t (next (s.reply t action)) (s.after t action)

/-- A session goes through the worlds that the program goes through. -/
theorem run_eq_play (t : Thread) (p : Program α) (s : Session A) :
    p.run t s.world = ((s.play t p).1, (s.play t p).2.world) := by
  induction p generalizing s with
  | done result => rfl
  | act action next ih => exact ih (s.reply t action) (s.after t action)

theorem play_andThen (t : Thread) (p : Program α) (f : α → Program β) (s : Session A) :
    s.play t (p.andThen f) = (s.play t p).2.play t (f (s.play t p).1) := by
  induction p generalizing s with
  | done result => rfl
  | act action next ih => exact ih (s.reply t action) (s.after t action)

/-- Code and what follows it: that gets the result, unless the code stopped early. -/
theorem play_bind (t : Thread) (x : Code α) (f : α → Code β) (s : Session A) :
    s.play t (x >>= f).ended =
      match (s.play t x.ended).1 with
      | .ok a => (s.play t x.ended).2.play t (f a).ended
      | .error interrupt => (.error interrupt, (s.play t x.ended).2) := by
  rw [Code.ended_bind, play_andThen]
  cases (s.play t x.ended).1 <;> rfl

/-- How code goes on with an answer: it stops at a fault. -/
def proceed (t : Thread) (f : α → Code β) (answer : Answer α) (s : Session A) :
    Except Interrupt β × Session A :=
  match answer with
  | .ok a => s.play t (f a).ended
  | .error fault => (.error (.fault fault), s)

/-- One operation and what follows it: that gets the answer, unless the operation is refused. -/
theorem play_operation (t : Thread) (action : Action) (answer : action.Reply → Answer α)
    (f : α → Code β) (s : Session A) :
    s.play t ((do Code.orStop (answer (← Code.ask action))) >>= f).ended =
      (s.after t action).proceed t f (answer (s.reply t action)) := by
  have hstop : ∀ (reply : Answer α) (s : Session A),
      s.play t (Code.orStop reply >>= f).ended = s.proceed t f reply := by
    intro reply s
    cases reply <;> rfl
  rw [← hstop]
  rfl

section Operations

variable {env : Env} {object target : Handle} {slot n : Nat} {word tag : Word}

theorem play_ask (action : Action) (f : action.Reply → Code α) :
    s.play t (Code.ask action >>= f).ended =
      (s.after t action).play t (f (s.reply t action)).ended := rfl

theorem play_newObject (f : Handle → Code α) :
    s.play t (Code.newObject env >>= f).ended =
      (s.after t (.newObject env)).proceed t f (s.reply t (.newObject env)) :=
  play_operation t (.newObject env) id f s

theorem play_getData (f : Word → Code α) :
    s.play t (Code.getData env object slot >>= f).ended =
      (s.after t (.getData env object slot)).proceed t f (s.reply t (.getData env object slot)) :=
  play_operation t (.getData env object slot) id f s

theorem play_getReference (f : Handle → Code α) :
    s.play t (Code.getReference env object slot >>= f).ended =
      (s.after t (.getReference env object slot)).proceed t f
        (s.reply t (.getReference env object slot)) :=
  play_operation t (.getReference env object slot) id f s

theorem play_release (f : Unit → Code α) :
    s.play t (Code.release env object >>= f).ended =
      (s.after t (.release env object)).proceed t f (s.reply t (.release env object)) :=
  play_operation t (.release env object) id f s

theorem play_setData (f : Unit → Code α) :
    s.play t (Code.setData env object slot word >>= f).ended =
      (s.after t (.setData env object slot word)).proceed t f
        (s.reply t (.setData env object slot word)) :=
  play_operation t (.setData env object slot word) id f s

theorem play_setReference (f : Unit → Code α) :
    s.play t (Code.setReference env object slot target >>= f).ended =
      (s.after t (.setReference env object slot target)).proceed t f
        (s.reply t (.setReference env object slot target)) :=
  play_operation t (.setReference env object slot target) id f s

theorem play_tagBelow {below : Word} (hbelow : tag.below? n = some below) (f : Word → Code α) :
    s.play t (Workload.tagBelow tag n >>= f).ended = s.play t (f below).ended := by
  rw [Workload.tagBelow, hbelow]
  rfl

end Operations

/-- Whether a program keeps within the rules and off the first so many stacks. -/
def keepsOff (known : Nat) (t : Thread) : Program α → Session A → Prop
  | .done _, _ => True
  | .act action next, s => s.ledger.permits action ∧ known ≤ action.stack s.calls ∧
    keepsOff known t (next (s.reply t action)) (s.after t action)

instance decidableKeepsOff (known : Nat) (t : Thread) :
    (p : Program α) → (s : Session A) → Decidable (s.keepsOff known t p)
  | .done _, _ => isTrue trivial
  | .act action next, s =>
    haveI := decidableKeepsOff known t (next (s.reply t action)) (s.after t action)
    inferInstanceAs (Decidable (s.ledger.permits action ∧ known ≤ action.stack s.calls ∧
      keepsOff known t (next (s.reply t action)) (s.after t action)))

theorem newStackMoves_of_keepsOff {p : Program α} {s₀ : Session A}
    (hmoves : NewStackMoves known s₀ s)
    (hkeeps : s.keepsOff known t p) : NewStackMoves known s₀ (s.play t p).2 := by
  induction p generalizing s with
  | done result => exact hmoves
  | act action next ih =>
    obtain ⟨hpermits, hoff, hkeeps⟩ := hkeeps
    exact ih _ (hmoves.move t action hpermits hoff) hkeeps

/-- Whether a method, run on a stack of its own, acts through its own environments and those of runs
that it began, and has ended these runs when it is over. -/
structure Contains (s : Session A) (t : Thread) (method : Method) (args : List Word) : Prop where
  keeps : ∀ entry, s.reply t (.beginRun method.name args) = .ok entry →
    (s.after t (.beginRun method.name args)).keepsOff s.calls.known.size t
      (method.body entry args).ended
  joined : ∀ entry, s.reply t (.beginRun method.name args) = .ok entry →
    ((s.after t (.beginRun method.name args)).play t (method.body entry args).ended).2.ledger.runs =
      (s.after t (.beginRun method.name args)).ledger.runs

/-- How the code that runs a method goes on after the method. -/
def closing (entry : Env) : Except Interrupt Word → Program (Except Interrupt Word)
  | .ok word => .act (.endRun entry (.ok word)) fun
    | .ok result => .done (.ok result)
    | .error fault => .done (.error (.fault fault))
  | .error (.fault fault) => .act (.endRun entry (.error fault)) fun
    | .ok _ => .done (.error (.fault fault))
    | .error fault' => .done (.error (.fault fault'))
  | .error .panic => .act (.abandonRun entry) fun _ => .done (.error .panic)

/-- The code that runs a method: the run begins, the method goes its way, and the run is ended on
every way out. -/
theorem ended_runMethod (method : Method) (args : List Word) :
    (Code.runMethod method args).ended =
      .act (.beginRun method.name args) fun
        | .ok entry => (method.body entry args).ended.andThen (closing entry)
        | .error fault => .done (.error (.fault fault)) := by
  show Program.act _ _ = _
  congr 1
  funext reply
  cases reply with
  | error fault => rfl
  | ok entry =>
    refine Eq.trans ?_ (Program.Segment.followedBy_eq (method.body entry args).run (closing entry))
    show (method.body entry args).run.followedBy _ = _
    congr 1
    funext outcome
    rcases outcome with (fault | _) | word
    · show Program.act _ _ = Program.act _ _
      congr 1
      funext reply
      cases reply <;> rfl
    · rfl
    · show Program.act _ _ = Program.act _ _
      congr 1
      funext reply
      cases reply <;> rfl

/-- How the code that calls a method goes on after the method. -/
def concluding (caller callee : Env) : Except Interrupt Word → Program (Except Interrupt Word)
  | .ok word => .act (.endCall caller callee (.ok word)) fun reply => .done (Answer.ending reply)
  | .error (.fault fault) =>
    .act (.endCall caller callee (.error fault)) fun reply => .done (Answer.ending reply)
  | .error .panic => .act (.abandonCall callee) fun _ => .done (.error .panic)

/-- The code that calls a method: the call begins, the method goes its way, and the call is ended on
every way out. -/
theorem ended_call (caller : Env) (method : Method) (args : List Word) :
    (Code.call caller method args).ended =
      .act (.beginCall caller method.name args) fun
        | .ok callee => (method.body callee args).ended.andThen (concluding caller callee)
        | .error fault => .done (.error (.fault fault)) := by
  change Program.act _ _ = _
  congr 1
  funext reply
  cases reply with
  | error fault => rfl
  | ok callee =>
    refine Eq.trans ?_
      (Program.Segment.followedBy_eq (method.body callee args).run (concluding caller callee))
    change (method.body callee args).run.followedBy _ = _
    congr 1
    funext outcome
    rcases outcome with (fault | _) | word
    · change Program.act _ _ = Program.act _ _
      congr 1
      funext reply
      cases reply <;> rfl
    · rfl
    · change Program.act _ _ = Program.act _ _
      congr 1
      funext reply
      cases reply <;> rfl

theorem play_closing (t : Thread) (entry : Env) (result : Except Interrupt Word) (s : Session A) :
    (∃ outcome, (s.play t (closing entry result)).2 = s.after t (.endRun entry outcome)) ∨
      (s.play t (closing entry result)).2 = s.after t (.abandonRun entry) := by
  rcases result with (fault | _) | word
  · refine .inl ⟨.error fault, ?_⟩
    rw [closing, play]
    cases s.reply t (.endRun entry (.error fault)) <;> rfl
  · exact .inr rfl
  · refine .inl ⟨.ok word, ?_⟩
    rw [closing, play]
    cases s.reply t (.endRun entry (.ok word)) <;> rfl

/-- A run of a method that acts on stacks of its own is one of the ways in which a run can go,
whether it returns or panics, with whatever result. -/
theorem completes_of_contains {method : Method} {args : List Word}
    (hcontains : s.Contains t method args) :
    Completes s (s.play t (Code.runMethod method args).ended).2 := by
  rw [ended_runMethod, play]
  cases hreply : s.reply t (.beginRun method.name args) with
  | error fault => exact .rejected t method.name args hreply
  | ok entry =>
    have hmoves := newStackMoves_of_keepsOff .start (hcontains.keeps entry hreply)
    have hjoined := hcontains.joined entry hreply
    dsimp only
    rw [play_andThen]
    rcases play_closing t entry
      (play t (method.body entry args).ended (s.after t (.beginRun method.name args))).1
      (play t (method.body entry args).ended (s.after t (.beginRun method.name args))).2 with
      ⟨outcome, hended⟩ | hpanicked
    · rw [hended]
      exact .ended t method.name args hreply hmoves hjoined outcome
    · rw [hpanicked]
      exact .panicked t method.name args hreply hmoves hjoined

end Session

/-! ### The books of mark and sweep in every session -/

namespace MarkSweep

variable {m : MarkSweep} {heap : Heap} {h : Handle} {t : Thread} {calls : CallStacks}
  {a : Arena MarkSweep}

theorem not_heldBy_close {g : Gate} (hg : g.lets t = false) : (g.close t).heldBy t = false := by
  unfold Gate.lets at hg
  split at hg
  · cases hg
  · rename_i holder hholder
    simp only [Gate.close, hholder, Gate.heldBy, Option.some.injEq, hg]

/-- A collection that the gate does not let through finds no roots, and changes nothing in the
books. -/
theorem collect_of_not_lets (calls : CallStacks) (hm : a.allocator.Balanced a.heap.size)
    (hgate : a.gate.lets t = false) :
    (collect t calls a).2.allocator = a.allocator ∧ (collect t calls a).2.heap = a.heap := by
  obtain ⟨binding, hbinding⟩ := Option.isSome_iff_exists.1 hm.bound
  have hheld := not_heldBy_close hgate
  unfold collect
  simp only [hbinding, Arena.stop, Arena.enumerate, hheld, Bool.false_eq_true, ↓reduceIte, cycle,
    Arena.resume, Arena.withAllocator, Gate.resume?, Arena.note, and_true]
  rw [← hm.idle, ← hbinding]

/-- The books stay in balance through any collection. -/
theorem collect_balanced (calls : CallStacks) (hm : a.allocator.Balanced a.heap.size) :
    (collect t calls a).2.allocator.Balanced a.heap.size ∧ (collect t calls a).2.heap = a.heap := by
  cases hgate : a.gate.lets t with
  | true => exact collect_keeps calls hm hgate
  | false =>
    obtain ⟨hallocator, hheap⟩ := collect_of_not_lets calls hm hgate
    rw [hallocator]
    exact ⟨hm, hheap⟩

/-- The books stay in balance through any request. -/
theorem allocate_balanced (calls : CallStacks) (hm : a.allocator.Balanced a.heap.size) :
    (allocate t calls a).2.allocator.Balanced a.heap.size ∧
      (allocate t calls a).2.heap.size = a.heap.size := by
  cases hgate : a.gate.lets t with
  | true => exact allocate_keeps calls hm fun _ => hgate
  | false =>
    obtain ⟨hcollected, hheap⟩ := collect_balanced (t := t) calls hm
    obtain ⟨binding, hbinding⟩ := Option.isSome_iff_exists.1 hm.bound
    unfold allocate
    rw [hbinding]
    dsimp only
    split
    · rcases hcollect : collect t calls a with ⟨fault | found, a'⟩
      · rw [hcollect] at hcollected hheap
        exact ⟨hcollected, congrArg Heap.size hheap⟩
      · rw [hcollect] at hcollected hheap
        dsimp only at hcollected hheap ⊢
        rw [← hheap] at hcollected ⊢
        exact take_keeps hcollected
    · exact take_keeps hm

/-- Without roots a collection takes back all that was handed out, and all cells are free. -/
theorem collected_nil (hm : m.Balanced heap.size) :
    (∀ h, h ∈ (m.collected heap []).free ↔ heap.contains h = true) ∧
      (m.found heap []).reclaimed = m.stats.allocations - m.stats.reclaimed ∧
      (m.collected heap []).free.length = heap.size - 1 := by
  have hcollected := hm.collected []
  have hmem : ∀ h, h ∈ (m.collected heap []).free ↔ heap.contains h = true := by
    intro h
    have hfree : h ∈ (m.collected heap []).free ↔
        h ∈ m.free ∨ h ∈ (m.mark heap []).dead heap := mem_free_sweep
    have hunmarked : (m.mark heap []).marks.has h = false := by
      rw [mark, Heap.mark]
      exact Marks.has_none
    rw [hfree, mem_dead_iff]
    constructor
    · rintro (hfree | ⟨hcell, -, -⟩)
      · obtain ⟨h0, hlt, -⟩ := (hm.free_iff h).1 hfree
        exact Heap.contains_iff.2 ⟨h0, hlt⟩
      · exact hcell
    · intro hcell
      obtain ⟨h0, hlt⟩ := Heap.contains_iff.1 hcell
      cases hflag : m.hasAllocated h with
      | false => exact .inl ((hm.free_iff h).2 ⟨h0, hlt, hflag⟩)
      | true => exact .inr ⟨hcell, hflag, hunmarked⟩
  have hall : heap.handles ⊆ (m.collected heap []).free := fun h hh =>
    (hmem h).2 (Heap.mem_handles_iff.1 hh)
  have hnodup : heap.handles.Nodup := List.nodup_range'
  have hge : heap.size - 1 ≤ (m.collected heap []).free.length :=
    List.length_range'.symm.trans_le (List.subperm_of_subset hnodup hall).length_le
  have hle := hcollected.toFits.length_free_le
  have hlength : (m.collected heap []).free.length = heap.size - 1 :=
    Nat.le_antisymm hle hge
  refine ⟨hmem, ?_, hlength⟩
  have hbalance := hm.balance
  have hfound : (m.collected heap []).free.length =
      m.free.length + (m.found heap []).reclaimed := length_free_collected []
  omega

end MarkSweep

namespace Session

section Shape

variable {A : Type} [Allocator A] {s : Session A} {t : Thread} {action : Action}

/-- Without the allocator no action changes the shape of the heap. -/
theorem shape_after_of_quiet (hquiet : action.allocates = false) :
    s.machine.heap.SameShape (s.after t action).machine.heap := by
  have hsame : ∀ {m : Machine A}, m.heap = s.machine.heap → s.machine.heap.SameShape m.heap :=
    fun heq => heq ▸ .refl
  have hput : ∀ {α : Type} {check : Answer Word} {answer : Word → α} {object : Handle} {slot : Nat},
      s.machine.heap.SameShape (s.machine.decided check answer fun word =>
        s.machine.putWord object slot word).2.heap :=
    Machine.decided_keeps (P := fun m => s.machine.heap.SameShape m.heap) .refl fun _ _ => .putWord
  cases action with
  | newObject env => cases hquiet
  | collect => cases hquiet
  | getReference env object slot => exact hsame Machine.SameArena.getReference.heap
  | getData env object slot => exact hsame Machine.SameArena.getData.heap
  | release env object => exact hsame Machine.SameArena.release.heap
  | beginCall env name args => exact hsame Machine.SameArena.beginCall.heap
  | endCall caller callee outcome => exact hsame Machine.SameArena.endCall.heap
  | beginRun name args => exact hsame Machine.SameArena.beginRun.heap
  | endRun entry outcome => exact hsame Machine.SameArena.endRun.heap
  | setReference env object slot target =>
    show s.machine.heap.SameShape (s.machine.setReference t env object slot target).2.heap
    rw [Machine.setReference_eq]
    exact hput
  | setData env object slot word =>
    show s.machine.heap.SameShape (s.machine.setData t env object slot word).2.heap
    rw [Machine.setData_eq]
    exact hput
  | resume =>
    show s.machine.heap.SameShape (s.machine.toArena.resume t).heap
    unfold Arena.resume
    split <;> exact .refl
  | cell h command =>
    cases hperform : s.world.machine.heap.perform h command with
    | error fault =>
      simp only [after, machine, World.perform, World.onMachine, hperform]
      exact .refl
    | ok answered =>
      simp only [after, machine, World.perform, World.onMachine, hperform]
      exact .perform hperform
  | _ => exact .refl

end Shape

variable {first : Thread} {heap : Heap} {maxPause : Duration} {clock : Nat → Duration}
  {config : MachineConfig} {start : Machine MarkSweep} {past : List Move} {s : Session MarkSweep}
  {t : Thread} {action : Action}

/-- The books stay in balance whatever is done, within the rules of frames or past them. -/
theorem balanced_after_any (t : Thread) (action : Action)
    (hm : s.machine.allocator.Balanced s.machine.heap.size) :
    (s.after t action).machine.allocator.Balanced (s.after t action).machine.heap.size := by
  cases hquiet : action.allocates with
  | false =>
    have hsame : (s.after t action).machine.allocator = s.machine.allocator :=
      World.allocator_perform hquiet
    rw [hsame, (shape_after_of_quiet hquiet).size]
    exact hm
  | true =>
    cases action with
    | collect =>
      obtain ⟨hcollected, hheap⟩ := MarkSweep.collect_balanced (t := t) s.calls hm
      show MarkSweep.Balanced (MarkSweep.collect t s.calls s.machine.toArena).2.allocator
        (MarkSweep.collect t s.calls s.machine.toArena).2.heap.size
      rw [hheap]
      exact hcollected
    | newObject env =>
      obtain ⟨hallocated, hsize⟩ := MarkSweep.allocate_balanced (t := t) s.calls hm
      rw [← hsize] at hallocated
      exact newObject_keeps (P := fun (m : MarkSweep) heap => m.Balanced heap.size) hm hallocated
    | _ => cases hquiet

/-- In every session over mark and sweep the books are in balance. -/
theorem Ran.balanced_any
    (hbuild : Machine.build first heap { MarkSweep.fresh maxPause with clock } config = .ok start)
    (hran : Ran start past s) : s.machine.allocator.Balanced s.machine.heap.size := by
  induction hran with
  | opening => exact balanced_of_build hbuild
  | move _ t action _ ih => exact balanced_after_any t action ih

/-- What the next collection comes to when no stack is registered: it takes back all that was handed
out and not taken back, and all cells are free. -/
structure Emptied (s : Session MarkSweep) (t : Thread) : Prop where
  answer : (s.machine.collect t).1 =
    .ok (s.machine.allocator.stats.allocations - s.machine.allocator.stats.reclaimed)
  freeCells : (s.machine.collect t).2.allocator.freeCells = s.machine.heap.size - 1
  free : ∀ h, h ∈ (s.machine.collect t).2.allocator.free ↔ s.machine.heap.contains h = true

theorem emptied_of_balanced (hm : s.machine.allocator.Balanced s.machine.heap.size)
    (hnone : s.calls.registered = []) (hgate : s.machine.gate.lets t = true) : s.Emptied t := by
  have hroots : s.machine.calls.roots = [] := by
    have hnone : s.machine.calls.registered = [] := hnone
    rw [CallStacks.roots, hnone]
    rfl
  obtain ⟨hfree, hreclaimed, hlength⟩ := MarkSweep.collected_nil hm
  have hcollect : s.machine.collect t =
      ((MarkSweep.collect t s.machine.calls s.machine.toArena).1,
        { s.machine with
          toArena := (MarkSweep.collect t s.machine.calls s.machine.toArena).2 }) := rfl
  have heq := MarkSweep.collect_eq t s.machine.calls hm.bound hgate
  rw [hroots] at heq
  have hallocator : (s.machine.collect t).2.allocator =
      s.machine.allocator.collected s.machine.heap [] := by
    rw [hcollect, heq]
    exact MarkSweep.allocator_report
  refine ⟨?_, ?_, fun h => ?_⟩
  · rw [hcollect, heq, ← hreclaimed]
  · rw [MarkSweep.freeCells, hallocator, hlength]
  · rw [hallocator, hfree]

/-- In every session, whatever the allocator: a run leaves all stacks and frames that there were,
and with them the roots, as they were, on every way out of it; and the code that runs a method is
such a run. Over mark and sweep, if no other run is going on, the next collection that the gate
lets through takes back all that is left. -/
theorem leaves_no_roots :
    (∀ (A : Type) [Allocator A] (first : Thread) (heap : Heap) (allocator : A)
      (config : MachineConfig) (start : Machine A) (past : List Move) (s : Session A),
      Machine.build first heap allocator config = .ok start → Ran start past s →
        (∀ s', Completes s s' → Restored s s') ∧
          ∀ t method args, s.Contains t method args →
            ∃ s', Completes s s' ∧
              ((Code.runMethod method args).ended.run t s.world).2 = s'.world) ∧
    ∀ (first : Thread) (heap : Heap) (maxPause : Duration) (clock : Nat → Duration)
      (config : MachineConfig) (start : Machine MarkSweep) (past : List Move)
      (s : Session MarkSweep),
      Machine.build first heap { MarkSweep.fresh maxPause with clock } config = .ok start →
        Ran start past s → s.calls.registered = [] → ∀ s', Completes s s' →
          ∀ t, s'.machine.gate.lets t = true → s'.Emptied t := by
  constructor
  · intro A _ first heap allocator config start past s hbuild hran
    refine ⟨fun s' hcompletes => hcompletes.restored (calls_of_build hbuild) hran,
      fun t method args hcontains => ⟨_, completes_of_contains hcontains, ?_⟩⟩
    rw [run_eq_play]
  · intro first heap maxPause clock config start past s hbuild hran hnone s' hcompletes t hgate
    obtain ⟨moves, hcourse⟩ := hcompletes.course
    have hrestored := hcompletes.restored (calls_of_build hbuild) hran
    exact emptied_of_balanced ((hran.course hcourse).balanced_any hbuild)
      (hrestored.registered.trans hnone) hgate

/-- A method that makes an object, hands it to a callee that makes another, and begins a run of its
own whose method makes a third and panics. -/
def reckless : Method where
  name := "reckless"
  body env _ := do
    let h ← Code.newObject env
    let _ ← Code.call env
      ⟨"callee", fun callee _ => do return Handle.toWord (← Code.newObject callee)⟩
      [Handle.toWord h]
    Code.runMethod
      ⟨"nested", fun entry _ => do
        let _ ← Code.newObject entry
        throw .panic⟩ []

/-- Whether the gate lets thread 0 through, and how many cells were handed out and taken back. -/
def aftermath (m : Machine MarkSweep) : Bool × Nat × Nat :=
  (m.gate.lets 0, m.allocator.stats.allocations, m.allocator.stats.reclaimed)

/-- What is said of all sessions, said of one in which a run has left an object behind, and of the
run of a method that leaves three more behind when it panics: a collection takes back all four. -/
theorem leaves_no_roots_reckless :
    ∃ (start : Machine MarkSweep) (past : List Move) (s s' : Session MarkSweep),
      Machine.build Thread.first (.ofSize 6 1)
          { MarkSweep.fresh .zero with clock := fun _ => .zero } .standard = .ok start ∧
        Ran start past s ∧ s.Contains 0 reckless [] ∧ Completes s s' ∧
        s'.world = ((Code.runMethod reckless []).ended.run 0 s.world).2 ∧ Restored s s' ∧
        s'.Emptied 0 ∧ (s'.machine.collect 0).1 = .ok 4 := by
  have hseen : watched .standard (.ofSize 6 1)
      { MarkSweep.fresh .zero with clock := fun _ => .zero }
      [(0, .beginRun "first" []), (0, .newObject ⟨0, 0⟩), (0, .endRun ⟨0, 0⟩ (.ok 0))]
      []
      (fun (_, s) _ =>
        let begun := s.after 0 (.beginRun "reckless" [])
        ((s.calls.registered, s.calls.known.size, s.calls.frames.size),
          decide (begun.keepsOff 1 0 (reckless.body ⟨1, 1⟩ []).ended),
          decide ((begun.play 0 (reckless.body ⟨1, 1⟩ []).ended).2.ledger.runs =
            begun.ledger.runs),
          aftermath ((Code.runMethod reckless []).ended.run 0 s.world).2.machine)) =
        some (([], 1, 1), true, true, true, 4, 0) := by
    decide +kernel
  obtain ⟨start, past, s, -, -, hbuild, hran, -, hsight⟩ := exists_course_of_watched hseen
  obtain ⟨⟨hnone, hknown, hframes⟩, hkeeps, hjoined, hafter⟩ := by
    simpa only [Prod.mk.injEq, decide_eq_true_eq] using hsight
  have hreply : s.reply 0 (.beginRun reckless.name []) = .ok ⟨1, 1⟩ := by
    rw [reply_beginRun, hknown, hframes]
    rfl
  have hcontains : s.Contains 0 reckless [] := by
    constructor
    · intro entry hbegun
      obtain rfl := Except.ok.inj (hreply.symm.trans hbegun)
      exact hknown ▸ hkeeps
    · intro entry hbegun
      obtain rfl := Except.ok.inj (hreply.symm.trans hbegun)
      exact hjoined
  obtain ⟨hruns, hemptied⟩ := leaves_no_roots
  obtain ⟨hrestored, hcode⟩ := hruns MarkSweep Thread.first _ _ _ start past s hbuild hran
  obtain ⟨s', hcompletes, hworld⟩ := hcode 0 reckless [] hcontains
  rw [hworld] at hafter
  obtain ⟨hgate, hallocations, hreclaimed⟩ := by
    simpa only [aftermath, Prod.mk.injEq] using hafter
  have hempty : s'.Emptied 0 :=
    hemptied Thread.first _ _ _ _ start past s hbuild hran hnone s' hcompletes 0 hgate
  refine ⟨start, past, s, s', hbuild, hran, hcontains, hcompletes, hworld.symm,
    hrestored s' hcompletes, hempty, hempty.answer.trans ?_⟩
  rw [machine, hallocations, hreclaimed]

end Session

end RootedHeap
