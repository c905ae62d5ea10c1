import Mathlib.Algebra.Module.Submodule.Lattice
import Mathlib.Data.List.Permutation
import RootedHeap.Proofs.Tallies

/-!
No dangling and no double use. In a session without a stop left in force, without writes past the
frames and without runs that were cut off, everything that a frame holds is a root, and everything
that the roots reach is a cell that the allocator counts as handed out. Every action keeps this:
what it brings to a frame is new or was in reach, what it writes was in reach, and a collection
takes back only what is out of reach.

`Sound.newObject` and `Sound.step` are the step lemmas, `Ran.sound` is the run lemma, and
`Session.Safe` says what a program may rely on.
-/

namespace RootedHeap

/-! ### What frames hold -/

namespace Ledger

variable {l l' : Ledger} {t t' : CallStacks} {gain : List Handle} {f : FrameRef} {h : Handle}

/-- What a frame holds after a step was held by some frame before, or the step brought it in. -/
theorem Step.held (hstep : l.Step t gain l' t') (ht : l.Tallies t)
    (hh : h ∈ (t'.frame f).handles) : h ∈ gain ∨ ∃ g, h ∈ (t.frame g).handles := by
  -- popping takes handles away and brings none
  have hpop : ∀ {t : CallStacks} {s : StackRef} {c : FrameRef},
      h ∈ ((t.pop s c).frame f).handles → h ∈ (t.frame f).handles := by
    intro t s c hmem
    rw [CallStacks.frame_pop] at hmem
    split at hmem
    · cases hmem
    · exact hmem
  cases hstep with
  | idle => exact .inr ⟨f, hh⟩
  | hold known active =>
    rw [CallStacks.frame_change (CallStacks.lt_size_of_active active)] at hh
    split at hh
    · rcases Frame.mem_handles_insert.1 hh with rfl | hold
      · exact .inl (List.mem_singleton.2 rfl)
      · exact .inr ⟨f, hold⟩
    · exact .inr ⟨f, hh⟩
  | release known active =>
    rw [CallStacks.frame_change (CallStacks.lt_size_of_active active)] at hh
    split at hh
    · exact .inr ⟨f, Frame.mem_of_mem_handles_remove hh⟩
    · exact .inr ⟨f, hh⟩
  | @beginCall caller objects known active handed =>
    rw [CallStacks.frame_opened] at hh
    split at hh
    · rcases Frame.mem_handles_foldl_insert.1 hh with hmem | hmem
      · exact .inr ⟨caller.frame, handed h hmem⟩
      · cases hmem
    · exact .inr ⟨f, hh⟩
  | @endCall caller callee result pending returned =>
    obtain ⟨hcallee, -, hlt, -⟩ := ht.nested caller callee pending
    have hsize := ht.lt_size hcallee
    replace hh := hpop hh
    rcases result with fault | word
    · exact .inr ⟨f, hh⟩
    · rw [CallStacks.frame_settled (Nat.lt_trans hlt hsize) hsize (Nat.ne_of_lt hlt)] at hh
      split at hh
      · exact .inr ⟨f, hh⟩
      · split at hh
        · cases hword : word.target? with
          | none =>
            rw [hword] at hh
            exact .inr ⟨f, hh⟩
          | some o =>
            rw [hword] at hh
            rcases Frame.mem_handles_insert.1 hh with rfl | hold
            · exact .inr ⟨callee.frame, returned word h rfl hword⟩
            · exact .inr ⟨f, hold⟩
        · exact .inr ⟨f, hh⟩
  | abandonCall pending => exact .inr ⟨f, hpop hh⟩
  | beginRun =>
    rw [CallStacks.frame_opened] at hh
    split at hh
    · cases hh
    · exact .inr ⟨f, hh⟩
  | endRun begun => exact .inr ⟨f, hpop hh⟩
  | abandonRun begun => exact .inr ⟨f, hh⟩

/-- Without runs that were cut off, what a frame holds is a root. -/
theorem Tallies.mem_roots (ht : l.Tallies t) (hunbroken : l.broken = [])
    (hh : h ∈ (t.frame f).handles) : h ∈ t.roots := by
  obtain ⟨env, henv, rfl, hon⟩ := ht.exists_env (ht.active_of_held hh)
  obtain ⟨entry, hentry, heq⟩ := ht.owned _ _ hon
  rw [entries, hunbroken, List.append_nil] at hentry
  exact CallStacks.mem_roots_iff.2
    ⟨env.stack, (ht.registered _).2 ⟨entry, hentry, heq⟩, env.frame, hon, hh⟩

theorem mem_handles_of_mem_roots (hh : h ∈ t.roots) : ∃ f, h ∈ (t.frame f).handles := by
  obtain ⟨-, -, f, -, hmem⟩ := CallStacks.mem_roots_iff.1 hh
  exact ⟨f, hmem⟩

/-- The roots after a step were roots before, or the step brought them in. -/
theorem Step.roots (hstep : l.Step t gain l' t') (ht : l.Tallies t) (hunbroken : l.broken = []) :
    ∀ r ∈ t'.roots, r ∈ gain ∨ r ∈ t.roots := by
  intro r hr
  obtain ⟨f, hf⟩ := mem_handles_of_mem_roots hr
  rcases hstep.held ht hf with hgain | ⟨g, hg⟩
  · exact .inl hgain
  · exact .inr (ht.mem_roots hunbroken hg)

end Ledger

/-! ### Sound sessions -/

/-- Whether an action is one of a program that behaves: it leaves no stop in force, goes to cells
through frames only, and does not panic out of a run. -/
def Action.orderly : Action → Bool
  | .stop | .resume | .cell .. | .abandonRun _ => false
  | _ => true

/-- Whether an action asks the allocator for something. -/
def Action.allocates : Action → Bool
  | .newObject _ | .collect => true
  | _ => false

/-- An action that does not ask the allocator is none of its books' business. -/
theorem World.allocator_perform {A : Type} [Allocator A] {w : World A} {t : Thread}
    {action : Action} (haction : action.allocates = false) :
    (w.perform t action).2.machine.allocator = w.machine.allocator := by
  let P : Machine A → Prop := fun m => m.allocator = w.machine.allocator
  cases action with
  | newObject env => cases haction
  | collect => cases haction
  | getReference env object slot => exact Machine.SameArena.getReference.allocator
  | getData env object slot => exact Machine.SameArena.getData.allocator
  | release env object => exact Machine.SameArena.release.allocator
  | beginCall caller name args => exact Machine.SameArena.beginCall.allocator
  | endCall caller callee outcome => exact Machine.SameArena.endCall.allocator
  | beginRun name args => exact Machine.SameArena.beginRun.allocator
  | endRun entry outcome => exact Machine.SameArena.endRun.allocator
  | setReference env object slot target =>
    show P (w.machine.setReference t env object slot target).2
    rw [Machine.setReference_eq]
    exact Machine.decided_keeps rfl fun _ _ => rfl
  | setData env object slot word =>
    show P (w.machine.setData t env object slot word).2
    rw [Machine.setData_eq]
    exact Machine.decided_keeps rfl fun _ _ => rfl
  | resume =>
    show (w.machine.toArena.resume t).allocator = _
    unfold Arena.resume
    split <;> rfl
  | cell h command =>
    cases hperform : w.machine.heap.perform h command with
    | error fault => simp only [World.perform, World.onMachine, hperform]
    | ok answered => simp only [World.perform, World.onMachine, hperform]
  | _ => rfl

namespace Arena

variable {A : Type} [Allocator A] [Collector A] {a a' : Arena A} {calls calls' : CallStacks}

/-- An arena stays ready when nothing but its log changes and all new roots were in reach. -/
theorem Ready.of_reached (ha : a.Ready calls) (hallocator : a'.allocator = a.allocator)
    (hheap : a'.heap = a.heap) (hgate : a'.gate = a.gate)
    (hroots : ∀ r ∈ calls'.roots, a.heap.Reaches calls.roots r) : a'.Ready calls' := by
  refine ⟨?_, fun h hh => ?_, ?_⟩
  · rw [hallocator, hheap]
    exact ha.fits
  · rw [hallocator]
    rw [hheap] at hh
    exact ha.live h (Heap.Reaches.of_closed hroots (fun _ _ => .link) hh)
  · rw [hgate]
    exact ha.unheld

/-- An arena stays ready when a word is written that is data, null, or names what was in reach. -/
theorem Ready.putWord (ha : a.Ready calls) {object : Handle} {slot : Nat} {word : Word}
    (htarget : ∀ target, word.target? = some target → a.heap.Reaches calls.roots target) :
    { a with heap := a.heap.putWord object slot word }.Ready calls := by
  refine ⟨?_, fun h hh => ?_, ha.unheld⟩
  · show Collector.Fits a.allocator (a.heap.putWord object slot word).size
    rw [Heap.size_putWord]
    exact ha.fits
  · exact ha.live h (Heap.Reaches.of_putWord (fun r hr => .root hr) htarget hh)

end Arena

namespace Machine

variable {A : Type} [Allocator A] [Collector A]

/-- What a request of a frame for an object may come to. -/
inductive Creation (m : Machine A) (env : Env) : Answer Handle × Machine A → Prop
  | refused (inactive : (m.frame env).state ≠ .active) :
    Creation m env (.error (.inactiveFrame (m.frame env).depth), m)
  | exhausted {m' : Machine A} (active : (m.frame env).state = .active)
      (calls : m'.calls = m.calls) (config : m'.config = m.config) (heap : m'.heap = m.heap)
      (ready : m'.toArena.Ready m'.calls) :
    Creation m env (.error .outOfMemory, m')
  | made {h : Handle} {m' : Machine A} (active : (m.frame env).state = .active)
      (cell : m.heap.contains h = true) (unreached : ¬ m.heap.Reaches m.calls.roots h)
      (calls : m'.calls = m.calls.change env.frame (·.insert h)) (config : m'.config = m.config)
      (heap : m'.heap = m.heap.clear h) (ready : m'.toArena.Ready m'.calls) :
    Creation m env (.ok h, m')

end Machine

namespace CallStacks

/-- A frame that comes to hold an object adds no other root. -/
theorem mem_roots_hold {t : CallStacks} {f : FrameRef} {h r : Handle} (hf : f < t.frames.size)
    (hr : r ∈ (t.change f (·.insert h)).roots) : r = h ∨ r ∈ t.roots := by
  obtain ⟨k, hk, g, hg, hmem⟩ := mem_roots_iff.1 hr
  rw [frame_change hf] at hmem
  split at hmem
  · exact (Frame.mem_handles_insert.1 hmem).imp_right fun hold =>
      mem_roots_iff.2 ⟨k, hk, g, hg, hold⟩
  · exact .inr (mem_roots_iff.2 ⟨k, hk, g, hg, hmem⟩)

end CallStacks

namespace Heap

variable {heap : Heap}

def after (heap : Heap) : (action : Action) → action.Reply → Heap
  | .newObject _, .ok h => heap.clear h
  | .setReference _ object slot target, .ok _ => heap.putWord object slot target.toWord
  | .setData _ object slot word, .ok _ => heap.putWord object slot word
  | _, _ => heap

/-- An answered action leaves the heap as it was, clears a cell, or puts a word somewhere. -/
theorem after_cases {P : Heap → Prop} (hsame : P heap) (hclear : ∀ h, P (heap.clear h))
    (hput : ∀ o k word, P (heap.putWord o k word)) (action : Action) (reply : action.Reply) :
    P (heap.after action reply) := by
  cases action with
  | newObject env =>
    cases reply with
    | error fault => exact hsame
    | ok h => exact hclear h
  | setReference env o k target =>
    cases reply with
    | error fault => exact hsame
    | ok _ => exact hput o k target.toWord
  | setData env o k word =>
    cases reply with
    | error fault => exact hsame
    | ok _ => exact hput o k word
  | _ => exact hsame

theorem size_after {action : Action} {reply : action.Reply} :
    (heap.after action reply).size = heap.size :=
  after_cases (P := fun heap' => heap'.size = heap.size) rfl (fun _ => size_clear)
    (fun _ _ _ => size_putWord) action reply

theorem contains_after {action : Action} {reply : action.Reply} {h : Handle} :
    (heap.after action reply).contains h = heap.contains h := by
  rw [contains, contains, size_after]

theorem length_words_after {action : Action} {reply : action.Reply} {h : Handle} :
    ((heap.after action reply).words h).length = (heap.words h).length :=
  after_cases (P := fun heap' => (heap'.words h).length = (heap.words h).length) rfl
    (fun _ => length_words_clear) (fun _ _ _ => length_words_putWord) action reply

end Heap

namespace Session

variable {A : Type} [Allocator A] [LawfulCollector A]

/-- A session on a machine that is safe to go on with. -/
structure Sound (s : Session A) : Prop where
  tallies : s.ledger.Tallies s.calls
  unbroken : s.ledger.broken = []
  ready : s.machine.toArena.Ready s.calls

namespace Sound

variable {s : Session A} {t : Thread} {env : Env}

/-- What a frame holds is a root. -/
theorem mem_roots (hs : s.Sound) {f : FrameRef} {h : Handle}
    (hh : h ∈ (s.calls.frame f).handles) : h ∈ s.calls.roots :=
  hs.tallies.mem_roots hs.unbroken hh

/-- What is in reach is a cell. -/
theorem contains_of_reaches (hs : s.Sound) {h : Handle}
    (hh : s.machine.heap.Reaches s.calls.roots h) : s.machine.heap.contains h = true :=
  LawfulCollector.contains_of_handedOut hs.ready.fits (hs.ready.live h hh)

/-- A request for an object is refused, finds no memory, or gets a cell that was out of reach. -/
theorem newObject (hs : s.Sound) (t : Thread) (env : Env) :
    s.machine.Creation env (s.machine.newObject t env) := by
  rw [Machine.newObject_eq]
  by_cases hactive : (s.machine.frame env).state = .active
  · have hcheck : s.machine.checkActive env = .ok () := Machine.checkActive_eq_ok.2 hactive
    rw [hcheck]
    have halloc : s.machine.toArena.Allocation s.machine.calls
        (Allocator.allocate t s.machine.calls s.machine.toArena) :=
      LawfulCollector.allocate_ready hs.ready
    dsimp only
    generalize Allocator.allocate t s.machine.calls s.machine.toArena = allocated at halloc ⊢
    cases halloc with
    | exhausted ready heap => exact .exhausted hactive rfl rfl heap ready
    | @given h arena cell unreached heap fits counted live unheld =>
      have hfree : ¬ (s.machine.frame env).holds h = true := fun hheld =>
        unreached (.root (hs.mem_roots (Frame.holds_iff.1 hheld)))
      dsimp only
      rw [if_neg hfree]
      refine .made hactive cell unreached (Machine.calls_traced) (Machine.config_traced)
        (Machine.heap_traced.trans heap) ?_
      have hready : arena.Ready (s.machine.calls.change env.frame (·.insert h)) := by
        refine ⟨fits, fun k hk => ?_, unheld⟩
        rw [heap] at hk
        have hreach := Heap.Reaches.of_clear (fun r hr =>
          (CallStacks.mem_roots_hold (CallStacks.lt_size_of_active hactive) hr).imp_right .root) hk
        rcases hreach with rfl | hreach
        · exact counted
        · exact live k hreach
      rw [Machine.calls_traced]
      exact hready.of_reached Machine.allocator_traced Machine.heap_traced Machine.gate_traced
        fun r hr => .root hr
  · have hcheck : s.machine.checkActive env = .error (.inactiveFrame (s.machine.frame env).depth) :=
      if_neg hactive
    rw [hcheck]
    exact .refused hactive

/-- The new roots of a step are those that it brings in, but for old ones. -/
theorem roots_after (hs : s.Sound) {action : Action} (hpermits : s.ledger.permits action) :
    ∀ r ∈ (s.after t action).calls.roots,
      r ∈ action.gain (s.reply t action) ∨ r ∈ s.calls.roots :=
  (ledger_step hpermits).roots hs.tallies hs.unbroken

/-- An action that leaves the arena alone, and brings in only what was in reach, leaves it ready. -/
theorem ready_of_same (hs : s.Sound) {action : Action} (hpermits : s.ledger.permits action)
    (hsame : s.machine.SameArena (s.after t action).machine)
    (hgain : ∀ r ∈ action.gain (s.reply t action), s.machine.heap.Reaches s.calls.roots r) :
    (s.after t action).machine.toArena.Ready (s.after t action).calls :=
  hs.ready.of_reached hsame.allocator hsame.heap hsame.gate fun r hr =>
    (hs.roots_after hpermits r hr).elim (hgain r) .root

/-- What a frame reads from a reference slot was in reach. -/
theorem reaches_of_getReference (hs : s.Sound) {object : Handle} {slot : Nat} :
    ∀ r ∈ Action.gain (.getReference env object slot) (s.machine.getReference t env object slot).1,
      s.machine.heap.Reaches s.calls.roots r := by
  intro r hr
  rw [Machine.getReference_eq] at hr
  cases hcheck : s.machine.referenceAt env object slot with
  | error fault =>
    rw [hcheck] at hr
    cases hr
  | ok h =>
    obtain ⟨-, hheld, hlink⟩ := Machine.of_referenceAt_eq_ok hcheck
    rw [hcheck] at hr
    have hr : r ∈ if h = Handle.null then [] else [h] := hr
    split at hr
    · cases hr
    · rename_i h0
      obtain rfl := List.mem_singleton.1 hr
      exact .link (.root (hs.mem_roots hheld)) (hlink h0)

/-- A handle that an active frame finds in a slot of an object that it holds names a cell. -/
theorem referenceAt_eq (hs : s.Sound) {object target : Handle} {slot : Nat} {word : Word}
    (hactive : (s.machine.frame env).state = .active)
    (hheld : object ∈ (s.machine.frame env).handles)
    (hread : s.machine.heap.read object slot = .ok word) (htarget : word.target? = some target) :
    s.machine.referenceAt env object slot = .ok target := by
  have hlink : s.machine.heap.Reaches s.calls.roots target :=
    .link (.root (hs.mem_roots hheld)) (Heap.mem_references_of_read hread htarget)
  obtain ⟨cell, hcell, -⟩ := Heap.cell_of_contains (hs.contains_of_reaches hlink)
  have hactiveCheck : s.machine.checkActive env = .ok () := Machine.checkActive_eq_ok.2 hactive
  have hheldCheck : s.machine.checkHeld env object = .ok () := Machine.checkHeld_eq_ok.2 hheld
  rw [Machine.referenceAt, hactiveCheck, hheldCheck, hread]
  simp only [bind, Except.bind, htarget, hcell, pure, Except.pure]

/-- A frame that stores a reference keeps the arena ready. -/
theorem setReference (hs : s.Sound) {object target : Handle} {slot : Nat} :
    (s.machine.setReference t env object slot target).2.toArena.Ready s.calls ∧
      (s.machine.setReference t env object slot target).2.heap =
        s.machine.heap.after (.setReference env object slot target)
          (s.machine.setReference t env object slot target).1 := by
  rw [Machine.setReference_eq]
  cases hcheck : s.machine.storableReference env object slot target with
  | error fault => exact ⟨hs.ready, rfl⟩
  | ok word =>
    obtain ⟨-, -, htarget, hle, rfl⟩ := Machine.of_storableReference_eq_ok hcheck
    refine ⟨hs.ready.putWord fun k hk => ?_, rfl⟩
    rw [Handle.target?_toWord hle] at hk
    split at hk
    · cases hk
    · rename_i h0
      obtain rfl := Option.some.inj hk
      exact .root (hs.mem_roots (htarget h0))

/-- A frame that stores data keeps the arena ready. -/
theorem setData (hs : s.Sound) {object : Handle} {slot : Nat} {word : Word} :
    (s.machine.setData t env object slot word).2.toArena.Ready s.calls ∧
      (s.machine.setData t env object slot word).2.heap =
        s.machine.heap.after (.setData env object slot word)
          (s.machine.setData t env object slot word).1 := by
  rw [Machine.setData_eq]
  cases hcheck : s.machine.storableData env object slot word with
  | error fault => exact ⟨hs.ready, rfl⟩
  | ok w =>
    obtain ⟨-, -, hneg, rfl⟩ := Machine.of_storableData_eq_ok hcheck
    refine ⟨hs.ready.putWord fun k hk => ?_, rfl⟩
    rw [Word.target?_of_neg hneg] at hk
    cases hk

/-- A collection keeps the heap and the readiness of the arena. -/
theorem collect (hs : s.Sound) :
    (s.machine.collect t).2.toArena.Ready s.calls ∧
      (s.machine.collect t).2.heap = s.machine.heap := by
  have hcollect : s.machine.toArena.Collection s.machine.calls
      (Allocator.collect t s.machine.calls s.machine.toArena) :=
    LawfulCollector.collect_ready hs.ready
  unfold Machine.collect
  generalize Allocator.collect t s.machine.calls s.machine.toArena = collected at hcollect ⊢
  obtain ⟨ready, heap⟩ := hcollect
  exact ⟨ready, heap⟩

/-- What an orderly action does to the arena: the heap changes as the answer says, and the books fit
again. -/
theorem arena (hs : s.Sound) {action : Action} (hpermits : s.ledger.permits action)
    (horderly : action.orderly = true) :
    (s.after t action).machine.toArena.Ready (s.after t action).calls ∧
      (s.after t action).machine.heap = s.machine.heap.after action (s.reply t action) := by
  cases action with
  | newObject env =>
    have hcreation := hs.newObject t env
    show (s.machine.newObject t env).2.toArena.Ready (s.machine.newObject t env).2.calls ∧
      (s.machine.newObject t env).2.heap =
        s.machine.heap.after (.newObject env) (s.machine.newObject t env).1
    generalize s.machine.newObject t env = created at hcreation ⊢
    cases hcreation with
    | refused inactive => exact ⟨hs.ready, rfl⟩
    | exhausted active calls config heap ready => exact ⟨ready, heap⟩
    | made active cell unreached calls config heap ready => exact ⟨ready, heap⟩
  | setReference env object slot target =>
    have hcalls : (s.after t (.setReference env object slot target)).calls = s.calls := by
      show (s.machine.setReference t env object slot target).2.calls = _
      rw [Machine.setReference_eq]
      cases s.machine.storableReference env object slot target <;> rfl
    rw [hcalls]
    exact hs.setReference
  | setData env object slot word =>
    have hcalls : (s.after t (.setData env object slot word)).calls = s.calls := by
      show (s.machine.setData t env object slot word).2.calls = _
      rw [Machine.setData_eq]
      cases s.machine.storableData env object slot word <;> rfl
    rw [hcalls]
    exact hs.setData
  | collect => exact hs.collect
  | stop => cases horderly
  | resume => cases horderly
  | cell h command => cases horderly
  | abandonRun entry => cases horderly
  | getReference env object slot =>
    exact ⟨hs.ready_of_same hpermits .getReference hs.reaches_of_getReference,
      Machine.SameArena.getReference.heap⟩
  | getData env object slot =>
    exact ⟨hs.ready_of_same hpermits .getData fun _ => (nomatch ·), Machine.SameArena.getData.heap⟩
  | release env object =>
    exact ⟨hs.ready_of_same hpermits .release fun _ => (nomatch ·), Machine.SameArena.release.heap⟩
  | beginCall caller name args =>
    exact ⟨hs.ready_of_same hpermits .beginCall fun _ => (nomatch ·),
      Machine.SameArena.beginCall.heap⟩
  | endCall caller callee outcome =>
    exact ⟨hs.ready_of_same hpermits .endCall fun _ => (nomatch ·), Machine.SameArena.endCall.heap⟩
  | beginRun name args =>
    exact ⟨hs.ready_of_same hpermits .beginRun fun _ => (nomatch ·),
      Machine.SameArena.beginRun.heap⟩
  | endRun entry outcome =>
    exact ⟨hs.ready_of_same hpermits .endRun fun _ => (nomatch ·), Machine.SameArena.endRun.heap⟩
  | abandonCall callee =>
    exact ⟨hs.ready_of_same hpermits ⟨rfl, rfl, rfl⟩ fun _ => (nomatch ·), rfl⟩
  | note level text => exact ⟨hs.ready_of_same hpermits ⟨rfl, rfl, rfl⟩ fun _ => (nomatch ·), rfl⟩
  | _ => exact ⟨hs.ready, rfl⟩

/-- Orderly actions within the rules keep a session sound. -/
theorem step (hs : s.Sound) {action : Action} (hpermits : s.ledger.permits action)
    (horderly : action.orderly = true) : (s.after t action).Sound where
  tallies := hs.tallies.step (ledger_step hpermits)
  unbroken := by
    have hkept : (s.ledger.record action (s.reply t action)).broken = s.ledger.broken := by
      generalize s.reply t action = reply
      cases action with
      | abandonRun entry => cases horderly
      | beginCall caller name args => cases reply <;> rfl
      | beginRun name args => cases reply <;> rfl
      | _ => rfl
    exact hkept.trans hs.unbroken
  ready := (hs.arena hpermits horderly).1

end Sound

def Orderly (past : List Move) : Prop := ∀ move ∈ past, move.action.orderly = true

omit [LawfulCollector A] in
theorem orderly_of_script {past : List Move} {script : List (Thread × Action)}
    (hpast : past.map (fun move => (move.thread, move.action)) = script.reverse)
    (hscript : ∀ step ∈ script, step.2.orderly = true) : Orderly past := by
  intro move hmove
  have hmem : (move.thread, move.action) ∈ script.reverse := hpast ▸ List.mem_map_of_mem hmove
  exact hscript _ (List.mem_reverse.1 hmem)

variable {start : Machine A} {past : List Move} {s : Session A}

/-- A machine that was just built is ready, and has the heap that it was built over. -/
theorem ready_of_build {t : Thread} {heap : Heap} {allocator : A} {config : MachineConfig}
    (hbuild : Machine.build t heap allocator config = .ok start) :
    start.toArena.Ready .empty ∧ start.heap = heap := by
  unfold Machine.build at hbuild
  split at hbuild
  · cases hbuild
  · rename_i arena hbind
    obtain rfl := Except.ok.inj hbuild
    obtain ⟨hready, hheap⟩ := LawfulCollector.bind_ok hbind rfl
    exact ⟨hready.of_reached rfl rfl rfl fun r hr => .root hr, hheap⟩

theorem sound_opening {t : Thread} {heap : Heap} {allocator : A} {config : MachineConfig}
    (hbuild : Machine.build t heap allocator config = .ok start) : (opening start).Sound := by
  have hcalls : (opening start).calls = .empty := calls_of_build hbuild
  refine ⟨?_, rfl, ?_⟩
  · rw [hcalls]
    exact Ledger.tallies_empty
  · rw [hcalls]
    exact (ready_of_build hbuild).1

/-- Every session of orderly moves is sound. -/
theorem Ran.sound {t : Thread} {heap : Heap} {allocator : A} {config : MachineConfig}
    (hbuild : Machine.build t heap allocator config = .ok start) (hran : Ran start past s)
    (horderly : Orderly past) : s.Sound := by
  induction hran with
  | opening => exact sound_opening hbuild
  | move _ t action permitted ih =>
    have hpast := ih fun move hmove => horderly move (List.mem_cons_of_mem _ hmove)
    exact hpast.step permitted (horderly _ List.mem_cons_self)

/-- A session of orderly moves on a machine over new memory. -/
inductive OrderlyOver (allocator : A) (config : MachineConfig) (width : Nat) (s : Session A) : Prop
  | mk {start : Machine A} {past : List Move} (new : start.OnNewHeap allocator config width)
      (ran : Ran start past s) (orderly : Orderly past)

omit [LawfulCollector A] in
theorem OrderlyOver.opening {allocator : A} {config : MachineConfig} {width : Nat}
    (hnew : start.OnNewHeap allocator config width) :
    (Session.opening start).OrderlyOver allocator config width :=
  ⟨hnew, .opening, fun _ hmove => absurd hmove List.not_mem_nil⟩

/-- One in which no stack is registered any more, as after all runs. -/
structure LeftIdle (allocator : A) (config : MachineConfig) (width : Nat) (s : Session A) :
    Prop where
  orderly : s.OrderlyOver allocator config width
  unregistered : s.calls.registered = []

/-! ### What a program may rely on -/

/-- No dangling and no double use, for an allocator that counts some cells as handed out. -/
structure Safe {A : Type} [Allocator A] (handedOut : A → Handle → Prop) (s : Session A) : Prop where
  live : ∀ h, s.machine.heap.Reaches s.calls.roots h →
    s.machine.heap.contains h = true ∧ handedOut s.machine.allocator h
  /-- A new object is a cell that no frame reached before, and all its slots are null. -/
  fresh : ∀ t env h, (s.machine.newObject t env).1 = .ok h →
    1 ≤ h ∧ h < s.machine.heap.size ∧
      (∀ f, ¬ s.machine.heap.Reaches (s.calls.frame f).handles h) ∧
      ∀ word ∈ (s.machine.newObject t env).2.heap.words h, word = 0
  /-- No frame is handed an object that it holds already. -/
  valid : ∀ t env reason, (s.machine.newObject t env).1 ≠ .error (.invalidState reason)
  /-- What an active frame finds in a slot of an object that it holds names a cell, so reading it
  does not fail. -/
  linked : ∀ t env object slot word target, (s.machine.frame env).state = .active →
    object ∈ (s.machine.frame env).handles → s.machine.heap.read object slot = .ok word →
    word.target? = some target → (s.machine.getReference t env object slot).1 = .ok target

theorem Sound.safe (hs : s.Sound) : s.Safe (A := A) Collector.HandedOut where
  live h hh := ⟨hs.contains_of_reaches hh, hs.ready.live h hh⟩
  fresh t env h hok := by
    have hcreation := hs.newObject t env
    generalize s.machine.newObject t env = created at hcreation hok ⊢
    cases hcreation with
    | refused inactive => cases hok
    | exhausted active calls config heap ready => cases hok
    | made active cell unreached calls config heap ready =>
      obtain rfl := Except.ok.inj hok
      obtain ⟨h0, hlt⟩ := Heap.contains_iff.1 cell
      refine ⟨Nat.pos_of_ne_zero h0, hlt, fun f hreach => ?_, fun word hword => ?_⟩
      · exact unreached (hreach.mono fun r hr => hs.mem_roots hr)
      · rw [heap, Heap.words_clear, if_pos rfl] at hword
        exact List.eq_of_mem_replicate hword
  valid t env reason hinvalid := by
    have hcreation := hs.newObject t env
    generalize s.machine.newObject t env = created at hcreation hinvalid
    cases hcreation <;> cases hinvalid
  linked t env object slot word target hactive hheld hread htarget := by
    rw [Machine.getReference_eq, hs.referenceAt_eq hactive hheld hread htarget]
    rfl

/-- Over mark and sweep, where a cell is handed out while its flag is up and it is not on the free
list, and over a counter, where it is handed out once the counter has passed it, every session of
orderly moves is safe. -/
theorem safe_of_orderly :
    (∀ (t : Thread) (heap : Heap) (allocator : MarkSweep) (config : MachineConfig)
      (start : Machine MarkSweep) (past : List Move) (s : Session MarkSweep),
      Machine.build t heap allocator config = .ok start → Ran start past s → Orderly past →
        s.Safe fun m h => m.hasAllocated h = true ∧ h ∉ m.free) ∧
    ∀ (t : Thread) (heap : Heap) (allocator : Bump) (config : MachineConfig)
      (start : Machine Bump) (past : List Move) (s : Session Bump),
      Machine.build t heap allocator config = .ok start → Ran start past s → Orderly past →
        s.Safe fun b h => h < b.next := by
  constructor
  · intro t heap allocator config start past s hbuild hran horderly
    exact (hran.sound hbuild horderly).safe
  · intro t heap allocator config start past s hbuild hran horderly
    have hsafe := (hran.sound hbuild horderly).safe
    exact ⟨fun h hh => ⟨(hsafe.live h hh).1, (hsafe.live h hh).2.2⟩, hsafe.fresh, hsafe.valid,
      hsafe.linked⟩

/-- A run makes four objects, links the second from the first, writes data to the first and the
third, and lets go of all but the first. After a collection it makes another object. -/
def writing : List (Thread × Action) :=
  [(0, .beginRun "entry" []),
    (0, .newObject ⟨0, 0⟩), (0, .newObject ⟨0, 0⟩), (0, .newObject ⟨0, 0⟩), (0, .newObject ⟨0, 0⟩),
    (0, .setReference ⟨0, 0⟩ 1 0 2), (0, .setData ⟨0, 0⟩ 1 1 (-5)), (0, .setData ⟨0, 0⟩ 3 0 (-7)),
    (0, .release ⟨0, 0⟩ 2), (0, .release ⟨0, 0⟩ 3), (0, .release ⟨0, 0⟩ 4),
    (0, .collect), (0, .newObject ⟨0, 0⟩)]

/-- What there is to see of the roots, of the links of the first cell, and of the object that the
entry is given next. -/
def linkAndNext (s : Session A) : List Handle × List Handle × Answer Handle :=
  (s.calls.roots, s.machine.heap.references 1, (s.machine.newObject 0 ⟨0, 0⟩).1)

omit [LawfulCollector A] in
/-- What can be relied on where the first cell is a root and links the second. -/
theorem Safe.of_linkAndNext {handedOut : A → Handle → Prop} (hsafe : s.Safe handedOut)
    {rest : List Handle} {next : Handle} (hsights : s.linkAndNext = (1 :: rest, [2], .ok next)) :
    s.calls.roots = 1 :: rest ∧ handedOut s.machine.allocator 2 ∧
      (s.machine.newObject 0 ⟨0, 0⟩).1 = .ok next ∧
      ∀ f, ¬ s.machine.heap.Reaches (s.calls.frame f).handles next := by
  simp only [linkAndNext, Prod.mk.injEq] at hsights
  obtain ⟨hroots, hlink, hgiven⟩ := hsights
  have hfirst : s.machine.heap.Reaches s.calls.roots 1 := .root (hroots ▸ List.mem_cons_self)
  have hsecond := hfirst.link (hlink ▸ List.mem_singleton.2 rfl)
  exact ⟨hroots, (hsafe.live 2 hsecond).2, hgiven, (hsafe.fresh 0 ⟨0, 0⟩ next hgiven).2.2.1⟩

/-- What is said of all sessions of orderly moves, said of one that links, writes, releases and
collects: the linked object stays handed out, and the next one is a cell that is out of reach. Over
mark and sweep the third cell was given out again in between. -/
theorem safe_of_writing :
    (∃ (start : Machine MarkSweep) (past : List Move) (s : Session MarkSweep),
      Machine.build Thread.first (.ofSize 5 2) (MarkSweep.fresh .zero) .standard = .ok start ∧
        Ran start past s ∧
        past.map (fun move => (move.thread, move.action)) = writing.reverse ∧
        (s.Safe fun m h => m.hasAllocated h = true ∧ h ∉ m.free) ∧ s.calls.roots = [1, 3] ∧
        (s.machine.allocator.hasAllocated 2 = true ∧ 2 ∉ s.machine.allocator.free) ∧
        (s.machine.newObject 0 ⟨0, 0⟩).1 = .ok 4 ∧
        ∀ f, ¬ s.machine.heap.Reaches (s.calls.frame f).handles 4) ∧
    ∃ (start : Machine Bump) (past : List Move) (s : Session Bump),
      Machine.build Thread.first (.ofSize 7 2) Bump.fresh .standard = .ok start ∧
        Ran start past s ∧
        past.map (fun move => (move.thread, move.action)) = writing.reverse ∧
        (s.Safe fun b h => h < b.next) ∧ s.calls.roots = [1, 5] ∧ 2 < s.machine.allocator.next ∧
        (s.machine.newObject 0 ⟨0, 0⟩).1 = .ok 6 ∧
        ∀ f, ¬ s.machine.heap.Reaches (s.calls.frame f).handles 6 := by
  constructor
  · have hseen : observed (.ofSize 5 2) (MarkSweep.fresh .zero) writing (fun _ => linkAndNext) =
        some ([1, 3], [2], .ok 4) := by cbv
    obtain ⟨start, past, s, hbuild, hran, hpast, hsights⟩ := exists_ran_of_observed hseen
    have hsafe := safe_of_orderly.1 _ _ _ _ _ _ _ hbuild hran (orderly_of_script hpast (by decide))
    exact ⟨start, past, s, hbuild, hran, hpast, hsafe, hsafe.of_linkAndNext hsights⟩
  · have hseen : observed (.ofSize 7 2) Bump.fresh writing (fun _ => linkAndNext) =
        some ([1, 5], [2], .ok 6) := by decide +kernel
    obtain ⟨start, past, s, hbuild, hran, hpast, hsights⟩ := exists_ran_of_observed hseen
    have hsafe := safe_of_orderly.2 _ _ _ _ _ _ _ hbuild hran (orderly_of_script hpast (by decide))
    exact ⟨start, past, s, hbuild, hran, hpast, hsafe, hsafe.of_linkAndNext hsights⟩

end Session

end RootedHeap
