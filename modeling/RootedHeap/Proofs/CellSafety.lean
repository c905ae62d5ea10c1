import RootedHeap.Proofs.Progress
import RootedHeap.Proofs.StackOwnership

/-!
Cells among threads. Between the allocator and the frame that asked for it a cell is in nobody's
reach, and its thread has long left the scope in which it asked. That it is not swept is due to the
allocator's lock alone, which the thread keeps until the frame holds the cell; that marking finds
what it should is due to the gate alone.

The steps of others come in two kinds. Inside a scope a thread may change what is in reach, but adds
nothing that was out of it (`Crew.Confined`), which is all that a cell on its way needs. Outside of
scopes a thread at most lets go of something (`Crew.OnlyReleases`), which is all that happens while
a collection marks and sweeps. `CellSafety.step` puts the two together.
-/

namespace RootedHeap

namespace Heap

variable {heap : Heap} {roots roots' : List Handle} {h k : Handle}

/-- Clearing a cell adds nothing to what is in reach. -/
theorem Reaches.of_clear_of_roots (hh : (heap.clear h).Reaches roots k) : heap.Reaches roots k := by
  refine of_closed (fun r hr => .root hr) (fun i j hi hj => ?_) hh
  rw [references_clear] at hj
  split at hj
  · cases hj
  · exact .link hi hj

/-- A root more that has no links adds itself to what is in reach. -/
theorem Reaches.of_blank (hroots : ∀ r ∈ roots', r = h ∨ r ∈ roots)
    (hblank : heap.references h = []) (hk : heap.Reaches roots' k) :
    k = h ∨ heap.Reaches roots k := by
  induction hk with
  | root hmem => exact (hroots _ hmem).imp_right .root
  | @link i j _ hmem ih =>
    rcases ih with rfl | hi
    · rw [hblank] at hmem
      cases hmem
    · exact .inr (.link hi hmem)

end Heap

/-- The cell that a thread has got from the allocator and not yet handed to a frame. -/
def Stage.carries : Stage MarkSweep.ControlPoint → Option Handle
  | .working (.object _) (.answering (.ok h)) | .receiving _ h => some h
  | _ => none

namespace Crew

section Changes

variable {A : Type} [Allocator A] [Staged A] {c c' : Crew A} {t : Thread}

def reaches (c : Crew A) (h : Handle) : Prop := c.heap.Reaches c.calls.roots h

/-- A change that adds nothing to what is in reach, and leaves alone what is not. -/
structure Confined (c c' : Crew A) : Prop where
  allocator : c'.machine.allocator = c.machine.allocator
  size : c'.heap.size = c.heap.size
  reach : ∀ h, c'.reaches h → c.reaches h
  links : ∀ h, ¬ c.reaches h → c'.heap.references h = c.heap.references h

/-- A change by which at most some roots are let go. -/
structure OnlyReleases (c c' : Crew A) : Prop where
  allocator : c'.machine.allocator = c.machine.allocator
  heap : c'.heap = c.heap
  roots : ∀ r ∈ c'.calls.roots, r ∈ c.calls.roots

namespace OnlyReleases

theorem of_same (hmachine : c'.machine = c.machine) : c.OnlyReleases c' :=
  ⟨by rw [hmachine], congrArg (·.heap) hmachine, fun r hr => by rwa [calls, hmachine] at hr⟩

theorem of_calls (hallocator : c'.machine.allocator = c.machine.allocator)
    (hheap : c'.heap = c.heap) (hcalls : c'.calls = c.calls) : c.OnlyReleases c' :=
  ⟨hallocator, hheap, fun _ hr => hcalls ▸ hr⟩

theorem reach (h : c.OnlyReleases c') {k : Handle} (hk : c'.reaches k) : c.reaches k := by
  unfold reaches at hk
  rw [h.heap] at hk
  exact hk.mono h.roots

theorem confined (h : c.OnlyReleases c') : c.Confined c' :=
  ⟨h.allocator, by rw [h.heap], fun _ => h.reach, fun _ _ => by rw [h.heap]⟩

end OnlyReleases

section Perform

variable {action : Action} {h : Handle}

/-- What frames hold after an action that is done in one step was a root before, or is what the
action brings in. -/
theorem roots_perform (hc : c.StackOwnership)
    (hquick : action.operates = true ∨ action.atOnce = true) (horderly : action.orderly = true)
    (hpermits : c.ledger.permits action) :
    ∀ r ∈ (c.perform t action).calls.roots,
      r ∈ action.gain (c.world.perform t action).1 ∨ r ∈ c.calls.roots := by
  intro r hr
  obtain ⟨f, hf⟩ := Ledger.mem_handles_of_mem_roots hr
  obtain ⟨hruns, -⟩ := runs_perform (c := c) (t := t) hquick horderly
  have hstep := (Session.ledger_step (s := c.session) (t := t) hpermits).enrolled
    (c.ledger.runs.map Env.stack) hruns
  exact (hstep.held hc.tallies hf).imp_right fun ⟨g, hg⟩ => hc.mem_roots hg

/-- What an operation of a frame brings in was in reach. -/
theorem reaches_gain (hc : c.StackOwnership) (hfits : action.operates = true) :
    ∀ r ∈ action.gain (c.world.perform t action).1, c.reaches r := by
  intro r hr
  cases action with
  | getReference env object slot =>
    have hr : r ∈ Action.gain (.getReference env object slot)
      (c.machine.getReference t env object slot).1 := hr
    rw [Machine.getReference_eq] at hr
    cases hcheck : c.machine.referenceAt env object slot with
    | error fault =>
      rw [hcheck] at hr
      cases hr
    | ok o =>
      obtain ⟨-, hheld, hlink⟩ := Machine.of_referenceAt_eq_ok hcheck
      rw [hcheck] at hr
      have hr : r ∈ if o = Handle.null then [] else [o] := hr
      split at hr
      · cases hr
      · rename_i hne
        obtain rfl := List.mem_singleton.1 hr
        exact .link (.root (hc.mem_roots hheld)) (hlink hne)
  | newObject env => cases hfits
  | _ => cases hr

/-- What is done in one step is none of the allocator's books' business. -/
theorem allocator_perform (hquick : action.operates = true ∨ action.atOnce = true) :
    (c.perform t action).machine.allocator = c.machine.allocator := by
  have haction : action.allocates = false := by
    cases action with
    | newObject env => rcases hquick with hq | hq <;> cases hq
    | collect => rcases hquick with hq | hq <;> cases hq
    | _ => rfl
  exact World.allocator_perform haction

/-- What an operation of a frame does to the cells: a word in a cell that is in reach may become
data, null, or a link to what is in reach. -/
theorem heap_perform (hc : c.StackOwnership) (hfits : action.operates = true) :
    (c.perform t action).heap = c.heap ∨
      ∃ object slot word, c.reaches object ∧
        (∀ target, Word.target? word = some target → c.reaches target) ∧
        (c.perform t action).heap = c.heap.putWord object slot word := by
  let P : Machine A → Prop := fun m => m.heap = c.heap ∨
    ∃ object slot word, c.reaches object ∧
      (∀ target, Word.target? word = some target → c.reaches target) ∧
      m.heap = c.heap.putWord object slot word
  cases action with
  | getReference env object slot => exact .inl Machine.SameArena.getReference.heap
  | getData env object slot => exact .inl Machine.SameArena.getData.heap
  | release env object => exact .inl Machine.SameArena.release.heap
  | beginCall caller name args => exact .inl Machine.SameArena.beginCall.heap
  | endCall caller callee outcome => exact .inl Machine.SameArena.endCall.heap
  | setReference env object slot target =>
    show P (c.machine.setReference t env object slot target).2
    rw [Machine.setReference_eq]
    refine Machine.decided_keeps (.inl rfl) fun word hcheck => .inr ?_
    obtain ⟨-, hheld, htarget, hle, rfl⟩ := Machine.of_storableReference_eq_ok hcheck
    refine ⟨object, slot, _, .root (hc.mem_roots hheld), fun k hk => ?_, rfl⟩
    rw [Handle.target?_toWord hle] at hk
    split at hk
    · cases hk
    · rename_i hne
      obtain rfl := Option.some.inj hk
      exact .root (hc.mem_roots (htarget hne))
  | setData env object slot word =>
    show P (c.machine.setData t env object slot word).2
    rw [Machine.setData_eq]
    refine Machine.decided_keeps (.inl rfl) fun w hcheck => .inr ?_
    obtain ⟨-, hheld, hneg, rfl⟩ := Machine.of_storableData_eq_ok hcheck
    refine ⟨object, slot, _, .root (hc.mem_roots hheld), fun k hk => ?_, rfl⟩
    rw [Word.target?_of_neg hneg] at hk
    cases hk
  | _ => cases hfits

/-- An operation of a frame is confined to what is in reach. -/
theorem confined_perform (hc : c.StackOwnership) (hfits : action.operates = true)
    (hpermits : c.ledger.permits action) : c.Confined (c.perform t action) := by
  have horderly : action.orderly = true := Action.orderly_of_operates hfits
  have hroots : ∀ r ∈ (c.perform t action).calls.roots, c.reaches r := fun r hr =>
    (roots_perform hc (.inl hfits) horderly hpermits r hr).elim (reaches_gain hc hfits r) .root
  have hallocator := allocator_perform (c := c) (t := t) (.inl hfits)
  obtain hsame | ⟨object, slot, word, hobject, htarget, hput⟩ := heap_perform (t := t) hc hfits
  · refine ⟨hallocator, by rw [hsame], fun k hk => ?_, fun _ _ => by rw [hsame]⟩
    unfold reaches at hk
    rw [hsame] at hk
    exact hk.of_closed hroots fun _ _ => .link
  · refine ⟨hallocator, by rw [hput, Heap.size_putWord], fun k hk => ?_, fun k hk => ?_⟩
    · unfold reaches at hk
      rw [hput] at hk
      exact hk.of_putWord hroots htarget
    · have hne : object ≠ k := by
        rintro rfl
        exact hk hobject
      rw [hput, Heap.references_eq, Heap.words_putWord, if_neg hne, Heap.references_eq]

/-- An orderly action that is done at once lets at most some roots go. -/
theorem calm_perform (hc : c.StackOwnership) (hsimple : action.atOnce = true)
    (horderly : action.orderly = true) (hpermits : c.ledger.permits action) :
    c.OnlyReleases (c.perform t action) := by
  have hgain : action.gain (c.world.perform t action).1 = [] := by
    cases action with
    | newObject env => cases hsimple
    | getReference env object slot => cases hsimple
    | _ => rfl
  have hheap : (c.perform t action).heap = c.heap := by
    cases action with
    | beginRun name args => exact Machine.SameArena.beginRun.heap
    | resume => cases horderly
    | cell h command => cases horderly
    | _ => first | rfl | cases hsimple
  refine ⟨allocator_perform (.inr hsimple), hheap, fun r hr => ?_⟩
  have hroots := roots_perform hc (.inr hsimple) horderly hpermits r hr
  rw [hgain] at hroots
  exact hroots.resolve_left (nomatch ·)

end Perform

/-- A frame that is opened without arguments adds no root. -/
theorem roots_opened (hc : c.StackOwnership) {stack : StackRef} :
    ∀ r ∈ (c.calls.opened stack []).roots, r ∈ c.calls.roots := by
  intro r hr
  obtain ⟨f, hf⟩ := Ledger.mem_handles_of_mem_roots hr
  rw [CallStacks.frame_opened] at hf
  split at hf
  · cases hf
  · exact hc.mem_roots hf

/-- A frame that leaves its stack adds no root. -/
theorem roots_pop (hc : c.StackOwnership) {stack : StackRef} {f : FrameRef} :
    ∀ r ∈ (c.calls.pop stack f).roots, r ∈ c.calls.roots := by
  intro r hr
  obtain ⟨g, hg⟩ := Ledger.mem_handles_of_mem_roots hr
  rw [CallStacks.frame_pop] at hg
  split at hg
  · cases hg
  · exact hc.mem_roots hg

/-- A stack that is forgotten adds no root. -/
theorem roots_unregister {id : Nat} :
    ∀ r ∈ (c.calls.unregister id).roots, r ∈ c.calls.roots := by
  intro r hr
  obtain ⟨k, hk, hrest⟩ := CallStacks.mem_roots_iff.1 hr
  exact CallStacks.mem_roots_iff.2 ⟨k, (CallStacks.mem_registered_unregister.1 hk).1, hrest⟩

end Changes

/-! ### Cells on their way -/

variable {c c' : Crew MarkSweep} {t u : Thread}

/-- A cell that is handed out and that nothing reaches; it links to nothing. -/
structure Unclaimed (c : Crew MarkSweep) (h : Handle) : Prop where
  cell : c.heap.contains h = true
  counted : c.machine.allocator.hasAllocated h = true
  unreached : ¬ c.reaches h
  blank : c.heap.references h = []

/-- What is known at a stage: a collection that marks has seen all roots, one that sweeps has marked
all that is in reach, and a cell on its way to a frame is unclaimed. -/
def knows (c : Crew MarkSweep) : Stage MarkSweep.ControlPoint → Prop
  | .working _ (.marking roots) => ∀ r ∈ c.calls.roots, r ∈ roots
  | .working _ .sweeping => ∀ h, c.reaches h → c.machine.allocator.marks.has h = true
  | .working (.object _) (.answering (.ok h)) | .receiving _ h => c.Unclaimed h
  | _ => True

/-- The allocator's books fit, what is in reach is handed out, and what each thread has found out
holds. -/
structure CellSafety (c : Crew MarkSweep) : Prop where
  fits : c.machine.allocator.Fits c.heap.size
  live : ∀ h, c.reaches h → c.machine.allocator.hasAllocated h = true
  known : ∀ t, c.knows (c.stage t)

section Known

variable {stage : Stage MarkSweep.ControlPoint}

/-- A thread without the allocator knows nothing of it. -/
theorem knows_of_unlocked (hfree : stage.hasLock = false) : c.knows stage := by
  cases stage with
  | working task point => cases hfree
  | receiving env h => cases hfree
  | _ => trivial

theorem Confined.unclaimed (h : c.Confined c') {k : Handle} (hk : c.Unclaimed k) :
    c'.Unclaimed k where
  cell := by
    rw [Heap.contains, h.size]
    exact hk.cell
  counted := h.allocator ▸ hk.counted
  unreached hreach := hk.unreached (h.reach k hreach)
  blank := (h.links k hk.unreached).trans hk.blank

/-- What a collection has found out holds as long as at most some roots are let go. -/
theorem OnlyReleases.knows (h : c.OnlyReleases c') (hstage : c.knows stage) : c'.knows stage := by
  unfold Crew.knows at hstage ⊢
  split at hstage
  · exact fun r hr => hstage r (h.roots r hr)
  · intro k hk
    rw [h.allocator]
    exact hstage k (h.reach hk)
  · exact h.confined.unclaimed hstage
  · exact h.confined.unclaimed hstage
  · trivial

/-- What is known of a cell on its way holds whatever happens in scopes. -/
theorem Confined.knows (h : c.Confined c') (hopen : stage.pausing = false)
    (hstage : c.knows stage) : c'.knows stage := by
  unfold Crew.knows at hstage ⊢
  split at hstage
  · cases hopen
  · cases hopen
  · exact h.unclaimed hstage
  · exact h.unclaimed hstage
  · trivial

end Known

namespace CellSafety

variable {stage : Stage MarkSweep.ControlPoint}

/-- What is in reach is a cell. -/
theorem contains (h : c.CellSafety) {k : Handle} (hk : c.machine.allocator.hasAllocated k = true) :
    c.heap.contains k = true :=
  Heap.contains_iff.2 ⟨h.fits.flagged k hk, h.fits.lt_of_flag hk⟩

theorem update (h : c.CellSafety) (hconfined : c.Confined c')
    (hstage : c'.stage = Function.update c.stage t stage)
    (hothers : ∀ u ≠ t, c'.knows (c.stage u)) (hknows : c'.knows stage) : c'.CellSafety where
  fits := by
    rw [hconfined.allocator, hconfined.size]
    exact h.fits
  live k hk := by
    rw [hconfined.allocator]
    exact h.live k (hconfined.reach k hk)
  known u := by
    by_cases hu : u = t
    · subst hu
      rwa [hstage, Function.update_self]
    · rw [hstage, Function.update_of_ne hu]
      exact hothers u hu

/-- A step that at most lets go of some roots. -/
theorem onlyReleases (h : c.CellSafety) (honly : c.OnlyReleases c')
    (hstage : c'.stage = Function.update c.stage t stage) (hknows : c.knows stage) :
    c'.CellSafety :=
  h.update honly.confined hstage (fun u _ => honly.knows (h.known u)) (honly.knows hknows)

/-- A step inside a scope: nobody marks or sweeps meanwhile. -/
theorem inScope (h : c.CellSafety) (hm : c.LockOwnership) (hp : c.Paused)
    (hscope : (c.stage t).hasScope = true) (hconfined : c.Confined c')
    (hstage : c'.stage = Function.update c.stage t stage) (hfree : stage.hasLock = false) :
    c'.CellSafety := by
  refine h.update hconfined hstage (fun u hu => ?_) (knows_of_unlocked hfree)
  cases hpausing : (c.stage u).pausing with
  | false => exact hconfined.knows hpausing (h.known u)
  | true =>
    have hheld : c.gate.holder = some u := (hp.holder_iff u).2 hpausing
    cases hpoint : c.stage u with
    | working task point =>
      -- the gate is quiet for who works while it is closed
      have hreturned : (c.stage u).wait ≠ .silence := by
        rw [hpoint]
        exact (nomatch ·)
      have hquiet := Gate.quiet_iff.1 (hm.inv.silent u hheld hreturned)
      exact absurd (hquiet t (hm.mem_scopes_iff.2 hscope)).symm hu
    | draining cause => trivial
    | _ =>
      rw [hpoint] at hpausing
      cases hpausing

/-- A step of the thread that has the allocator. -/
theorem locked (hm : c.LockOwnership) (hlock : c.lock = some t)
    (hstage : c'.stage = Function.update c.stage t stage)
    (hfits : c'.machine.allocator.Fits c'.heap.size)
    (hlive : ∀ k, c'.reaches k → c'.machine.allocator.hasAllocated k = true)
    (hknows : c'.knows stage) : c'.CellSafety where
  fits := hfits
  live := hlive
  known u := by
    by_cases hu : u = t
    · subst hu
      rwa [hstage, Function.update_self]
    · rw [hstage, Function.update_of_ne hu]
      refine knows_of_unlocked (Bool.eq_false_iff.2 fun hhas => hu ?_)
      exact Option.some.inj (((hm.lock_iff u).2 hhas).symm.trans hlock)

/-- What mark and sweep takes from the free list it hands out cleared, and nothing reaches it. -/
theorem handOut (h : c.CellSafety) :
    (MarkSweep.take t c.machine.toArena).2.allocator.Fits
        (MarkSweep.take t c.machine.toArena).2.heap.size ∧
      (∀ k, (MarkSweep.take t c.machine.toArena).2.heap.Reaches c.calls.roots k →
        (MarkSweep.take t c.machine.toArena).2.allocator.hasAllocated k = true) ∧
      ∀ o, (MarkSweep.take t c.machine.toArena).1 = .ok o →
        (MarkSweep.take t c.machine.toArena).2.heap.contains o = true ∧
          (MarkSweep.take t c.machine.toArena).2.allocator.hasAllocated o = true ∧
          ¬ (MarkSweep.take t c.machine.toArena).2.heap.Reaches c.calls.roots o ∧
          (MarkSweep.take t c.machine.toArena).2.heap.references o = [] := by
  have hfits : c.machine.allocator.Fits c.machine.heap.size := h.fits
  unfold MarkSweep.take
  split
  · refine ⟨hfits, fun k hk => h.live k hk, fun o ho => ?_⟩
    cases ho
  · rename_i o free hfree
    obtain ⟨h0, hlt, hflag⟩ := (hfits.free_iff o).1 (hfree ▸ List.mem_cons_self)
    have hcell : c.machine.heap.contains o = true := Heap.contains_iff.2 ⟨h0, hlt⟩
    obtain ⟨cell, hok, -⟩ := Heap.cell_of_contains hcell
    obtain ⟨htaken, hflags⟩ := hfits.take c.machine.allocator.stats.countAllocation hfree
    dsimp only
    rw [hok]
    refine ⟨?_, fun k hk => ?_, fun k hk => ?_⟩
    · show MarkSweep.Fits _ (c.machine.heap.clear o).size
      rw [Heap.size_clear]
      exact htaken
    · exact (hflags k).2 (.inr (h.live k hk.of_clear_of_roots))
    · obtain rfl := Except.ok.inj hk
      refine ⟨?_, (hflags o).2 (.inl rfl), fun hreach => ?_, ?_⟩
      · show (c.machine.heap.clear o).contains o = true
        rw [Heap.contains, Heap.size_clear]
        exact hcell
      · rw [h.live o hreach.of_clear_of_roots] at hflag
        cases hflag
      · show (c.machine.heap.clear o).references o = []
        rw [Heap.Reaches.references_clear, if_pos rfl]

/-- Mark and sweep at work. -/
theorem work (h : c.CellSafety) (hm : c.LockOwnership) {task : AllocatorTask}
    {point next : MarkSweep.ControlPoint} {m : MarkSweep} {heap : Heap} {log : Array Entry}
    (hworking : c.stage t = .working task point)
    (hwork : MarkSweep.Work t task.request c.machine.toArena point m heap next) :
    ((c.withMachine { c.machine with allocator := m, heap, log }).put t
      (.working task next)).CellSafety := by
  have hlock : c.lock = some t := (hm.lock_iff t).2 (by rw [hworking]; rfl)
  have hknows : c.knows (.working task point) := hworking ▸ h.known t
  have hfits : c.machine.allocator.Fits c.machine.heap.size := h.fits
  cases hwork with
  | handOut ready =>
    obtain ⟨htaken, hlive, hgiven⟩ := h.handOut (t := t)
    refine .locked hm hlock rfl htaken hlive ?_
    generalize MarkSweep.take t c.machine.toArena = taken at hgiven ⊢
    obtain ⟨fault | o, arena⟩ := taken
    · cases task <;> trivial
    · cases task with
      | object env =>
        obtain ⟨hcell, hcounted, hunreached, hblank⟩ := hgiven o rfl
        exact ⟨hcell, hcounted, hunreached, hblank⟩
      | collection => trivial
  | mark roots =>
    refine .locked hm hlock rfl (hfits.mark roots) (fun k hk => h.live k hk) fun k hk => ?_
    have hreach : c.machine.heap.Reaches roots k := Heap.Reaches.mono hknows hk
    show (c.machine.allocator.mark c.machine.heap roots).marks.has k = true
    rw [MarkSweep.mark, hfits.marks]
    exact Heap.has_mark_iff.2 ⟨h.contains (h.live k hk), hreach⟩
  | sweep found =>
    refine .locked hm hlock rfl hfits.sweep (fun k hk => ?_) trivial
    refine MarkSweep.hasAllocated_sweep.2 ⟨h.live k hk, fun hdead => ?_⟩
    exact absurd (hknows k hk) (Bool.eq_false_iff.1 (MarkSweep.mem_dead_iff.1 hdead).2.2)
  | count stats ends =>
    refine .locked hm hlock rfl ?_ (fun k hk => h.live k hk) ?_
    · exact ⟨hfits.bound, hfits.marks, hfits.flags, hfits.sorted, hfits.free_iff, hfits.flagged⟩
    · rcases ends with rfl | ⟨fault, rfl⟩ | ⟨hrequest, reclaimed, rfl⟩
      · trivial
      · cases task <;> trivial
      · cases task with
        | object env => cases hrequest
        | collection => trivial

/-- No frame is given a cell that it holds. -/
theorem not_holds (h : c.CellSafety) (hc : c.StackOwnership) {env : Env} {o : Handle}
    (hreceiving : c.stage t = .receiving env o) : ¬ (c.machine.frame env).holds o = true := by
  intro hheld
  have hknown := h.known t
  rw [hreceiving] at hknown
  exact hknown.unreached (.root (hc.mem_roots (Frame.holds_iff.1 hheld)))

/-- A frame comes to hold the cell that its thread got for it. -/
theorem receive (h : c.CellSafety) (hm : c.LockOwnership) (hc : c.StackOwnership) {env : Env}
    {o : Handle} (hreceiving : c.stage t = .receiving env o) :
    ((c.receive t env o).put t .unlocking).CellSafety := by
  have hlock : c.lock = some t := (hm.lock_iff t).2 (by rw [hreceiving]; rfl)
  have hknown : c.Unclaimed o := by
    have hknown := h.known t
    rwa [hreceiving] at hknown
  have hactive : (c.calls.frame env.frame).state = .active := by
    have hrelies := hc.relied t
    rw [hreceiving] at hrelies
    exact hrelies.active
  unfold Crew.receive
  rw [if_neg (h.not_holds hc hreceiving)]
  refine .locked hm hlock rfl ?_ (fun k hk => ?_) trivial
  · show MarkSweep.Fits (Machine.traced _ t _).allocator (Machine.traced _ t _).heap.size
    rw [Machine.allocator_traced, Machine.heap_traced]
    exact h.fits
  · have hk : (Machine.traced _ t _).heap.Reaches (Machine.traced _ t _).calls.roots k := hk
    show MarkSweep.hasAllocated (Machine.traced _ t _).allocator k = true
    rw [Machine.heap_traced, Machine.calls_traced] at hk
    rw [Machine.allocator_traced]
    have hreach : k = o ∨ c.reaches k := Heap.Reaches.of_blank
      (fun r hr => CallStacks.mem_roots_hold (CallStacks.lt_size_of_active hactive) hr)
      hknown.blank hk
    rcases hreach with rfl | hreach
    · exact hknown.counted
    · exact h.live k hreach

/-- Steps of threads that behave keep the books in order. -/
theorem step (h : c.CellSafety) (hm : c.LockOwnership) (hp : c.Paused) (hc : c.StackOwnership)
    (hbehaves : c.behaves t) (hstep : c.Step t c') : c'.CellSafety := by
  cases hstep with
  | begin idle next first =>
    exact h.onlyReleases (.of_same rfl) rfl (knows_of_unlocked (first_cases first).2.2)
  | register idle next plain =>
    refine h.onlyReleases ⟨rfl, rfl, fun r hr => ?_⟩ rfl trivial
    exact CallStacks.roots_register (t := c.calls) ▸ hr
  | @atOnce action rest idle next simple free =>
    obtain ⟨hpermits, horderly, -⟩ := hbehaves idle _ (by rw [next]; rfl)
    have honly := calm_perform (t := t) hc simple horderly hpermits
    have hidle : c.stage = Function.update c.stage t .idle :=
      (Function.update_eq_self_iff.2 idle.symm).symm
    exact h.onlyReleases ⟨honly.allocator, honly.heap, honly.roots⟩ hidle trivial
  | sleep awake barred =>
    exact h.onlyReleases (.of_same rfl) (Function.update_eq_self t c.stage).symm (h.known t)
  | enter entering awake admitted => exact h.onlyReleases (.of_calls rfl rfl rfl) rfl trivial
  | @operate action fits inside =>
    have hrelies := hc.relied t
    rw [inside] at hrelies
    have hconfined := confined_perform (t := t) hc fits hrelies.1
    exact h.inScope hm hp (by rw [inside]; rfl)
      ⟨hconfined.allocator, hconfined.size, hconfined.reach, hconfined.links⟩ rfl rfl
  | @check env inside =>
    unfold Crew.check
    split
    · exact h.onlyReleases (.of_same rfl) rfl trivial
    · exact h.onlyReleases (.of_same rfl) rfl trivial
  | enterRun inside => exact h.onlyReleases ⟨rfl, rfl, roots_opened hc⟩ rfl trivial
  | leaveRun inside => exact h.onlyReleases ⟨rfl, rfl, roots_pop hc⟩ rfl trivial
  | leave leaving => exact h.onlyReleases (.of_calls rfl rfl rfl) rfl (knows_of_unlocked (by simp))
  | unregister unregistering => exact h.onlyReleases ⟨rfl, rfl, roots_unregister⟩ rfl trivial
  | @lock task locking free =>
    exact h.onlyReleases (.of_same rfl) rfl trivial
  | work working nextStep => exact h.work hm working (MarkSweep.work_of_nextStep nextStep)
  | callStop working nextStep => exact h.onlyReleases (.of_same rfl) rfl trivial
  | scan working nextStep =>
    obtain ⟨rfl, hok, -⟩ := MarkSweep.scan_of_nextStep nextStep
    have hheld : c.gate.holder = some t := (hp.holder_iff t).2 (by rw [working]; rfl)
    refine h.onlyReleases (.of_same rfl) rfl ?_
    rw [roots_eq hheld, hok]
    exact fun _ => id
  | resume working nextStep =>
    obtain ⟨found, rfl, rfl⟩ := MarkSweep.resume_of_nextStep nextStep
    refine h.onlyReleases (.of_calls ?_ ?_ rfl) rfl trivial
    · exact Arena.allocator_resume
    · exact Arena.heap_resume
  | deliver working nextStep =>
    obtain rfl | ⟨-, hnone⟩ := MarkSweep.done_of_nextStep nextStep
    · have hknown := h.known t
      rw [working] at hknown
      exact h.onlyReleases (.of_same rfl) rfl hknown
    · cases hnone
  | deny working nextStep => exact h.onlyReleases (.of_same rfl) rfl trivial
  | finish working nextStep => exact h.onlyReleases (.of_same rfl) rfl trivial
  | close stopping awake admitted still =>
    obtain ⟨task, rfl⟩ := hp.causes t _ (.inl stopping)
    exact h.onlyReleases (.of_calls rfl rfl rfl) rfl trivial
  | claim stopping awake unheld loud => exact h.onlyReleases (.of_calls rfl rfl rfl) rfl trivial
  | drained draining awake still =>
    obtain ⟨task, rfl⟩ := hp.causes t _ (.inr draining)
    exact h.onlyReleases (.of_same rfl) rfl trivial
  | receive receiving => exact h.receive hm hc receiving
  | unlock unlocking => exact h.onlyReleases (.of_same rfl) rfl trivial

end CellSafety

/-- On a machine that was just built every crew of threads that behave keeps the books in order. -/
theorem Ran.cellSafety {first : Thread} {heap : Heap} {allocator : MarkSweep}
    {config : MachineConfig} {start : Machine MarkSweep} {todo : Thread → List Action}
    (hbuild : Machine.build first heap allocator config = .ok start)
    (hran : Ran behaves (.opening start todo) c) :
    c.LockOwnership ∧ c.Paused ∧ c.StackOwnership ∧ c.CellSafety := by
  have hgate := gate_of_build hbuild
  have hcalls := Session.calls_of_build hbuild
  have hoff {c : Crew MarkSweep} {t : Thread} (hbehaves : c.behaves t) : c.offGate t := by
    intro hidle action haction
    have horderly := (hbehaves hidle action haction).2.1
    cases action <;> first | rfl | cases horderly
  have howner {c : Crew MarkSweep} (hran : Ran behaves (.opening start todo) c) : c.LockOwnership :=
    hran.lockOwnership hgate
  have hpaused {c : Crew MarkSweep} (hran : Ran behaves (.opening start todo) c) : c.Paused :=
    hran.paused hgate fun _ _ _ => hoff
  have howns {c : Crew MarkSweep} (hran : Ran behaves (.opening start todo) c) :
      c.StackOwnership := hran.stackOwnership hcalls fun _ _ => id
  refine ⟨howner hran, hpaused hran, howns hran, ?_⟩
  induction hran with
  | start =>
    have hready := (Session.ready_of_build hbuild).1
    have hempty : (opening start todo).calls = .empty := hcalls
    refine ⟨hready.fits, fun h hh => ?_, fun _ => trivial⟩
    unfold reaches at hh
    rw [hempty] at hh
    exact absurd hh Heap.not_reaches_empty
  | step ran kept hstep ih => exact ih.step (howner ran) (hpaused ran) (howns ran) kept hstep

/-! ### What comes of it -/

/-- What comes on the free list has been swept. -/
theorem Step.free {h : Handle} (hstep : c.Step t c') (hfree : h ∈ c'.machine.allocator.free) :
    h ∈ c.machine.allocator.free ∨
      (∃ task, c.stage t = .working task .sweeping) ∧ h ∈ c.machine.allocator.dead c.heap := by
  cases hstep with
  | @atOnce action rest idle next simple free =>
    have hsame := allocator_perform (c := c) (t := t) (.inr simple)
    exact .inl (hsame ▸ hfree)
  | @operate action fits inside =>
    have hsame := allocator_perform (c := c) (t := t) (.inl fits)
    exact .inl (hsame ▸ hfree)
  | check inside =>
    left
    unfold Crew.check at hfree
    split at hfree <;> exact hfree
  | work working nextStep =>
    replace hfree : h ∈ MarkSweep.free _ := hfree
    cases MarkSweep.work_of_nextStep nextStep with
    | handOut ready =>
      left
      unfold MarkSweep.take at hfree
      split at hfree
      · exact hfree
      · rename_i o free hlist
        have hmem : h ∈ free := by
          dsimp only at hfree
          split at hfree <;> exact hfree
        have hlist : c.machine.allocator.free = o :: free := hlist
        rw [hlist]
        exact List.mem_cons_of_mem _ hmem
    | mark roots => exact .inl hfree
    | sweep found =>
      exact (MarkSweep.mem_free_sweep.1 hfree).imp_right fun hdead => ⟨⟨_, working⟩, hdead⟩
    | count stats ends => exact .inl hfree
  | resume working nextStep =>
    left
    have hsame : (c.machine.resume t).allocator = c.machine.allocator := Arena.allocator_resume
    exact hsame ▸ hfree
  | @close cause stopping awake admitted still => cases cause <;> exact .inl hfree
  | @drained cause draining awake still => cases cause <;> exact .inl hfree
  | @receive env o receiving =>
    left
    have hsame : (c.receive t env o).machine.allocator = c.machine.allocator := by
      unfold Crew.receive
      split
      · rfl
      · exact Machine.allocator_traced
    exact hsame ▸ hfree
  | _ => exact .inl hfree

/-- A new object is returned to who has just received it. -/
theorem Step.receiving {env : Env} {h : Handle} (hstep : c.Step t c')
    (hpast : c'.past = ⟨t, .newObject env, .ok h⟩ :: c.past) : c.stage t = .receiving env h := by
  have hmore : c.past ≠ ⟨t, .newObject env, .ok h⟩ :: c.past := (List.cons_ne_self _ _).symm
  cases hstep with
  | atOnce idle next simple free =>
    obtain ⟨-, rfl, -⟩ := Move.mk.inj (List.cons.inj hpast).1
    cases simple
  | @operate action fits inside =>
    obtain ⟨-, rfl, -⟩ := Move.mk.inj (List.cons.inj hpast).1
    cases fits
  | check inside =>
    unfold Crew.check at hpast
    split at hpast
    · exact absurd hpast hmore
    · cases (List.cons.inj hpast).1
  | enterRun inside => cases (List.cons.inj hpast).1
  | leaveRun inside => cases (List.cons.inj hpast).1
  | deny working nextStep => cases (List.cons.inj hpast).1
  | finish working nextStep => cases (List.cons.inj hpast).1
  | @close cause stopping awake admitted still =>
    cases cause with
    | program => cases (List.cons.inj hpast).1
    | allocator task next => exact absurd hpast hmore
  | @drained cause draining awake still =>
    cases cause with
    | program => cases (List.cons.inj hpast).1
    | allocator task next => exact absurd hpast hmore
  | @receive env' o receiving =>
    unfold Crew.receive at hpast
    split at hpast
    · cases (List.cons.inj hpast).1
    · cases (List.cons.inj hpast).1
      exact receiving
  | _ => exact absurd hpast hmore

/-- What makes allocating and rooting one. -/
structure Atomic (c : Crew MarkSweep) : Prop where
  /-- Where a collection looks at the roots, nobody carries a cell from the allocator to a frame,
  and nobody else is inside a scope. -/
  scanned : ∀ t task point next, c.stage t = .working task point →
    Staged.nextStep t task.request point c.machine.toArena = .scan next →
      ∀ u, (c.stage u).carries = none ∧
        (u ≠ t → (c.stage u).hasScope = false ∧ u ∉ c.gate.scopes)
  live : ∀ f h, c.heap.Reaches (c.calls.frame f).handles h → c.machine.allocator.HandedOut h
  kept : ∀ t c' f h, c.Step t c' → c.heap.Reaches (c.calls.frame f).handles h →
    h ∉ c'.machine.allocator.free
  /-- No object is returned as new that is in reach of a frame. -/
  fresh : ∀ t c' env h, c.Step t c' → c'.past = ⟨t, .newObject env, .ok h⟩ :: c.past →
    ∀ f, ¬ c.heap.Reaches (c.calls.frame f).handles h

theorem CellSafety.indivisible (h : c.CellSafety) (hm : c.LockOwnership) (hp : c.Paused)
    (hc : c.StackOwnership) :
    c.Atomic := by
  have hreach {f : FrameRef} {k : Handle} (hk : c.heap.Reaches (c.calls.frame f).handles k) :
      c.reaches k := hk.mono fun r hr => hc.mem_roots hr
  have hlive {f : FrameRef} {k : Handle} (hk : c.heap.Reaches (c.calls.frame f).handles k) :
      c.machine.allocator.HandedOut k := h.fits.handedOut_iff.2 (h.live k (hreach hk))
  refine ⟨fun t task point next hworking hnextStep u => ⟨?_, fun hu => ?_⟩, fun f k => hlive,
    fun t c' f k hstep hk hfree => ?_, fun t c' env o hstep hpast f hk => ?_⟩
  · -- who carries a cell has the allocator
    obtain ⟨rfl, -, -⟩ := MarkSweep.scan_of_nextStep hnextStep
    have hlock : c.lock = some t := (hm.lock_iff t).2 (by rw [hworking]; rfl)
    have hcarries {stage : Stage MarkSweep.ControlPoint} {o : Handle}
        (ho : stage.carries = some o) :
        stage.hasLock = true := by
      unfold Stage.carries at ho
      split at ho <;> first | rfl | cases ho
    cases ho : (c.stage u).carries with
    | none => rfl
    | some o =>
      have hhas := (hm.lock_iff u).2 (hcarries ho)
      obtain rfl := Option.some.inj (hhas.symm.trans hlock)
      rw [hworking] at ho
      cases task <;> cases ho
  · -- the gate is closed and quiet
    obtain ⟨rfl, -, -⟩ := MarkSweep.scan_of_nextStep hnextStep
    have hheld : c.gate.holder = some t := (hp.holder_iff t).2 (by rw [hworking]; rfl)
    have hreturned : (c.stage t).wait ≠ .silence := by
      rw [hworking]
      exact (nomatch ·)
    have hout : u ∉ c.gate.scopes := fun hmem =>
      hu (Gate.quiet_iff.1 (hm.inv.silent t hheld hreturned) u hmem)
    exact ⟨Bool.eq_false_iff.2 fun hscope => hout (hm.mem_scopes_iff.2 hscope), hout⟩
  · rcases hstep.free hfree with hold | ⟨⟨task, hsweeping⟩, hdead⟩
    · exact (hlive hk).2 hold
    · have hmarked := h.known t
      rw [hsweeping] at hmarked
      have hmark := hmarked k (hreach hk)
      rw [(MarkSweep.mem_dead_iff.1 hdead).2.2] at hmark
      cases hmark
  · have hknown := h.known t
    rw [hstep.receiving hpast] at hknown
    exact hknown.unreached (hreach hk)

/-- Over mark and sweep, whatever threads that behave do on stacks of their own and in whichever
order they take their steps, an object is allocated and rooted as one. -/
theorem Ran.atomic {first : Thread} {heap : Heap} {allocator : MarkSweep} {config : MachineConfig}
    {start : Machine MarkSweep} {todo : Thread → List Action}
    (hbuild : Machine.build first heap allocator config = .ok start)
    (hran : Ran behaves (.opening start todo) c) : c.Atomic := by
  obtain ⟨hm, hp, hc, hs⟩ := hran.cellSafety hbuild
  exact hs.indivisible hm hp hc

/-- One thread makes two objects and the other one, where there is room for two. -/
def crowding : Thread → List Action
  | 0 => [.beginRun "first" [], .newObject ⟨0, 0⟩, .newObject ⟨0, 0⟩]
  | 1 => [.beginRun "second" [], .newObject ⟨1, 1⟩]
  | _ => []

/-- What is said of all crews, said of one in which a request finds no free cell, since the other
thread took what there was after the frame was checked, and is about to look at the roots. -/
theorem atomic_of_crowding :
    ∃ (start : Machine MarkSweep) (c : Crew MarkSweep),
      Machine.build Thread.first (.ofSize 3 2) (MarkSweep.fresh .zero) .standard = .ok start ∧
        Ran behaves (.opening start crowding) c ∧ c.gate.holder = some 1 ∧
        c.calls.roots = [1, 2] ∧ c.machine.allocator.free = [] ∧ c.Atomic := by
  have hseen : observed behaves (.ofSize 3 2) (MarkSweep.fresh .zero) crowding
      (List.replicate 4 0 ++ List.replicate 8 1 ++ List.replicate 18 0 ++ List.replicate 3 1)
      (fun c => (c.gate.holder, c.calls.roots, c.machine.allocator.free)) =
        some (some 1, [1, 2], []) := by decide +kernel
  obtain ⟨start, c, hbuild, hran, hsights⟩ := exists_ran_of_observed hseen
  obtain ⟨hheld, hrest⟩ := Prod.mk.inj hsights
  obtain ⟨hroots, hfree⟩ := Prod.mk.inj hrest
  exact ⟨start, c, hbuild, hran, hheld, hroots, hfree, hran.atomic hbuild⟩

end Crew

end RootedHeap
