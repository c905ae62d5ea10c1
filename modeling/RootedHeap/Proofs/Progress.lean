import RootedHeap.Proofs.Schedules

/-!
Threads that never stick. A thread can wait for the allocator, or at the gate for the end of a stop
or for scopes to be dropped. Over mark and sweep, with programs that leave the gate to the machine,
whoever has the gate closed has the allocator (`Paused`), and who has the allocator waits for
nothing but open scopes, in which nobody waits. So somebody can always go on, and no sleeper is
forgotten.
-/

namespace RootedHeap

/-- Whether an action leaves the gate to the machine. -/
def Action.offGate : Action → Bool
  | .stop | .resume => false
  | _ => true

/-- Whether mark and sweep has the gate closed. -/
def MarkSweep.ControlPoint.pausing : MarkSweep.ControlPoint → Bool
  | .scanning | .marking _ | .sweeping | .resuming _ => true
  | _ => false

/-- Whether a thread has the gate closed. -/
def Stage.pausing : Stage MarkSweep.ControlPoint → Bool
  | .working _ point => point.pausing
  | .draining _ => true
  | _ => false

namespace MarkSweep

variable {t : Thread} {request : Request} {point next : ControlPoint} {a : Arena MarkSweep}

/-- Work neither closes the gate nor opens it. -/
theorem Work.pausing {m : MarkSweep} {heap : Heap} (hwork : Work t request a point m heap next) :
    next.pausing = point.pausing := by
  cases hwork with
  | handOut ready => rcases ready with rfl | rfl <;> rfl
  | mark roots => rfl
  | sweep found => rfl
  | count stats ends => rcases ends with rfl | ⟨fault, rfl⟩ | ⟨-, reclaimed, rfl⟩ <;> rfl

end MarkSweep

namespace Crew

section Awake

variable {A : Type} [Allocator A] [Staged A] {c c' : Crew A} {t u : Thread}

def unfinished (c : Crew A) (t : Thread) : Prop := c.stage t ≠ .idle ∨ c.todo t ≠ []

/-- Whether a thread that is about to begin an action leaves the gate to the machine. -/
def offGate (c : Crew A) (t : Thread) : Prop :=
  c.stage t = .idle → ∀ action ∈ (c.todo t).head?, action.offGate = true

/-- A thread has nothing to do that it did not have before. -/
theorem Step.todo_subset (hstep : c.Step t c') (u : Thread) : c'.todo u ⊆ c.todo u := by
  have htake {action : Action} {rest : List Action} (hnext : c.todo t = action :: rest) :
      (c.takeUp t rest).todo u ⊆ c.todo u := by
    intro a ha
    simp only [takeUp, Function.update_apply] at ha
    split at ha
    · rename_i hu
      rw [hu, hnext]
      exact List.mem_cons_of_mem _ ha
    · exact ha
  cases hstep with
  | begin idle next first => exact htake next
  | register idle next plain => exact htake next
  | atOnce idle next simple free => exact htake next
  | check inside =>
    unfold Crew.check
    split <;> exact fun _ => id
  | @close cause stopping awake admitted still => cases cause <;> exact fun _ => id
  | @drained cause draining awake still => cases cause <;> exact fun _ => id
  | receive receiving =>
    unfold Crew.receive
    split <;> exact fun _ => id
  | _ => exact fun _ => id

theorem Ran.todo_subset {rule : Crew A → Thread → Prop} {start : Crew A} (hran : Ran rule start c)
    (u : Thread) : c.todo u ⊆ start.todo u := by
  induction hran with
  | start => exact fun _ => id
  | step _ _ hstep ih => exact fun _ ha => ih (hstep.todo_subset u ha)

/-- An action is done at once, begins at a stage, or is a run that begins with a stack. -/
theorem begin?_isSome {action : Action} {rest : List Action}
    (hfree : action = .stats → c.lock = none) : (c.begin? t rest action).isSome = true := by
  unfold begin?
  split
  · rfl
  · rename_i hfirst
    split
    · split
      · rename_i hlock _
        rw [hfree rfl] at hlock
        cases hlock
      · rfl
    · rename_i hslow
      cases action with
      | beginRun name args => rfl
      | _ => first | exact (hslow rfl).elim | cases hfirst

/-- A thread that is awake and does not wait for the allocator can go on. -/
theorem next?_isSome (hawake : c.asleep t = false) (hleft : c.unfinished t)
    (hfree : c.lock = none ∨ (c.stage t).hasLock = true) : (c.next? t).isSome = true := by
  have hlock : (c.stage t).hasLock = false → c.lock = none := fun hnot =>
    hfree.resolve_right (by simp [hnot])
  unfold next?
  rw [hawake]
  cases hstage : c.stage t with
  | idle =>
    rw [hstage] at hlock
    cases htodo : c.todo t with
    | nil => exact absurd htodo (hleft.resolve_left (not_not_intro hstage))
    | cons action rest => exact begin?_isSome fun _ => hlock rfl
  | locking task =>
    rw [hstage] at hlock
    simp [hlock rfl]
  | _ => rfl

/-- A thread that has a scope open can go on. -/
theorem LockOwnership.next?_isSome_of_scope (h : c.LockOwnership)
    (hscope : (c.stage t).hasScope = true) :
    (c.next? t).isSome = true := by
  have hawake : c.asleep t = false := h.inv.awake_of_nothing (by
    show (c.stage t).wait = .nothing
    cases hstage : c.stage t <;> rw [hstage] at hscope <;> first | rfl | cases hscope)
  unfold next?
  rw [hawake]
  cases hstage : c.stage t <;> rw [hstage] at hscope <;> first | rfl | cases hscope

theorem LockOwnership.next?_isSome_of_loud (h : c.LockOwnership) (hloud : c.gate.quiet t = false) :
    ∃ u, (c.next? u).isSome = true := by
  rw [← Bool.not_eq_true, Gate.quiet_iff] at hloud
  obtain ⟨u, hu⟩ := Classical.not_forall.1 hloud
  obtain ⟨hmem, -⟩ := Classical.not_imp.1 hu
  exact ⟨u, h.next?_isSome_of_scope (h.mem_scopes_iff.1 hmem)⟩

/-- A step sends one thread to sleep, or wakes everybody, or leaves sleepers as they are. -/
theorem Step.asleep (hstep : c.Step t c') :
    c'.asleep = c.asleep ∨ c'.asleep = Function.update c.asleep t true ∨
      c'.asleep = fun _ => false := by
  have hnotify : ∀ (c₁ : Crew A) (reason : Bool), c₁.asleep = c.asleep →
      (c₁.notifyAll reason).asleep = c.asleep ∨ (c₁.notifyAll reason).asleep = fun _ => false := by
    intro c₁ reason hsame
    cases reason
    · exact .inl hsame
    · exact .inr rfl
  cases hstep with
  | atOnce idle next simple free => exact (hnotify _ _ rfl).imp_right .inr
  | sleep awake barred => exact .inr (.inl rfl)
  | check inside =>
    unfold Crew.check
    split <;> exact .inl rfl
  | leave leaving => exact (hnotify _ _ rfl).imp_right .inr
  | resume working nextStep => exact (hnotify _ _ rfl).imp_right .inr
  | @close cause stopping awake admitted still => cases cause <;> exact .inl rfl
  | claim stopping awake unheld loud => exact .inr (.inl rfl)
  | @drained cause draining awake still => cases cause <;> exact .inl rfl
  | receive receiving => exact .inl asleep_receive
  | _ => exact .inl rfl

/-- The step that lets a sleeper through wakes everybody. -/
theorem LockOwnership.notified (h : c.LockOwnership) (hsleeps : c.asleep t = true)
    (hstep : c.Step u c')
    (hadmits : c'.gate.admits t (c'.stage t).wait = true) (v : Thread) : c'.asleep v = false := by
  have hawake : c'.asleep t = false := by
    rw [← Bool.not_eq_true]
    intro hasleep
    have hbarred := (h.step hstep).inv.barred t hasleep
    exact absurd hadmits (Bool.eq_false_iff.1 hbarred)
  rcases hstep.asleep with hsame | hfall | hall
  · rw [hsame, hsleeps] at hawake
    cases hawake
  · rw [hfall, Function.update_apply] at hawake
    split at hawake
    · cases hawake
    · rw [hsleeps] at hawake
      cases hawake
  · rw [hall]

end Awake

/-! ### Who has the gate closed -/

variable {c c' : Crew MarkSweep} {t u : Thread}

/-- The gate is the allocator's: it is closed by the thread that collects, once, and by no other. -/
structure Paused (c : Crew MarkSweep) : Prop where
  causes : ∀ t cause, c.stage t = .stopping cause ∨ c.stage t = .draining cause →
    ∃ task, cause = .allocator task MarkSweep.ControlPoint.scanning
  holder_iff : ∀ t, c.gate.holder = some t ↔ (c.stage t).pausing = true
  stops_le : c.gate.stops ≤ 1

/-- An action that leaves the gate alone begins at a scope or at the allocator. -/
theorem first_offGate {action : Action} {stage : Stage MarkSweep.ControlPoint}
    (hoff : action.offGate = true) (hfirst : action.first = some stage) :
    stage.pausing = false ∧ ∀ cause, ¬ (stage = .stopping cause ∨ stage = .draining cause) := by
  unfold Action.first at hfirst
  split at hfirst
  · obtain rfl := Option.some.inj hfirst
    exact ⟨rfl, by simp⟩
  · obtain rfl := Option.some.inj hfirst
    exact ⟨rfl, by simp⟩
  · obtain rfl := Option.some.inj hfirst
    exact ⟨rfl, by simp⟩
  · cases hoff
  · split at hfirst
    · obtain rfl := Option.some.inj hfirst
      exact ⟨rfl, by simp⟩
    · cases hfirst

namespace Paused

variable {stage old : Stage MarkSweep.ControlPoint}

/-- A step of one thread keeps the gate the allocator's if it does so for that thread. -/
theorem update (h : c.Paused)
    (hstage : c'.stage = Function.update c.stage t stage)
    (hcauses : ∀ cause, stage = .stopping cause ∨ stage = .draining cause →
      ∃ task, cause = .allocator task MarkSweep.ControlPoint.scanning)
    (hholder : c'.gate.holder = some t ↔ stage.pausing = true)
    (hholders : ∀ u ≠ t, (c'.gate.holder = some u ↔ c.gate.holder = some u))
    (hstops : c'.gate.stops ≤ 1) : c'.Paused where
  causes u cause hu := by
    by_cases hut : u = t
    · subst hut
      rw [hstage, Function.update_self] at hu
      exact hcauses cause hu
    · rw [hstage, Function.update_of_ne hut] at hu
      exact h.causes u cause hu
  holder_iff u := by
    by_cases hut : u = t
    · subst hut
      rw [hstage, Function.update_self, hholder]
    · rw [hstage, Function.update_of_ne hut, hholders u hut, h.holder_iff]
  stops_le := hstops

/-- A thread that goes on without touching the gate. -/
theorem put (h : c.Paused) (hold : c.stage t = old)
    (hstage : c'.stage = Function.update c.stage t stage)
    (hcauses : ∀ cause, ¬ (stage = .stopping cause ∨ stage = .draining cause))
    (hpausing : stage.pausing = old.pausing) (hgate : c'.gate.holder = c.gate.holder)
    (hstops : c'.gate.stops = c.gate.stops) : c'.Paused :=
  h.update hstage (fun cause hcause => (hcauses cause hcause).elim)
    (by rw [hgate, h.holder_iff, hold, hpausing]) (fun u _ => by rw [hgate])
    (hstops ▸ h.stops_le)

/-- A stop by a thread that has not closed the gate finds it open. -/
theorem holder_of_stopping {cause : StopCause MarkSweep.ControlPoint} (h : c.Paused)
    (hstopping : c.stage t = .stopping cause) (hlets : c.gate.lets t = true) :
    c.gate.holder = none := by
  cases hholder : c.gate.holder with
  | none => rfl
  | some u =>
    obtain rfl := Gate.lets_iff.1 hlets u hholder
    have hpausing := (h.holder_iff u).1 hholder
    rw [hstopping] at hpausing
    cases hpausing

/-- The allocator's stop of a gate that is open. -/
theorem close {cause : StopCause MarkSweep.ControlPoint} (h : c.Paused)
    (hstopping : c.stage t = .stopping cause)
    (hlets : c.gate.lets t = true) (hgate : c'.gate = c.gate.close t)
    (hstage : c'.stage = Function.update c.stage t stage) (hpausing : stage.pausing = true)
    (hcauses : ∀ other, stage = .stopping other ∨ stage = .draining other → other = cause) :
    c'.Paused := by
  have hopen := h.holder_of_stopping hstopping hlets
  refine h.update hstage
    (fun other hother => hcauses other hother ▸ h.causes t cause (.inl hstopping)) ?_
    (fun u hu => ?_) ?_
  · rw [hgate, Gate.holder_close hlets]
    simp [hpausing]
  · rw [hgate, Gate.holder_close hlets, hopen]
    simp [hu.symm]
  · exact Nat.le_of_eq (hgate ▸ Gate.stops_close_of_open hopen)

/-- No step makes the gate anybody else's than the allocator's. -/
theorem step (h : c.Paused) (hoff : c.offGate t) (hstep : c.Step t c') : c'.Paused := by
  cases hstep with
  | begin idle next first =>
    obtain ⟨hpausing, hcauses⟩ := first_offGate (hoff idle _ (by rw [next]; rfl)) first
    exact h.put idle rfl hcauses hpausing rfl rfl
  | register idle next plain => exact h.put idle rfl (by simp) rfl rfl rfl
  | @atOnce action rest idle next simple free =>
    have hasked : action.offGate = true := hoff idle _ (by rw [next]; rfl)
    have hgate : (c.perform t action).gate = c.gate :=
      gate_perform_atOnce simple (by rintro rfl; cases hasked)
    exact ⟨h.causes,
      fun u => (congrArg (Gate.holder · = some u) hgate).to_iff.trans (h.holder_iff u),
      Nat.le_trans (Nat.le_of_eq (congrArg Gate.stops hgate)) h.stops_le⟩
  | sleep awake barred => exact ⟨h.causes, h.holder_iff, h.stops_le⟩
  | enter entering awake admitted => exact h.put entering rfl (by simp) rfl rfl rfl
  | @operate action fits inside =>
    exact h.put inside rfl (by simp) rfl (congrArg Gate.holder (gate_perform fits))
      (congrArg Gate.stops (gate_perform fits))
  | check inside =>
    unfold Crew.check
    split
    · exact h.put inside rfl (by simp) rfl rfl rfl
    · exact h.put inside rfl (by simp) rfl rfl rfl
  | enterRun inside => exact h.put inside rfl (by simp) rfl rfl rfl
  | leaveRun inside => exact h.put inside rfl (by simp) rfl rfl rfl
  | @leave following leaving =>
    cases following <;> exact h.put leaving rfl (by simp [AfterScope.stage]) rfl rfl rfl
  | unregister unregistering => exact h.put unregistering rfl (by simp) rfl rfl rfl
  | lock locking free => exact h.put locking rfl (by simp) rfl rfl rfl
  | work working nextStep =>
    exact h.put working rfl (by simp) (MarkSweep.work_of_nextStep nextStep).pausing rfl rfl
  | callStop working nextStep =>
    obtain ⟨rfl, rfl⟩ := MarkSweep.stop_of_nextStep nextStep
    refine h.update rfl ?_ ?_ (fun _ _ => Iff.rfl) h.stops_le
    · rintro cause (hcause | hcause)
      · cases hcause
        exact ⟨_, rfl⟩
      · cases hcause
    · exact (h.holder_iff t).trans (by rw [working]; rfl)
  | scan working nextStep =>
    obtain ⟨rfl, hok, herror⟩ := MarkSweep.scan_of_nextStep nextStep
    refine h.put working rfl (by simp) ?_ rfl rfl
    cases c.machine.roots t with
    | ok roots => rw [Stage.pausing, hok]; rfl
    | error fault => rw [Stage.pausing, herror]; rfl
  | resume working nextStep =>
    obtain ⟨found, rfl, rfl⟩ := MarkSweep.resume_of_nextStep nextStep
    have hheld : c.gate.holder = some t := (h.holder_iff t).2 (by rw [working]; rfl)
    have hgate : (c.machine.resume t).gate = c.gate.reopen := by
      rw [Machine.gate_resume]
      have hby : c.machine.gate.heldBy t = true := Gate.heldBy_iff.2 hheld
      simp [Gate.resume, Gate.resume?, hby, gate]
    have hopen : (c.machine.resume t).gate.holder = none := by
      rw [hgate, Gate.holder_reopen, if_pos h.stops_le]
    refine h.update rfl (by simp) ?_ (fun u hu => ?_) ?_
    · show (c.machine.resume t).gate.holder = some t ↔ _
      rw [hopen]
      simp [Stage.pausing, MarkSweep.ControlPoint.pausing]
    · show (c.machine.resume t).gate.holder = some u ↔ _
      rw [hopen, hheld]
      simp [hu.symm]
    · show (c.machine.resume t).gate.stops ≤ 1
      rw [hgate, Gate.stops_reopen]
      exact Nat.le_trans (Nat.sub_le _ _) h.stops_le
  | deliver working nextStep =>
    obtain rfl | ⟨rfl, -⟩ := MarkSweep.done_of_nextStep nextStep <;>
      exact h.put working rfl (by simp) rfl rfl rfl
  | deny working nextStep =>
    obtain rfl | ⟨rfl, -⟩ := MarkSweep.done_of_nextStep nextStep <;>
      exact h.put working rfl (by simp) rfl rfl rfl
  | finish working nextStep =>
    obtain rfl | ⟨rfl, -⟩ := MarkSweep.done_of_nextStep nextStep <;>
      exact h.put working rfl (by simp) rfl rfl rfl
  | close stopping awake admitted still =>
    obtain ⟨task, rfl⟩ := h.causes t _ (.inl stopping)
    exact h.close stopping admitted rfl rfl rfl (by simp [StopCause.stage])
  | claim stopping awake unheld loud =>
    have hlets : c.gate.lets t = true := by simp [Gate.lets, unheld]
    refine h.close stopping hlets rfl rfl rfl ?_
    simp
  | drained draining awake still =>
    obtain ⟨task, rfl⟩ := h.causes t _ (.inr draining)
    exact h.put draining rfl (by simp [StopCause.stage]) rfl rfl rfl
  | receive receiving =>
    exact h.put receiving (congrArg (Function.update · t _) stage_receive) (by simp) rfl
      (congrArg Gate.holder gate_receive) (congrArg Gate.stops gate_receive)
  | unlock unlocking => exact h.put unlocking rfl (by simp) rfl rfl rfl

end Paused

/-- Programs that leave the gate alone leave it to the allocator. -/
theorem Ran.paused {rule : Crew MarkSweep → Thread → Prop} {start : Machine MarkSweep}
    {todo : Thread → List Action} (hgate : start.gate = .fresh)
    (hoff : ∀ c t, Ran rule (.opening start todo) c → rule c t → c.offGate t)
    (hran : Ran rule (.opening start todo) c) : c.Paused := by
  induction hran with
  | start =>
    have hfresh : (opening start todo).gate = .fresh := hgate
    refine ⟨by simp [opening], fun t => ?_, ?_⟩
    · rw [hfresh]
      simp [opening, Gate.fresh, Stage.pausing]
    · rw [hfresh]
      simp [Gate.fresh]
  | step ran kept hstep ih => exact ih.step (hoff _ _ ran kept) hstep

/-! ### Somebody can always go on -/

/-- Who has the gate closed has the allocator. -/
theorem Paused.hasLock (h : c.Paused) (hpausing : (c.stage t).pausing = true) :
    (c.stage t).hasLock = true := by
  cases hstage : c.stage t with
  | working task point => rfl
  | draining cause =>
    obtain ⟨task, rfl⟩ := h.causes t cause (.inr hstage)
    rfl
  | _ =>
    rw [hstage] at hpausing
    cases hpausing

/-- A sleeper waits for scopes, in which nobody waits, or for a thread that has the allocator. -/
theorem Paused.of_asleep (h : c.Paused) (hm : c.LockOwnership) (hasleep : c.asleep t = true) :
    (∃ u, (c.next? u).isSome = true) ∨ ∃ u ≠ t, c.lock = some u := by
  have hbarred : c.gate.admits t (c.stage t).wait = false := hm.inv.barred t hasleep
  have hshut (hlets : c.gate.lets t = false) : ∃ u ≠ t, c.lock = some u := by
    rw [← Bool.not_eq_true, Gate.lets_iff] at hlets
    obtain ⟨u, hu⟩ := Classical.not_forall.1 hlets
    obtain ⟨hholder, hne⟩ := Classical.not_imp.1 hu
    exact ⟨u, hne, (hm.lock_iff u).2 (h.hasLock ((h.holder_iff u).1 hholder))⟩
  cases hwait : (c.stage t).wait with
  | nothing =>
    rw [hwait] at hbarred
    cases hbarred
  | scope =>
    rw [hwait] at hbarred
    exact .inr (hshut hbarred)
  | stop =>
    rw [hwait] at hbarred
    exact .inr (hshut hbarred)
  | silence =>
    rw [hwait] at hbarred
    exact .inl (hm.next?_isSome_of_loud hbarred)

/-- Who has the allocator goes on, or else somebody with an open scope does; if nobody has it,
everybody who is not done goes on. -/
theorem Paused.exists_next (h : c.Paused) (hm : c.LockOwnership) (hleft : c.unfinished t) :
    ∃ u, (c.next? u).isSome = true := by
  cases hlock : c.lock with
  | none =>
    cases hasleep : c.asleep t with
    | false => exact ⟨t, next?_isSome hasleep hleft (.inl hlock)⟩
    | true =>
      refine (h.of_asleep hm hasleep).resolve_right ?_
      rintro ⟨u, -, hu⟩
      rw [hlock] at hu
      cases hu
  | some v =>
    have hhas : (c.stage v).hasLock = true := (hm.lock_iff v).1 hlock
    have hbusy : c.unfinished v := .inl fun hidle => by
      rw [hidle] at hhas
      cases hhas
    cases hasleep : c.asleep v with
    | false => exact ⟨v, next?_isSome hasleep hbusy (.inr hhas)⟩
    | true =>
      refine (h.of_asleep hm hasleep).resolve_right ?_
      rintro ⟨u, hne, hu⟩
      exact hne (Option.some.inj (hu.symm.trans hlock))

/-- What keeps a crew going. -/
structure Moving (c : Crew MarkSweep) : Prop where
  progress : ∀ t, c.unfinished t → ∃ u c', c.Step u c'
  /-- Who sleeps has reason to. -/
  barred : ∀ t, c.asleep t = true → c.gate.admits t (c.stage t).wait = false
  notified : ∀ t u c', c.asleep t = true → c.Step u c' →
    c'.gate.admits t (c'.stage t).wait = true → ∀ v, c'.asleep v = false

theorem gate_of_build {start : Machine MarkSweep} {first : Thread} {heap : Heap}
    {allocator : MarkSweep} {config : MachineConfig}
    (hbuild : Machine.build first heap allocator config = .ok start) : start.gate = .fresh := by
  have hbind : (MarkSweep.bind first ⟨allocator, heap, .fresh, #[]⟩).2.gate = .fresh := by
    unfold MarkSweep.bind
    split <;> rfl
  unfold Machine.build at hbuild
  split at hbuild
  · cases hbuild
  · rename_i arena hok
    obtain rfl := Except.ok.inj hbuild
    exact (congrArg (·.2.gate) hok).symm.trans hbind

/-- Over mark and sweep no crew whose programs leave the gate alone gets stuck, whatever they do and
in whichever order the threads take their steps. -/
theorem Ran.moving {rule : Crew MarkSweep → Thread → Prop} {first : Thread} {heap : Heap}
    {allocator : MarkSweep} {config : MachineConfig} {start : Machine MarkSweep}
    {todo : Thread → List Action}
    (hbuild : Machine.build first heap allocator config = .ok start)
    (hoff : ∀ t, ∀ action ∈ todo t, action.offGate = true)
    (hran : Ran rule (.opening start todo) c) : c.Moving := by
  have hm : c.LockOwnership := hran.lockOwnership (gate_of_build hbuild)
  refine ⟨fun t hleft => ?_, hm.inv.barred, fun t u c' hasleep hstep => hm.notified hasleep hstep⟩
  have hpaused : c.Paused := hran.paused (gate_of_build hbuild) fun c t hc _ _ action haction =>
    hoff t action (hc.todo_subset t (List.mem_of_mem_head? haction))
  obtain ⟨u, hnext⟩ := hpaused.exists_next hm hleft
  obtain ⟨c', hc'⟩ := Option.isSome_iff_exists.1 hnext
  exact ⟨u, c', step_of_next? hc'⟩

/-- One thread collects, the other makes an object. -/
def collecting : Thread → List Action
  | 0 => [.collect]
  | 1 => [.beginRun "entry" [], .newObject ⟨0, 0⟩]
  | _ => []

/-- What is said of all crews, said of one in which the thread that collects sleeps because the
other has a scope open. -/
theorem moving_of_sleeping_collector :
    ∃ (start : Machine MarkSweep) (c : Crew MarkSweep),
      Machine.build Thread.first (.ofSize 8 2) (MarkSweep.fresh .zero) .standard = .ok start ∧
        (∀ t, ∀ action ∈ collecting t, action.offGate = true) ∧
        Ran anything (.opening start collecting) c ∧ c.unfinished 0 ∧ c.asleep 0 = true ∧
        c.Moving := by
  have hseen : observed anything (.ofSize 8 2) (MarkSweep.fresh .zero) collecting [1, 1, 0, 0, 0, 0]
      (fun c => (c.asleep 0, (c.stage 0).wait)) = some (true, .silence) := by decide +kernel
  obtain ⟨start, c, hbuild, hran, hsights⟩ := exists_ran_of_observed hseen
  obtain ⟨hasleep, hwait⟩ := Prod.mk.inj hsights
  have hoff : ∀ t, ∀ action ∈ collecting t, action.offGate = true := by
    intro t
    match t with
    | 0 => decide
    | 1 => decide
    | _ + 2 => exact fun _ h => nomatch h
  refine ⟨start, c, hbuild, hoff, hran, .inl fun hidle => ?_, hasleep, hran.moving hbuild hoff⟩
  rw [hidle] at hwait
  cases hwait

end Crew

end RootedHeap
