import RootedHeap.Allocator.Choice
import RootedHeap.Proofs.RunCleanup
import RootedHeap.Proofs.Exactness

/-!
Where the objects of a frame come from, over any allocator at all. An allocator may hand out what it
likes and write what it likes to any slot; it cannot add cells to a heap or take any away. On a
machine with such an allocator the active list of every frame has no repetition, and whatever stands
in it is a cell of the heap or was handed out by the allocator itself: what a slot refers to is
looked up before it is held, and calls hand on only what is held. What the allocator hands out is
not looked up, so an allocator that hands out null has it held.
-/

namespace RootedHeap

/-- Whether an allocator leaves the number of cells alone, whatever else it does to the heap. -/
class KeepsCells (A : Type) [Allocator A] : Prop where
  bind : ∀ (t : Thread) (a : Arena A), (Allocator.bind t a).2.heap.size = a.heap.size
  allocate : ∀ (t : Thread) (calls : CallStacks) (a : Arena A),
    (Allocator.allocate t calls a).2.heap.size = a.heap.size
  collect : ∀ (t : Thread) (calls : CallStacks) (a : Arena A),
    (Allocator.collect t calls a).2.heap.size = a.heap.size

/-! ### All allocators keep cells -/

instance : KeepsCells Bump where
  bind t a := by
    show (Bump.bind t a).2.heap.size = a.heap.size
    unfold Bump.bind
    cases a.allocator.binding <;> rfl
  allocate t calls a := by
    show (Bump.allocate t calls a).2.heap.size = a.heap.size
    unfold Bump.allocate
    cases a.allocator.binding with
    | none => rfl
    | some binding =>
      dsimp only
      split
      · rfl
      · cases a.heap.cell a.allocator.next with
        | error fault => rfl
        | ok cell => exact Heap.size_clear
  collect t calls a := rfl

namespace MarkSweep

theorem shape_take (t : Thread) (a : Arena MarkSweep) : a.heap.SameShape (take t a).2.heap := by
  unfold take
  split
  · exact .refl
  · rename_i h free _
    cases a.heap.cell h with
    | error fault => exact .refl
    | ok cell => exact .clear

theorem shape_allocate (t : Thread) (calls : CallStacks) (a : Arena MarkSweep) :
    a.heap.SameShape (allocate t calls a).2.heap := by
  have hcollect := heap_collect t calls a
  unfold allocate
  cases a.allocator.binding with
  | none => exact .refl
  | some binding =>
    dsimp only
    split
    · rcases hanswer : collect t calls a with ⟨fault | found, a'⟩
      · rw [hanswer] at hcollect
        exact hcollect ▸ .refl
      · rw [hanswer] at hcollect
        exact hcollect ▸ shape_take t a'
    · exact shape_take t a

end MarkSweep

instance : KeepsCells MarkSweep where
  bind t a := by
    show (MarkSweep.bind t a).2.heap.size = a.heap.size
    unfold MarkSweep.bind
    cases a.allocator.binding <;> rfl
  allocate t calls a := (MarkSweep.shape_allocate t calls a).size
  collect t calls a := congrArg Heap.size (MarkSweep.heap_collect t calls a)

namespace RootsOnly

theorem size_collect (t : Thread) (calls : CallStacks) (a : Arena RootsOnly) :
    (collect t calls a).2.heap.size = a.heap.size := by
  have hresume : ((a.stop t).resume t).heap.size = a.heap.size :=
    congrArg Heap.size (MarkSweep.heap_resume (a.stop t) t)
  unfold collect
  dsimp only
  cases (a.stop t).enumerate t calls <;> exact hresume

theorem heap_take (a : Arena RootsOnly) : (take a).2.heap = a.heap := by
  unfold take
  cases a.allocator.free <;> rfl

end RootsOnly

instance : KeepsCells RootsOnly where
  bind t a := rfl
  allocate t calls a := by
    have hcollect := RootsOnly.size_collect t calls a
    show (RootsOnly.allocate t calls a).2.heap.size = a.heap.size
    unfold RootsOnly.allocate
    split
    · rcases hanswer : RootsOnly.collect t calls a with ⟨fault | found, a'⟩
      · rw [hanswer] at hcollect
        exact hcollect
      · rw [hanswer] at hcollect
        exact (congrArg Heap.size (RootsOnly.heap_take a')).trans hcollect
    · exact congrArg Heap.size (RootsOnly.heap_take a)
  collect := RootsOnly.size_collect

namespace Scripted

theorem size_writeAll (heap : Heap) (writes : List (Handle × Nat × Word)) :
    (writeAll heap writes).2.size = heap.size := by
  induction writes generalizing heap with
  | nil => rfl
  | cons write rest ih =>
    obtain ⟨h, slot, word⟩ := write
    rw [writeAll]
    cases hwrite : heap.write h slot word with
    | error fault => rfl
    | ok heap' =>
      obtain ⟨_, -, hput⟩ := Answer.bind_eq_ok.1 hwrite
      obtain rfl := Except.ok.inj hput
      exact (ih _).trans Heap.size_putWord

end Scripted

instance : KeepsCells Scripted where
  bind t a := by
    show (Scripted.bind t a).2.heap.size = a.heap.size
    unfold Scripted.bind
    cases a.allocator.bindFault <;> rfl
  allocate t calls a := by
    show (Scripted.allocate t calls a).2.heap.size = a.heap.size
    unfold Scripted.allocate
    rcases a.allocator.script with _ | ⟨entry, script⟩
    · rfl
    · cases entry with
      | scribble writes h => exact Scripted.size_writeAll a.heap writes
      | _ => rfl
  collect t calls a := rfl

theorem Choice.size_within {A α : Type} {a : Arena Choice} {inner : A} {wrap : A → Choice}
    {operation : Arena A → α × Arena A}
    (hkeeps : (operation (a.withAllocator inner)).2.heap.size = (a.withAllocator inner).heap.size) :
    (Choice.within a inner wrap operation).2.heap.size = a.heap.size := hkeeps

instance : KeepsCells Choice where
  bind t a := by
    show (Choice.bind t a).2.heap.size = a.heap.size
    unfold Choice.bind
    cases a.allocator <;> exact Choice.size_within (KeepsCells.bind t _)
  allocate t calls a := by
    show (Choice.allocate t calls a).2.heap.size = a.heap.size
    unfold Choice.allocate
    cases a.allocator <;> exact Choice.size_within (KeepsCells.allocate t calls _)
  collect t calls a := by
    show (Choice.collect t calls a).2.heap.size = a.heap.size
    unfold Choice.collect
    cases a.allocator <;> exact Choice.size_within (KeepsCells.collect t calls _)

/-! ### No repetition -/

namespace Frame

variable {frame frame' : Frame} {objects : List Handle} {h : Handle}

theorem nodup_foldl_insert (hnodup : frame.handles.Nodup) :
    (objects.foldl Frame.insert frame).handles.Nodup := by
  induction objects generalizing frame with
  | nil => exact hnodup
  | cons h objects ih => exact ih (nodup_insert hnodup)

end Frame

namespace Ledger

variable {l l' : Ledger} {t t' : CallStacks} {gain : List Handle}

/-- A step brings no repetition into an active list. -/
theorem Tallies.nodup (h : l.Tallies t) (hstep : l.Step t gain l' t')
    (hnodup : ∀ f, (t.frame f).handles.Nodup) (f : FrameRef) : (t'.frame f).handles.Nodup := by
  have hopened : ∀ {t₀ : CallStacks} {s : StackRef} {objects : List Handle},
      t₀.frames = t.frames → ((t₀.opened s objects).frame f).handles.Nodup := by
    intro t₀ s objects hframes
    have hsame : t₀.frame f = t.frame f := by rw [CallStacks.frame, hframes, CallStacks.frame]
    rw [CallStacks.frame_opened]
    split
    · exact Frame.nodup_foldl_insert List.nodup_nil
    · exact hsame ▸ hnodup f
  have hpop : ∀ {t₀ : CallStacks} {s : StackRef} {g : FrameRef},
      (t₀.frame f).handles.Nodup → ((t₀.pop s g).frame f).handles.Nodup := by
    intro t₀ s g hkept
    rw [CallStacks.frame_pop]
    split
    · exact List.nodup_nil
    · exact hkept
  cases hstep with
  | idle => exact hnodup f
  | hold known active =>
    rw [CallStacks.frame_change (CallStacks.lt_size_of_active active)]
    split
    · exact Frame.nodup_insert (hnodup f)
    · exact hnodup f
  | release known active =>
    rw [CallStacks.frame_change (CallStacks.lt_size_of_active active)]
    split
    · rw [Frame.handles_remove]
      exact (hnodup f).erase _
    · exact hnodup f
  | beginCall known active handed => exact hopened rfl
  | @endCall caller callee result pending returned =>
    obtain ⟨hcallee, -, hlt, -⟩ := h.nested caller callee pending
    have hsize := h.lt_size hcallee
    refine hpop ?_
    rcases result with fault | word
    · exact hnodup f
    · rw [CallStacks.frame_settled (Nat.lt_trans hlt hsize) hsize (Nat.ne_of_lt hlt)]
      split
      · exact hnodup f
      · split
        · cases word.target? with
          | none => exact hnodup f
          | some o => exact Frame.nodup_insert (hnodup f)
        · exact hnodup f
  | abandonCall pending => exact hpop (hnodup f)
  | beginRun => exact hopened rfl
  | endRun begun => exact hpop (hnodup f)
  | abandonRun begun => exact hnodup f

end Ledger

/-! ### Only cells -/

namespace Machine

variable {A : Type} {m : Machine A} {env : Env} {object h : Handle} {slot : Nat}

/-- What a slot refers to is looked up before it is held. -/
theorem contains_of_referenceAt (hok : m.referenceAt env object slot = .ok h)
    (h0 : h ≠ Handle.null) : m.heap.contains h = true := by
  obtain ⟨_, -, hok⟩ := Answer.bind_eq_ok.1 hok
  obtain ⟨_, -, hok⟩ := Answer.bind_eq_ok.1 hok
  obtain ⟨word, -, hok⟩ := Answer.bind_eq_ok.1 hok
  cases htarget : word.target? with
  | none =>
    rw [htarget] at hok
    dsimp only at hok
    split at hok
    · cases hok
    · exact absurd (Except.ok.inj hok).symm h0
  | some target =>
    rw [htarget] at hok
    obtain ⟨cell, hcell, hok⟩ := Answer.bind_eq_ok.1 hok
    obtain rfl := Except.ok.inj hok
    by_contra hout
    rw [Heap.cell_of_not_contains (by simpa using hout)] at hcell
    cases hcell

end Machine

def Move.given? : Move → Option Handle
  | ⟨_, .newObject _, .ok h⟩ => some h
  | _ => none

namespace Session

variable {A : Type} [Allocator A] {s : Session A} {t : Thread} {action : Action}

theorem size_after_any [KeepsCells A] :
    (s.after t action).machine.heap.size = s.machine.heap.size := by
  cases hquiet : action.allocates with
  | false => exact (shape_after_of_quiet hquiet).size
  | true =>
    cases action with
    | collect => exact KeepsCells.collect t s.machine.calls s.machine.toArena
    | newObject env =>
      exact newObject_keeps (P := fun _ heap => heap.size = s.machine.heap.size) rfl
        (KeepsCells.allocate t s.calls s.machine.toArena)
    | _ => cases hquiet

/-- What an action brings in from outside is a cell of the heap, or the allocator handed it out. -/
theorem contains_of_gain {h : Handle} (hgain : h ∈ action.gain (s.reply t action)) :
    s.machine.heap.contains h = true ∨
      (⟨t, action, s.reply t action⟩ : Move).given? = some h := by
  cases action with
  | newObject env =>
    rcases hreply : s.reply t (.newObject env) with fault | o
    · rw [hreply] at hgain
      cases hgain
    · rw [hreply] at hgain
      obtain rfl := List.mem_singleton.1 hgain
      exact .inr rfl
  | getReference env object slot =>
    have hreply : s.reply t (.getReference env object slot) =
        (s.machine.getReference t env object slot).1 := rfl
    rw [hreply, Machine.getReference_eq] at hgain
    cases hcheck : s.machine.referenceAt env object slot with
    | error fault =>
      rw [hcheck] at hgain
      cases hgain
    | ok o =>
      rw [hcheck] at hgain
      by_cases h0 : o = Handle.null
      · simp [Action.gain, h0] at hgain
      · obtain rfl : h = o := by simpa [Action.gain, h0] using hgain
        exact .inl (Machine.contains_of_referenceAt hcheck h0)
  | _ => cases hgain

/-- What is said of all active lists after the given moves. -/
structure Genuine (s : Session A) (past : List Move) : Prop where
  nodup : ∀ f, (s.calls.frame f).handles.Nodup
  cells : ∀ f, ∀ h ∈ (s.calls.frame f).handles,
    s.machine.heap.contains h = true ∨ h ∈ past.filterMap Move.given?

variable {start : Machine A} {past : List Move}

/-- In every session, over every allocator that keeps cells: no active list has a repetition, and
whatever stands in one is a cell of the heap unless the allocator handed out something else. -/
theorem Ran.genuine [KeepsCells A] {first : Thread} {heap : Heap} {allocator : A}
    {config : MachineConfig} (hbuild : Machine.build first heap allocator config = .ok start)
    (hran : Ran start past s) : s.Genuine past ∧ s.machine.heap.size = heap.size := by
  have hstart := calls_of_build hbuild
  have hsize : start.heap.size = heap.size := by
    have hbind := KeepsCells.bind first (⟨allocator, heap, .fresh, #[]⟩ : Arena A)
    unfold Machine.build at hbuild
    rcases hbound : Allocator.bind first (⟨allocator, heap, .fresh, #[]⟩ : Arena A) with
      ⟨fault | _, arena⟩
    · rw [hbound] at hbuild
      cases hbuild
    · rw [hbound] at hbuild hbind
      obtain rfl := Except.ok.inj hbuild
      exact hbind
  induction hran with
  | opening =>
    have hnone : ∀ f, ((Session.opening start).calls.frame f).handles = [] := by
      intro f
      show (start.calls.frame f).handles = []
      rw [hstart]
      rfl
    refine ⟨⟨fun f => ?_, fun f h hh => ?_⟩, hsize⟩
    · rw [hnone f]
      exact List.nodup_nil
    · rw [hnone f] at hh
      cases hh
  | @move past s ran t action permitted ih =>
    obtain ⟨hgenuine, hkept⟩ := ih
    have htallies := ran.tallies hstart
    have hstep := ledger_step (t := t) permitted
    have hafter : (s.after t action).machine.heap.size = s.machine.heap.size := size_after_any
    have hcontains : ∀ h, (s.after t action).machine.heap.contains h = s.machine.heap.contains h :=
      fun h => by rw [Heap.contains, hafter, Heap.contains]
    refine ⟨⟨htallies.nodup hstep hgenuine.nodup, fun f h hh => ?_⟩, hafter.trans hkept⟩
    rw [hcontains]
    rcases hstep.held htallies hh with hgain | ⟨g, hold⟩
    · rcases contains_of_gain hgain with hcell | hgiven
      · exact .inl hcell
      · exact .inr (List.mem_filterMap.2 ⟨_, List.mem_cons_self, hgiven⟩)
    · rcases hgenuine.cells g h hold with hcell | hgiven
      · exact .inl hcell
      · obtain ⟨move, hmove, hh⟩ := List.mem_filterMap.1 hgiven
        exact .inr (List.mem_filterMap.2 ⟨move, List.mem_cons_of_mem _ hmove, hh⟩)

/-- An allocator hands out null, and then what is no cell: both are held. -/
theorem holds_null_of_given :
    ∃ (start : Machine Scripted) (past : List Move) (s : Session Scripted),
      Machine.build Thread.first (.ofSize 3 2) ⟨none, [.give 0, .give 9]⟩ .standard = .ok start ∧
        Ran start past s ∧ past.filterMap Move.given? = [9, Handle.null] ∧
        (s.calls.frame 0).handles = [Handle.null, 9] ∧
        s.machine.heap.contains Handle.null = false ∧ s.machine.heap.contains 9 = false := by
  have hseen : watched .standard (.ofSize 3 2) (⟨none, [.give 0, .give 9]⟩ : Scripted)
      [(0, .beginRun "entry" []), (0, .newObject ⟨0, 0⟩), (0, .newObject ⟨0, 0⟩)] []
      (fun (past, s) _ => (past.filterMap Move.given?, (s.calls.frame 0).handles,
        s.machine.heap.contains 0, s.machine.heap.contains 9)) =
        some ([9, 0], [0, 9], false, false) := by decide +kernel
  obtain ⟨start, past, s, -, -, hbuild, hran, -, hsight⟩ := exists_course_of_watched hseen
  obtain ⟨hgiven, hheld, hnull, hnine⟩ := by simpa only [Prod.mk.injEq] using hsight
  exact ⟨start, past, s, hbuild, hran, hgiven, hheld, hnull, hnine⟩

/-- An allocator that writes a reference to a cell and one to no cell into the slots of the cell
that it hands out, and then hands out what is no cell. -/
def adverse : Scripted := ⟨none, [.scribble [(1, 0, 2), (1, 1, 7)] 1, .give 9]⟩

/-- What is said of all sessions, said of one over that allocator: following the first slot brings
in a cell, following the second nothing, and what is no cell is what was handed out. -/
theorem genuine_of_adverse :
    ∃ (start : Machine Scripted) (past : List Move) (s : Session Scripted),
      Machine.build Thread.first (.ofSize 3 2) adverse .standard = .ok start ∧
        Ran start past s ∧ (s.calls.frame 0).handles = [1, 2, 9] ∧
        past.filterMap Move.given? = [9, 1] ∧ s.Genuine past ∧ s.machine.heap.size = 3 := by
  have hseen : watched .standard (.ofSize 3 2) adverse
      [(0, .beginRun "entry" []), (0, .newObject ⟨0, 0⟩), (0, .getReference ⟨0, 0⟩ 1 0),
        (0, .getReference ⟨0, 0⟩ 1 1), (0, .newObject ⟨0, 0⟩)] []
      (fun (past, s) _ => (past.filterMap Move.given?, (s.calls.frame 0).handles)) =
        some ([9, 1], [1, 2, 9]) := by decide +kernel
  obtain ⟨start, past, s, -, -, hbuild, hran, -, hsight⟩ := exists_course_of_watched hseen
  obtain ⟨hgiven, hheld⟩ := by simpa only [Prod.mk.injEq] using hsight
  obtain ⟨hgenuine, hsize⟩ := Ran.genuine hbuild hran
  exact ⟨start, past, s, hbuild, hran, hheld, hgiven, hgenuine, hsize⟩

end Session

end RootedHeap
