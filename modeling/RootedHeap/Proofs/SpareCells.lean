import RootedHeap.Proofs.AllocatorAnswers
import RootedHeap.Proofs.ListWalks

/-!
How many more cells can be had. Where one run is the only one and its frame works on a list, the
list is all that is in reach; so over mark and sweep there is room for as many cells more as the
heap has beside the list, whatever garbage it is full of, and over a counter for as many as remain.
`CountsSpare` says of an allocator what can be had and what a list that is dropped gives back, and
`OnlyRun` what the only run can rely on.
-/

namespace RootedHeap

namespace Session

variable {A : Type} [Allocator A] [LawfulCollector A] {s : Session A} {t : Thread} {env who : Env}
  {host : Option Env} {base : Word} {new : Option (Handle × Word)} {cells held : List Handle}
  {h : Handle} {width : Nat} {action : Action}

/-- Whether the run of a frame is the only one of a well-formed session, with a call to spare. -/
structure OnlyRun (width : Nat) (env : Env) (s : Session A) : Prop extends s.WellFormed width where
  only : s.ledger.runs = [env]
  deep : 2 ≤ s.machine.config.maxCallDepth

namespace OnlyRun

/-- The only run stays so by whatever is its own business. -/
theorem after (hs : s.OnlyRun width env) (hproper : s.Proper env action) :
    (s.after t action).OnlyRun width env where
  toWellFormed := hs.toWellFormed.after hproper.permitted hproper.orderly
  only := (hproper.runs _).trans hs.only
  deep := by
    rw [config_after]
    exact hs.deep

theorem size_after (hs : s.OnlyRun width env) (hproper : s.Proper env action) :
    (s.after t action).machine.heap.size = s.machine.heap.size := by
  rw [(hs.toSound.arena hproper.permitted hproper.orderly).2, Heap.size_after]

/-- What is in reach is in reach of the only stack. -/
theorem reaches_iff (hs : s.OnlyRun width env) :
    s.machine.heap.Reaches s.calls.roots h ↔
      s.machine.heap.Reaches (s.calls.stackRoots env.stack) h := by
  constructor
  · intro hreach
    obtain ⟨run, hrun, hreach⟩ := hs.toSound.exists_run hreach
    rw [hs.only, List.mem_singleton] at hrun
    exact hrun ▸ hreach
  · refine fun hreach => hreach.mono fun r hr => ?_
    obtain ⟨f, -, hheld⟩ := CallStacks.mem_stackRoots_iff.1 hr
    exact hs.mem_roots hheld

/-- Where a frame works on a list, the list is what is in reach. -/
theorem reaches_iff_mem (hs : s.OnlyRun width env)
    (h : s.HoldsList env host who base none cells held)
    {o : Handle} : s.machine.heap.Reaches s.calls.roots o ↔ o ∈ cells := by
  rw [hs.reaches_iff]
  refine ⟨fun hreach => h.mem_of_reaches hreach, fun hcell => ?_⟩
  rw [h.stackRoots]
  exact h.listHeld.reaches hcell

/-- A list has no more cells than there are. -/
theorem length_le (hs : s.OnlyRun width env) (h : s.HoldsList env host who base none cells held) :
    cells.length ≤ s.machine.heap.size - 1 := by
  have hsub : cells ⊆ s.machine.heap.handles := fun o ho =>
    Heap.mem_handles_iff.2 (hs.contains_of_reaches ((hs.reaches_iff_mem h).2 ho))
  have hlength := (List.subperm_of_subset h.listHeld.chain.nodup hsub).length_le
  rwa [Heap.handles, List.length_range'] at hlength

/-- All is in reach just when the list has as many cells as there are. -/
theorem forall_reaches_iff (hs : s.OnlyRun width env)
    (h : s.HoldsList env host who base none cells held) :
    (∀ o, s.machine.heap.contains o = true → s.machine.heap.Reaches s.calls.roots o) ↔
      s.machine.heap.size - 1 - cells.length = 0 := by
  have hsub : cells ⊆ s.machine.heap.handles := fun o ho =>
    Heap.mem_handles_iff.2 (hs.contains_of_reaches ((hs.reaches_iff_mem h).2 ho))
  have hsubperm := List.subperm_of_subset h.listHeld.chain.nodup hsub
  have hsize : s.machine.heap.handles.length = s.machine.heap.size - 1 := List.length_range'
  constructor
  · intro hall
    have hcover : s.machine.heap.handles ⊆ cells := fun o ho =>
      (hs.reaches_iff_mem h).1 (hall o (Heap.mem_handles_iff.1 ho))
    have hlength := (List.subperm_of_subset List.nodup_range' hcover).length_le
    exact Nat.sub_eq_zero_of_le (hsize ▸ hlength)
  · intro hnone o hcell
    have hle : s.machine.heap.handles.length ≤ cells.length :=
      hsize ▸ Nat.le_of_sub_eq_zero hnone
    have hperm := hsubperm.perm_of_length_le hle
    exact (hs.reaches_iff_mem h).2 (hperm.mem_iff.2 (Heap.mem_handles_iff.2 hcell))

end OnlyRun

end Session

/-- An allocator of which it can be told how many more cells a frame can have that works on a list,
where nothing else goes on. -/
class CountsSpare (A : Type) [Allocator A] [LawfulCollector A] where
  /-- How many more cells can be had beside a list of so many. -/
  spare : A → (size used : Nat) → Nat
  /-- Whether the cells of a list that is dropped can be had again. -/
  reuses : Bool
  exhausted_iff : ∀ {s : Session A} {t : Thread} {env who : Env} {host : Option Env} {base : Word}
    {cells held : List Handle} {width : Nat}, s.OnlyRun width env →
    s.HoldsList env host who base none cells held →
    (s.reply t (.newObject who) = .error .outOfMemory ↔
      spare s.machine.allocator s.machine.heap.size cells.length = 0)
  given : ∀ {s : Session A} {t : Thread} {env who : Env} {host : Option Env} {base : Word}
    {cells held : List Handle} {width : Nat} {o : Handle}, s.OnlyRun width env →
    s.HoldsList env host who base none cells held → s.reply t (.newObject who) = .ok o →
    spare (s.after t (.newObject who)).machine.allocator s.machine.heap.size
      (cells.length + 1) + 1 =
      spare s.machine.allocator s.machine.heap.size cells.length
  dropped : ∀ {s : Session A} {env who : Env} {host : Option Env} {base : Word}
    {cells held : List Handle} {width : Nat}, s.OnlyRun width env →
    s.HoldsList env host who base none cells held →
    spare s.machine.allocator s.machine.heap.size 0 =
      spare s.machine.allocator s.machine.heap.size cells.length +
        if reuses then cells.length else 0

namespace CountsSpare

variable (A : Type) [Allocator A] [LawfulCollector A] [CountsSpare A] (left length rounds : Nat)

/-- Whether so many cells are enough for so many lists of a length, one after the other. -/
def Covers : Prop := if reuses A then rounds = 0 ∨ length ≤ left else rounds * length ≤ left

/-- How many of so many cells can be had after so many lists of a length were dropped. -/
def leaves : Nat := if reuses A then left else left - rounds * length

variable {left length} in
theorem covers_zero : Covers A left length 0 := by
  unfold Covers
  cases reuses A <;> simp

variable {left length} in
theorem leaves_zero : leaves A left length 0 = left := by
  unfold leaves
  cases reuses A <;> simp

theorem covers_succ :
    Covers A left length (rounds + 1) ↔
      length ≤ left ∧ Covers A (leaves A left length 1) length rounds := by
  unfold Covers leaves
  rw [Nat.succ_mul, Nat.one_mul]
  cases reuses A
  · simp only [Bool.false_eq_true, if_false]
    omega
  · simp only [if_true]
    omega

theorem leaves_succ :
    leaves A left length (rounds + 1) = leaves A (leaves A left length 1) length rounds := by
  unfold leaves
  rw [Nat.succ_mul, Nat.one_mul, Nat.add_comm (rounds * length), Nat.sub_add_eq]
  cases reuses A <;> rfl

end CountsSpare

namespace Session

variable {A : Type} [Allocator A] [LawfulCollector A] [CountsSpare A] {s : Session A} {t : Thread}
  {action : Action}

/-- How many more cells can be had beside a list of so many. -/
def spare (s : Session A) : (used : Nat) → Nat :=
  CountsSpare.spare s.machine.allocator s.machine.heap.size

/-- Quiet actions leave as many cells as there were. -/
theorem Sound.spare_after (hs : s.Sound) (hpermits : s.ledger.permits action)
    (horderly : action.orderly = true) (hquiet : action.allocates = false) :
    (s.after t action).spare = s.spare := by
  have hallocator : (s.after t action).machine.allocator = s.machine.allocator :=
    World.allocator_perform hquiet
  rw [spare, hallocator, (hs.arena hpermits horderly).2, Heap.size_after, spare]

end Session

/-- Over mark and sweep all cells can be had but for those of the list. -/
instance : CountsSpare MarkSweep where
  spare _ size used := size - 1 - used
  reuses := true
  exhausted_iff hs h := (Session.newObject_out_iff hs.toSound (h.active hs.toWellFormed)).trans
    (hs.forall_reaches_iff h)
  given {s t env who host base cells held width o} hs h hreply := by
    have hroom : s.machine.heap.size - 1 - cells.length ≠ 0 := by
      intro hnone
      have hout := (Session.newObject_out_iff (t := t) hs.toSound (h.active hs.toWellFormed)).2
        ((hs.forall_reaches_iff h).2 hnone)
      rw [hreply] at hout
      cases hout
    omega
  dropped hs h := by
    have hle := hs.length_le h
    rw [if_pos rfl, Nat.sub_zero, Nat.sub_add_cancel hle]

/-- Over a counter the cells that remain can be had, and none of them again. -/
instance : CountsSpare Bump where
  spare m size _ := size - m.next
  reuses := false
  exhausted_iff {s t env who host base cells held width} hs h := by
    by_cases hle : s.machine.heap.size ≤ s.machine.allocator.next
    · exact iff_of_true (Session.newObject_of_spent hs.toSound (h.active hs.toWellFormed) hle).1
        (Nat.sub_eq_zero_of_le hle)
    · rw [(Session.newObject_of_next hs.toSound (h.active hs.toWellFormed)
        (Nat.lt_of_not_le hle)).1]
      exact iff_of_false nofun fun hzero => hle (Nat.le_of_sub_eq_zero hzero)
  given {s t env who host base cells held width o} hs h hreply := by
    by_cases hle : s.machine.heap.size ≤ s.machine.allocator.next
    · rw [(Session.newObject_of_spent hs.toSound (h.active hs.toWellFormed) hle).1] at hreply
      cases hreply
    · rw [(Session.newObject_of_next hs.toSound (h.active hs.toWellFormed)
        (Nat.lt_of_not_le hle)).2,
        Nat.sub_add_eq, Nat.sub_add_cancel]
      exact Nat.sub_pos_of_lt (Nat.lt_of_not_le hle)
  dropped _ _ := rfl

/-- Over mark and sweep each list has all cells to itself. -/
theorem covers_sweeping {left length rounds : Nat} :
    CountsSpare.Covers MarkSweep left length rounds ↔ rounds = 0 ∨ length ≤ left :=
  .rfl

/-- Over a counter all lists together have what remains. -/
theorem covers_counting {left length rounds : Nat} :
    CountsSpare.Covers Bump left length rounds ↔ rounds * length ≤ left :=
  .rfl

theorem leaves_counting {left length rounds : Nat} :
    CountsSpare.leaves Bump left length rounds = left - rounds * length :=
  rfl

end RootedHeap
