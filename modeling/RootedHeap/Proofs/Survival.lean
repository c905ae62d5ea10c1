import RootedHeap.Proofs.Lone
import RootedHeap.Proofs.AllocatorAnswers
import RootedHeap.Workload.Reachability

/-!
A linked object survives. The reachability scenario is run on a machine with no other stack, after
whatever orderly use of it: what it links is all that the collection has to keep, so the collection
takes back every other cell that was handed out, and the refill is given all cells but the two, in
order, until memory is out. A counter takes nothing back, and the refill is given what remained.

The scenario is followed operation by operation: its frame is alone, and one of two linked objects
is all that it holds when the collection comes. `Supplies` is what the refill has to know of an
allocator.
-/

namespace RootedHeap

open Workload (tagSlot linkSlot)

/-- How many cells there are tells which handles they have. -/
theorem Heap.handles_of_size {heap heap' : Heap} (hsize : heap.size = heap'.size) :
    heap.handles = heap'.handles :=
  congrArg (List.range' 1) (Nat.succ.inj hsize)

/-! ### The two halves of the scenario -/

namespace Workload

open Code

/-- The scenario up to the collection: an object that is linked from another and released. -/
def linking (env : Env) : Code (Handle × Handle) := do
  let a ← newObject env
  setData env a tagSlot (-1)
  let b ← newObject env
  setReference env a linkSlot b
  setData env b tagSlot (-2)
  let _ ← getReference env a linkSlot
  release env b
  return (a, b)

/-- The scenario from the collection on. -/
def judging (env : Env) (a b : Handle) : Code Scenario := do
  let reclaimed ← orStop (← ask .collect)
  let refilled ← refill env (← ask .handles)
  ask (.note .debug ("scenario refilled cells " ++ Text.list (refilled.map toString)))
  return ⟨b, reclaimed, refilled, ← keeps env a b refilled⟩

/-- The scenario is its two halves. -/
theorem reachability_eq (env : Env) :
    reachability env = linking env >>= fun (a, b) => judging env a b := by
  simp only [reachability, linking, judging, bind_assoc, pure_bind]

end Workload

namespace Session

variable {A : Type} {s s' : Session A} {t : Thread} {entry : Env} {held given stock : List Handle}
  {a b o : Handle} {word : Word} {width : Nat} {α β : Type}

section Linking

variable [Allocator A] [LawfulCollector A]

/-- The first object of the scenario, if there is memory. -/
theorem Lone.first (hs : s.Lone width entry []) (hwidth : 2 ≤ width)
    (hroom : s.reply t (.newObject entry) ≠ .error .outOfMemory) :
    ∃ (a : Handle) (s₁ : Session A), (∀ f : Handle → Code α, s.play t (do
        let a ← Code.newObject entry
        Code.setData entry a tagSlot (-1)
        f a).ended = s₁.play t (f a).ended) ∧
      s₁.Lone width entry [a] ∧ s₁.machine.heap.ListCell a (-1) Handle.null ∧
      s₁.machine.allocator = (s.after t (.newObject entry)).machine.allocator ∧
      s₁.machine.heap.size = s.machine.heap.size := by
  obtain ⟨a, hreply, hcell, -, hlone, hheap⟩ := hs.newObject hroom
  have hslot : tagSlot < width := Nat.lt_of_lt_of_le Nat.zero_lt_two hwidth
  obtain ⟨htagged, hlone₁, hheap₁⟩ :=
    hlone.setData (t := t) (List.mem_singleton.2 rfl : a ∈ [a]) hslot (by decide : (-1 : Word) < 0)
  have hcleared : (s.machine.heap.clear a).ListCell a 0 Handle.null :=
    .clear ((hs.wide a hcell).symm ▸ hwidth)
  refine ⟨a, _, fun f => ?_, hlone₁, ?_, World.allocator_perform rfl, ?_⟩
  · rw [play_newObject, hreply, proceed, play_setData, htagged, proceed]
  · rw [hheap₁, hheap]
    exact hcleared.putTag
  · rw [hheap₁, Heap.size_putWord, hheap, Heap.size_clear]

/-- The second object is made and hung on the first, if there is memory. -/
theorem Lone.second (hs : s.Lone width entry [a]) (hwidth : 2 ≤ width)
    (hlistCell : s.machine.heap.ListCell a (-1) Handle.null)
    (hroom : s.reply t (.newObject entry) ≠ .error .outOfMemory) :
    ∃ (b : Handle) (s₁ : Session A), (∀ f : Handle → Code α, s.play t (do
        let b ← Code.newObject entry
        Code.setReference entry a linkSlot b
        Code.setData entry b tagSlot (-2)
        f b).ended = s₁.play t (f b).ended) ∧
      a ≠ b ∧ s₁.Linked width entry a b [a, b] ∧
      s₁.machine.heap.size = s.machine.heap.size := by
  have hslot : tagSlot < width := Nat.lt_of_lt_of_le Nat.zero_lt_two hwidth
  have hlink : linkSlot < width := hwidth
  obtain ⟨b, hmade, hcell, hunreached, hlone, hheap⟩ := hs.newObject hroom
  have hne : a ≠ b := fun heq => hunreached (heq ▸ .root (List.mem_singleton.2 rfl))
  have ha : a ∈ [a] ++ [b] := List.mem_cons_self
  have hb : b ∈ [a] ++ [b] := List.mem_append_right _ (List.mem_singleton.2 rfl)
  obtain ⟨hlinked, hlone₁, hheap₁⟩ := hlone.setReference (t := t) ha hb hlink
  obtain ⟨htagged, hlone₂, hheap₂⟩ := hlone₁.setData (t := t) hb hslot (by decide : (-2 : Word) < 0)
  have hcleared : (s.machine.heap.clear b).ListCell b 0 Handle.null :=
    .clear ((hs.wide b hcell).symm ▸ hwidth)
  have hholder : (s.machine.heap.clear b).ListCell a (-1) Handle.null := hlistCell.of_words (by
    rw [Heap.words_clear, if_neg hne.symm])
  refine ⟨b, _, fun f => ?_, hne, ⟨hlone₂, ha, hs.valid hcell, ?_, ?_⟩, ?_⟩
  · rw [play_newObject, hmade, proceed, play_setReference, hlinked, proceed, play_setData, htagged,
      proceed]
  · rw [hheap₂, hheap₁, hheap]
    refine (hholder.putLink (k := b)).of_words ?_
    rw [Heap.words_putWord, if_neg hne.symm]
  · rw [hheap₂, hheap₁, hheap]
    refine Heap.ListCell.putTag (hcleared.of_words ?_)
    rw [Heap.words_putWord, if_neg hne]
  · rw [hheap₂, Heap.size_putWord, hheap₁, Heap.size_putWord, hheap, Heap.size_clear]

/-- The second object is released, but stays linked. -/
theorem Linked.parted (hs : s.Linked width entry a b [a, b]) (hne : a ≠ b) :
    ∃ s₁ : Session A, s.play t (do
        let _ ← Code.getReference entry a linkSlot
        Code.release entry b
        return (a, b)).ended = (.ok (a, b), s₁) ∧
      s₁.Linked width entry a b [a] ∧ s₁.machine.heap = s.machine.heap := by
  have hb : b ∈ [a, b] := List.mem_cons_of_mem _ (List.mem_singleton.2 rfl)
  obtain ⟨hfollowed, hlinked, hheap₁⟩ := hs.getReference (t := t)
  rw [if_pos hb] at hlinked
  obtain ⟨hreleased, hlone, hheap⟩ := hlinked.toLone.release (t := t) hb
  have herased : [a, b].erase b = [a] := by
    rw [List.erase_cons_tail (by simpa using hne), List.erase_cons_head]
  rw [herased] at hlone
  refine ⟨_, ?_, ⟨hlone, List.mem_singleton.2 rfl, hs.valid,
    hlinked.holder.of_words (by rw [hheap]), hlinked.kept.of_words (by rw [hheap])⟩,
    hheap.trans hheap₁⟩
  rw [play_getReference, hfollowed, proceed, play_release, hreleased, proceed]
  rfl

/-- Up to the collection the scenario links an object to another and releases it, if there is memory
for the two. -/
theorem Lone.linking (hs : s.Lone width entry []) (hwidth : 2 ≤ width)
    (hfirst : s.reply t (.newObject entry) ≠ .error .outOfMemory)
    (hsecond : ∀ a (s₁ : Session A), s₁.Lone width entry [a] →
      s₁.machine.heap.ListCell a (-1) Handle.null →
      s₁.machine.allocator = (s.after t (.newObject entry)).machine.allocator →
      s₁.machine.heap.size = s.machine.heap.size →
      s₁.reply t (.newObject entry) ≠ .error .outOfMemory) :
    ∃ (a b : Handle) (moment : Session A),
      s.play t (Workload.linking entry).ended = (.ok (a, b), moment) ∧ a ≠ b ∧
        moment.Linked width entry a b [a] ∧ moment.machine.heap.size = s.machine.heap.size := by
  obtain ⟨a, s₁, hplay₁, hlone, hlistCell, hallocator, hsize₁⟩ := hs.first hwidth hfirst
  obtain ⟨b, s₂, hplay₂, hne, hlinked, hsize₂⟩ :=
    hlone.second (t := t) hwidth hlistCell (hsecond a s₁ hlone hlistCell hallocator hsize₁)
  obtain ⟨moment, hplay₃, hparted, hheap⟩ := hlinked.parted (t := t) hne
  refine ⟨a, b, moment, (hplay₁ _).trans ((hplay₂ _).trans hplay₃), hne, hparted, ?_⟩
  rw [hheap, hsize₂, hsize₁]

/-! ### The refill -/

/-- Whether a stock, as some predicate tells it, is what a frame that holds the one of two linked
objects is given, one cell after the other, until memory is out. -/
structure Supplies (width : Nat) (t : Thread) (entry : Env) (a b : Handle)
    (Has : List Handle → Session A → Prop) : Prop where
  given : ∀ {s : Session A} {held : List Handle} {o : Handle} {stock : List Handle},
    s.Linked width entry a b held → Has (o :: stock) s →
      s.reply t (.newObject entry) = .ok o ∧ Has stock (s.after t (.newObject entry))
  tagged : ∀ {s : Session A} {held : List Handle} {o : Handle} {stock : List Handle},
    s.Linked width entry a b held →
      (s.after t (.setData entry o tagSlot (-3))).Linked width entry a b held → Has stock s →
      Has stock (s.after t (.setData entry o tagSlot (-3)))
  spent : ∀ {s : Session A} {held : List Handle}, s.Linked width entry a b held → Has [] s →
    s.reply t (.newObject entry) = .error .outOfMemory

/-- The refill is given the whole stock, and then finds memory out. -/
theorem Linked.refill {Has : List Handle → Session A → Prop}
    (supply : Supplies width t entry a b Has) (hwidth : 2 ≤ width)
    (hs : s.Linked width entry a b held) (hhas : Has stock s) {handles : List Handle}
    (hshort : stock.length < handles.length) :
    ∃ (held' : List Handle) (s₁ : Session A),
      s.play t (Workload.refill entry handles).ended = (.ok stock, s₁) ∧
        s₁.Linked width entry a b held' := by
  have hslot : tagSlot < width := Nat.lt_of_lt_of_le Nat.zero_lt_two hwidth
  induction handles generalizing s held stock with
  | nil => exact absurd hshort (Nat.not_lt_zero _)
  | cons _ handles ih =>
    rw [Workload.refill, play_ask]
    cases stock with
    | nil =>
      have hout := supply.spent hs hhas
      rw [hout]
      exact ⟨held, _, rfl, hs.of_same (hs.toLone.newObject_out hout)⟩
    | cons o stock =>
      obtain ⟨hreply, hrest⟩ := supply.given hs hhas
      obtain ⟨ha, hb, hmore⟩ := hs.newObject hreply
      obtain ⟨htagged, hlinked⟩ := hmore.setData (t := t)
        (List.mem_append_right _ (List.mem_singleton.2 rfl)) ha hb hslot
        (by decide : (-3 : Word) < 0)
      obtain ⟨held', s₁, hplay, hlast⟩ := ih hlinked (supply.tagged hmore hlinked hrest)
        (Nat.lt_of_succ_lt_succ hshort)
      refine ⟨held', s₁, ?_, hlast⟩
      rw [hreply]
      dsimp only
      rw [play_setData, htagged, proceed, play_bind, hplay]
      rfl

/-! ### The verdict -/

/-- The link is found to lead to the second object, which has its tag and was not given out. -/
theorem Linked.keeps (hs : s.Linked width entry a b held) (hfresh : b ∉ stock) :
    (s.play t (Workload.keeps entry a b stock).ended).1 = .ok true := by
  obtain ⟨hfollowed, hlinked, -⟩ := hs.getReference (t := t)
  have hheld : b ∈ if b ∈ held then held else held ++ [b] := by
    split
    · assumption
    · exact List.mem_append_right _ (List.mem_singleton.2 rfl)
  have hread : ((s.after t (.getReference entry a linkSlot)).machine.heap.words b)[tagSlot]? =
      some (-2) := by
    obtain ⟨rest, hwords, -⟩ := hlinked.kept
    rw [hwords]
    rfl
  obtain ⟨hfound, -⟩ := hlinked.getData_granted (t := t) hlinked.aloneHolding.active
    (hlinked.mem_frame hheld) hread (by decide)
  rw [Workload.keeps, play_getReference, hfollowed, proceed, if_pos ⟨rfl, hfresh⟩, play_ask, hfound]
  rfl

/-- From the collection on: what it reclaims is reported, the refill is given the stock, and the
second object is kept. -/
theorem Linked.judging {Has : List Handle → Session A → Prop}
    (supply : Supplies width t entry a b Has) (hwidth : 2 ≤ width)
    (hs : s.Linked width entry a b held) {reclaimed : Nat}
    (hcollected : s.reply t .collect = .ok reclaimed) (hhas : Has stock (s.after t .collect))
    (hshort : stock.length < s.machine.heap.handles.length) (hfresh : b ∉ stock) :
    (s.play t (Workload.judging entry a b).ended).1 = .ok ⟨b, reclaimed, stock, true⟩ := by
  have hlinked := hs.of_same (hs.toLone.collect (t := t))
  have hasked : (s.after t .collect).after t .handles = s.after t .collect := rfl
  have hhandles : (s.after t .collect).reply t .handles = s.machine.heap.handles :=
    congrArg Heap.handles (hs.toLone.collect (t := t)).2
  obtain ⟨held', s₁, hplay, hlast⟩ := hlinked.refill supply hwidth hhas hshort
  have hnoted : ∀ text, (s₁.after t (.note .debug text)).Linked width entry a b held' :=
    fun text => hlast.of_same ⟨hlast.toLone.note, rfl⟩
  rw [Workload.judging, play_ask, hcollected]
  change (play t (Code.ask .handles >>= _).ended (s.after t .collect)).1 = _
  rw [play_ask, hhandles, hasked, play_bind, hplay]
  dsimp only
  rw [play_ask, play_bind, (hnoted _).keeps hfresh]
  rfl

/-! ### The run around it -/

omit [LawfulCollector A] in
/-- What code in a run comes to is what the run comes to. -/
theorem play_inRun {name : String} {args : List Word} {body : Env → Code (Word × β)} {extra : β}
    (hbegun : s.reply t (.beginRun name args) = .ok entry)
    (hbody : ((s.after t (.beginRun name args)).play t (body entry).ended).1 = .ok (word, extra))
    (hdata : word.target? = none) :
    (s.play t (Code.inRun name args body).ended).1 = .ok (word, extra) := by
  rcases hplayed : (s.after t (.beginRun name args)).play t (body entry).ended with ⟨result, s₁⟩
  rw [hplayed] at hbody
  obtain rfl : result = _ := hbody
  have hended : s₁.reply t (.endRun entry (.ok word)) = .ok word :=
    reply_endRun fun word' hok => Except.ok.inj hok ▸ hdata
  rw [Code.inRun, play_ask, hbegun]
  change (play t (Code.attempt (body entry) >>= _).ended (s.after t (.beginRun name args))).1 = _
  rw [play_bind, Code.ended_attempt, play_andThen, hplayed]
  change (s₁.play t (Code.ask (.endRun entry (.ok word)) >>= _).ended).1 = _
  rw [play_ask, hended]
  rfl

omit [LawfulCollector A] in
/-- What the scenario finds is what is reported. -/
theorem runReachability_eq {scenario : Workload.Scenario}
    (hbegun : s.reply Thread.first (.beginRun Method.anonymous []) = .ok entry)
    (hbody : ((s.after Thread.first (.beginRun Method.anonymous [])).play Thread.first
      (Workload.reachability entry).ended).1 = .ok scenario) :
    (Workload.runReachability s.world).1 = .ok scenario := by
  have hrun : (s.play Thread.first (Code.ended Workload.reachabilityRun)).1 = .ok scenario := by
    have hinner : (s.play Thread.first (Code.inRun Method.anonymous [] fun entry => do
        return (0, ← Workload.reachability entry)).ended).1 = .ok (0, scenario) :=
      play_inRun hbegun (by rw [play_bind, hbody]; rfl) rfl
    rw [Workload.reachabilityRun, play_bind, hinner]
    rfl
  rw [Workload.runReachability, run_eq_play, hrun]

/-- Whether the scenario that begins in a session comes to its collection in another, where its
frame holds `a` and `b` hangs on the link of `a`. -/
structure Links (s : Session A) (entry : Env) (a b : Handle) (moment : Session A) : Prop where
  begun : s.reply Thread.first (.beginRun Method.anonymous []) = .ok entry
  linked : (s.after Thread.first (.beginRun Method.anonymous [])).play Thread.first
    (Workload.linking entry).ended = (.ok (a, b), moment)
  roots : moment.calls.roots = [a]
  link : moment.machine.heap.read a linkSlot = .ok b.toWord
  apart : a ≠ b

/-- The scenario reports what its collection reclaimed and the stock that its refill was given. -/
theorem Links.report {moment : Session A} {Has : List Handle → Session A → Prop}
    (hlinks : s.Links entry a b moment) (hlinked : moment.Linked width entry a b [a])
    (supply : Supplies width Thread.first entry a b Has) (hwidth : 2 ≤ width) {reclaimed : Nat}
    (hcollected : moment.reply Thread.first .collect = .ok reclaimed)
    (hhas : Has stock (moment.after Thread.first .collect))
    (hshort : stock.length < moment.machine.heap.handles.length) (hfresh : b ∉ stock) :
    (Workload.runReachability s.world).1 = .ok ⟨b, reclaimed, stock, true⟩ := by
  refine runReachability_eq hlinks.begun ?_
  rw [Workload.reachability_eq, play_bind, hlinks.linked]
  exact hlinked.judging supply hwidth hcollected hhas hshort hfresh

end Linking

/-! ### What each allocator gives -/

/-- An ascending list is told by its members. -/
theorem eq_filter_handles {heap : Heap} {cells : List Handle} {p : Handle → Bool}
    (hsorted : cells.Pairwise (· < ·))
    (hmem : ∀ h, h ∈ cells ↔ heap.contains h = true ∧ p h = true) :
    cells = heap.handles.filter p := by
  have hfiltered : (heap.handles.filter p).Pairwise (· < ·) := .filter _ List.pairwise_lt_range'
  have hperm : cells.Perm (heap.handles.filter p) := by
    refine (List.perm_ext_iff_of_nodup (hsorted.imp Nat.ne_of_lt)
      (hfiltered.imp Nat.ne_of_lt)).2 fun h => ?_
    rw [hmem, List.mem_filter, Heap.mem_handles_iff]
  exact hperm.eq_of_pairwise (fun _ _ _ _ hlt hgt => absurd hgt (Nat.lt_asymm hlt))
    hsorted hfiltered

section MarkSweep

variable {s : Session MarkSweep}

/-- A free list beside which all cells are held or linked. -/
def Swept (entry : Env) (a b : Handle) (stock : List Handle) (s : Session MarkSweep) : Prop :=
  s.machine.allocator.free = stock ∧ ∀ h, h ≠ 0 ∧ h < s.machine.heap.size →
    h = a ∨ h = b ∨ h ∈ (s.machine.frame entry).handles ∨ h ∈ stock

/-- Mark and sweep gives its free list, and finds nothing to reclaim where all else is in use. -/
theorem supplies_swept : Supplies width t entry a b (Swept entry a b) where
  given := by
    rintro s held o stock hs ⟨hfree, hall⟩
    obtain ⟨hreply, hrest⟩ := newObject_of_free (t := t) hs.toSound hs.aloneHolding.active hfree
    obtain ⟨-, -, hmore⟩ := hs.newObject hreply
    refine ⟨hreply, hrest, fun h hcell => ?_⟩
    rw [hs.aloneHolding.holds] at hall
    rw [hmore.aloneHolding.holds, List.mem_append, List.mem_singleton]
    rw [size_after_any] at hcell
    rcases hall h hcell with ha | hb | hheld | hstock
    · exact .inl ha
    · exact .inr (.inl hb)
    · exact .inr (.inr (.inl (.inl hheld)))
    · rcases List.mem_cons.1 hstock with rfl | hstock
      · exact .inr (.inr (.inl (.inr rfl)))
      · exact .inr (.inr (.inr hstock))
  tagged := by
    rintro s held o stock hs hs' ⟨hfree, hall⟩
    have hsame : (s.after t (.setData entry o tagSlot (-3))).machine.allocator =
        s.machine.allocator := World.allocator_perform rfl
    refine ⟨hsame ▸ hfree, fun h hcell => ?_⟩
    rw [size_after_any] at hcell
    rw [hs.aloneHolding.holds] at hall
    rw [hs'.aloneHolding.holds]
    exact hall h hcell
  spent := by
    rintro s held hs ⟨-, hall⟩
    rw [newObject_out_iff hs.toSound hs.aloneHolding.active, hs.roots]
    intro h hcell
    rw [hs.aloneHolding.holds] at hall
    rcases hall h (Heap.contains_iff.1 hcell) with rfl | rfl | hheld | hnone
    · exact .root hs.holds
    · exact hs.reaches
    · exact .root hheld
    · cases hnone

/-- Where two linked objects are all that is in reach, a collection finds all dead that was handed
out but for the two. -/
theorem Linked.dead (hs : s.Linked width entry a b [a]) (hne : a ≠ b) :
    (s.machine.allocator.found s.machine.heap [a]).reclaimed + 2 =
      (s.machine.heap.handles.filter s.machine.allocator.hasAllocated).length := by
  have hmem : ∀ h, h ∈ (s.machine.allocator.mark s.machine.heap [a]).dead s.machine.heap ↔
      s.machine.heap.contains h = true ∧ s.machine.allocator.hasAllocated h = true ∧
        ¬ (h = a ∨ h = b) := fun h => by
    rw [MarkSweep.mem_dead_mark_iff hs.ready.fits, hs.reaches_iff]
  have hlive : ∀ h, h = a ∨ h = b →
      s.machine.heap.contains h = true ∧ s.machine.allocator.hasAllocated h = true := by
    intro h hh
    have hreach : s.machine.heap.Reaches s.calls.roots h := by
      rw [hs.roots]
      exact hs.reaches_iff.2 hh
    exact ⟨hs.contains_of_reaches hreach, (hs.ready.live h hreach).1⟩
  have hnodup : ∀ p : Handle → Bool, (s.machine.heap.handles.filter p).Nodup :=
    fun _ => .filter _ List.nodup_range'
  have hperm : (s.machine.heap.handles.filter s.machine.allocator.hasAllocated).Perm
      (a :: b :: (s.machine.allocator.mark s.machine.heap [a]).dead s.machine.heap) := by
    refine (List.perm_ext_iff_of_nodup (hnodup _) ?_).2 fun h => ?_
    · refine List.nodup_cons.2 ⟨?_, List.nodup_cons.2 ⟨?_, hnodup _⟩⟩
      · rw [List.mem_cons, hmem]
        rintro (heq | ⟨-, -, hout⟩)
        · exact hne heq
        · exact hout (.inl rfl)
      · rw [hmem]
        exact fun hdead => hdead.2.2 (.inr rfl)
    · rw [List.mem_filter, Heap.mem_handles_iff, List.mem_cons, List.mem_cons, hmem, ← or_assoc]
      by_cases hh : h = a ∨ h = b
      · exact iff_of_true (hlive h hh) (.inl hh)
      · simp only [hh, not_false_eq_true, and_true, false_or]
  exact (hperm.length_eq).symm

/-- What is told of a collection by mark and sweep where two linked objects are all that is in
reach. -/
theorem Linked.swept (hs : s.Linked width entry a b [a]) (hne : a ≠ b) :
    ∃ reclaimed, s.reply t .collect = .ok reclaimed ∧
      reclaimed + 2 = (s.machine.heap.handles.filter s.machine.allocator.hasAllocated).length ∧
      Swept entry a b (s.machine.heap.handles.filter fun h => h ≠ a ∧ h ≠ b)
      (s.after t .collect) := by
  obtain ⟨hreply, hallocator⟩ := collect_of_sound (t := t) hs.toSound
  rw [hs.roots] at hreply hallocator
  refine ⟨_, hreply, hs.dead hne, ?_, fun h hcell => ?_⟩
  · rw [hallocator]
    refine eq_filter_handles (hs.ready.fits.collected [a]).sorted fun h => ?_
    have hfree := MarkSweep.mem_free_collected_iff (h := h) hs.ready
    rw [hs.roots, hs.reaches_iff, not_or] at hfree
    rw [decide_eq_true_eq]
    exact hfree
  · rw [size_after_any] at hcell
    by_cases hh : h ≠ a ∧ h ≠ b
    · refine .inr (.inr (.inr (List.mem_filter.2 ⟨?_, decide_eq_true hh⟩)))
      exact Heap.mem_handles_iff.2 (Heap.contains_iff.2 hcell)
    · rw [not_and_or, not_not, not_not] at hh
      exact hh.imp_right .inl

/-- Where at most one object is held, which is linked to nothing, there is memory for another. -/
theorem Lone.newObject_ne (hs : s.Lone width entry held) (hone : held.length ≤ 1)
    (hcards : ∀ a ∈ held, s.machine.heap.ListCell a (-1) Handle.null)
    (hroom : 3 ≤ s.machine.heap.size) : s.reply t (.newObject entry) ≠ .error .outOfMemory := by
  intro hout
  have hall := (newObject_out_iff hs.toSound hs.aloneHolding.active).1 hout
  rw [hs.roots] at hall
  have hheld : ∀ h, s.machine.heap.Reaches held h → h ∈ held := by
    intro h hreach
    induction hreach with
    | root hmem => exact hmem
    | link _ hlink ih =>
      exact absurd rfl (((hcards _ ih).mem_references_iff (by decide) (Nat.zero_le _)).1 hlink).1
  have hcell : ∀ h ∈ [1, 2], h ∈ held := by
    intro h hh
    refine hheld h (hall h (Heap.contains_iff.2 ?_))
    rcases List.mem_pair.1 hh with rfl | rfl
    · exact ⟨by decide, Nat.lt_of_succ_lt hroom⟩
    · exact ⟨by decide, hroom⟩
  have htwo : 2 ≤ held.length :=
    (List.subperm_of_subset (by decide : [1, 2].Nodup) hcell).length_le
  exact absurd (htwo.trans hone) (by decide)

/-- What the scenario comes to over mark and sweep. -/
theorem exists_links_swept (hs : s.WellFormed width) (hnone : s.calls.registered = [])
    (hwidth : 2 ≤ width) (hroom : 3 ≤ s.machine.heap.size) :
    ∃ (entry : Env) (a b : Handle) (moment : Session MarkSweep) (reclaimed : Nat),
      s.Links entry a b moment ∧
        reclaimed + 2 =
          (moment.machine.heap.handles.filter moment.machine.allocator.hasAllocated).length ∧
        (Workload.runReachability s.world).1 =
          .ok ⟨b, reclaimed, s.machine.heap.handles.filter fun h => h ≠ a ∧ h ≠ b, true⟩ := by
  let entry : Env := ⟨s.calls.known.size, s.calls.frames.size⟩
  have hbegun : s.reply Thread.first (.beginRun Method.anonymous []) = .ok entry :=
    reply_beginRun ..
  have hlone := Lone.of_begun hs hnone hbegun
  have hsize : (s.after Thread.first (.beginRun Method.anonymous [])).machine.heap.size =
      s.machine.heap.size := size_after_any
  obtain ⟨a, b, moment, hplay, hne, hlinked, hkept⟩ := hlone.linking (t := Thread.first) hwidth
    (hlone.newObject_ne (Nat.zero_le _) (fun _ => (nomatch ·)) (hsize.symm ▸ hroom))
    fun a s₁ hlone₁ hlistCell _ hsize₁ => hlone₁.newObject_ne (Nat.le_refl _)
      (fun a' ha' => List.mem_singleton.1 ha' ▸ hlistCell) (hsize₁ ▸ hsize.symm ▸ hroom)
  have hlinks : s.Links entry a b moment :=
    ⟨hbegun, hplay, hlinked.roots, hlinked.read_link, hne⟩
  obtain ⟨reclaimed, hcollected, hcount, hswept⟩ := hlinked.swept (t := Thread.first) hne
  have hhandles := Heap.handles_of_size (hkept.trans hsize)
  refine ⟨entry, a, b, moment, reclaimed, hlinks, hcount, ?_⟩
  rw [← hhandles]
  refine hlinks.report hlinked supplies_swept hwidth hcollected hswept ?_ ?_
  · rw [List.length_filter_lt_length_iff_exists]
    exact ⟨a, Heap.mem_handles_iff.2 (hlinked.contains hlinked.holds), by simp⟩
  · simp

end MarkSweep

section Bump

variable {s : Session Bump}

instance (b : Bump) : DecidablePred b.HandedOut := fun h =>
  inferInstanceAs (Decidable (h ≠ 0 ∧ h < b.next))

/-- The handles from the next one on. -/
def Counted (stock : List Handle) (s : Session Bump) : Prop :=
  List.range' s.machine.allocator.next (s.machine.heap.size - s.machine.allocator.next) = stock

/-- A counter gives one handle after the other. -/
theorem supplies_counted : Supplies width t entry a b Counted where
  given := by
    rintro s held o stock hs hcounted
    rw [Counted] at hcounted
    obtain ⟨rest, hlength⟩ : ∃ rest, s.machine.heap.size - s.machine.allocator.next = rest + 1 := by
      have hlength := congrArg List.length hcounted
      rw [List.length_range', List.length_cons] at hlength
      exact ⟨_, hlength⟩
    rw [hlength, List.range'_succ] at hcounted
    obtain ⟨rfl, rfl⟩ := List.cons.inj hcounted
    obtain ⟨hreply, hnext⟩ := newObject_of_next (t := t) hs.toSound hs.aloneHolding.active
      (Nat.lt_of_sub_eq_succ hlength)
    refine ⟨hreply, ?_⟩
    rw [Counted, hnext, size_after_any]
    congr 1
    omega
  tagged := by
    rintro s held o stock hs - hcounted
    have hsame : (s.after t (.setData entry o tagSlot (-3))).machine.allocator =
        s.machine.allocator := World.allocator_perform rfl
    rw [Counted, hsame, size_after_any]
    exact hcounted
  spent := by
    rintro s held hs hcounted
    have hle : s.machine.heap.size ≤ s.machine.allocator.next := by
      have hlength := congrArg List.length hcounted
      rw [List.length_range', List.length_nil] at hlength
      exact Nat.le_of_sub_eq_zero hlength
    exact (newObject_of_spent hs.toSound hs.aloneHolding.active hle).1

/-- What a counter has not handed out is what comes next. -/
theorem counted_of_sound (hs : s.Sound) :
    Counted (s.machine.heap.handles.filter fun h => ¬ s.machine.allocator.HandedOut h) s := by
  have hfits : s.machine.allocator.Fits s.machine.heap.size := hs.ready.fits
  refine eq_filter_handles List.pairwise_lt_range' fun h => ?_
  rw [List.mem_range'_1, Nat.add_sub_cancel' hfits.le, decide_eq_true_eq, Bump.HandedOut,
    Heap.contains_iff]
  constructor
  · rintro ⟨hle, hlt⟩
    have hpos : h ≠ 0 := fun heq => hfits.pos (Nat.le_zero.1 (heq ▸ hle))
    exact ⟨⟨hpos, hlt⟩, fun hgiven => Nat.not_lt_of_le hle hgiven.2⟩
  · rintro ⟨⟨hpos, hlt⟩, hfree⟩
    exact ⟨Nat.le_of_not_lt fun hbelow => hfree ⟨hpos, hbelow⟩, hlt⟩

/-- What the scenario comes to over a counter. -/
theorem exists_links_counted (hs : s.WellFormed width)
    (hbound : s.machine.allocator.BoundTo s.machine.heap.size) (hnone : s.calls.registered = [])
    (hwidth : 2 ≤ width) (hroom : 2 ≤ s.machine.allocator.remaining) :
    ∃ (entry : Env) (a b : Handle) (moment : Session Bump),
      s.Links entry a b moment ∧
        (Workload.runReachability s.world).1 =
          .ok ⟨b, 0, s.machine.heap.handles.filter fun h => ¬ moment.machine.allocator.HandedOut h,
            true⟩ := by
  let entry : Env := ⟨s.calls.known.size, s.calls.frames.size⟩
  have hbegun : s.reply Thread.first (.beginRun Method.anonymous []) = .ok entry :=
    reply_beginRun ..
  have hlone := Lone.of_begun hs hnone hbegun
  have hsize : (s.after Thread.first (.beginRun Method.anonymous [])).machine.heap.size =
      s.machine.heap.size := size_after_any
  have hsame : (s.after Thread.first (.beginRun Method.anonymous [])).machine.allocator =
      s.machine.allocator := World.allocator_perform rfl
  rw [hbound.remaining] at hroom
  have htwo : s.machine.allocator.next + 1 < s.machine.heap.size := Nat.lt_sub_iff_add_lt'.1 hroom
  obtain ⟨hfirst, hnext⟩ :=
    newObject_of_next (t := Thread.first) hlone.toSound hlone.aloneHolding.active
    (by rw [hsame, hsize]; exact Nat.lt_of_succ_lt htwo)
  obtain ⟨a, b, moment, hplay, hne, hlinked, hkept⟩ := hlone.linking (t := Thread.first) hwidth
    (hfirst ▸ nofun) fun a s₁ hlone₁ _ hallocator hsize₁ => by
      have hlt : s₁.machine.allocator.next < s₁.machine.heap.size := by
        rw [hallocator, hnext, hsize₁, hsize, hsame]
        exact htwo
      rw [(newObject_of_next hlone₁.toSound hlone₁.aloneHolding.active hlt).1]
      exact nofun
  have hlinks : s.Links entry a b moment :=
    ⟨hbegun, hplay, hlinked.roots, hlinked.read_link, hne⟩
  have hgiven : ∀ h, moment.machine.heap.Reaches [a] h → moment.machine.allocator.HandedOut h := by
    intro h hreach
    rw [← hlinked.roots] at hreach
    exact hlinked.ready.live h hreach
  have hhandles := Heap.handles_of_size (hkept.trans hsize)
  refine ⟨entry, a, b, moment, hlinks, ?_⟩
  rw [← hhandles]
  refine hlinks.report hlinked supplies_counted hwidth rfl (counted_of_sound hlinked.toSound) ?_ ?_
  · rw [List.length_filter_lt_length_iff_exists]
    refine ⟨a, Heap.mem_handles_iff.2 (hlinked.contains hlinked.holds), ?_⟩
    simpa using hgiven a (.root (List.mem_singleton.2 rfl))
  · rw [List.mem_filter]
    simpa using fun _ => hgiven b hlinked.reaches

end Bump

end Session

namespace Workload

open Session

/-! ### On every machine -/

/-- What is said of the scenario over mark and sweep: on a machine with two cells or more and no
registered stack, after whatever orderly use of it, the released object survives; the collection
reclaims all cells that were handed out just before it, but for the two, and the refill is given all
cells but the two, in ascending order. -/
def SurvivesSweeping : Prop :=
  ∀ (maxPause : Duration) (clock : Nat → Duration) (config : MachineConfig) (width : Nat)
    (s : Session MarkSweep), s.LeftIdle { MarkSweep.fresh maxPause with clock } config width →
    2 ≤ width → 3 ≤ s.machine.heap.size →
    ∃ (entry : Env) (a b : Handle) (moment : Session MarkSweep) (reclaimed : Nat),
      s.Links entry a b moment ∧
        reclaimed + 2 =
          (moment.machine.heap.handles.filter moment.machine.allocator.hasAllocated).length ∧
        (runReachability s.world).1 =
          .ok ⟨b, reclaimed, s.machine.heap.handles.filter fun h => h ≠ a ∧ h ≠ b, true⟩

/-- What is said of the scenario over a counter that has two cells left: the released object
survives, nothing is reclaimed, and the refill is given all that was not handed out yet, in
ascending order. -/
def SurvivesCounting : Prop :=
  ∀ (config : MachineConfig) (width : Nat) (s : Session Bump),
    s.LeftIdle Bump.fresh config width → 2 ≤ width → 2 ≤ s.machine.allocator.remaining →
    ∃ (entry : Env) (a b : Handle) (moment : Session Bump),
      s.Links entry a b moment ∧
        (runReachability s.world).1 =
          .ok ⟨b, 0, s.machine.heap.handles.filter fun h => ¬ moment.machine.allocator.HandedOut h,
            true⟩

/-- The scenario comes out right in every state: it links two objects and then asks for the
collection, and the object that it has released survives, whichever allocator it runs over. -/
theorem released_object_survives :
    (∀ env, reachability env = linking env >>= fun (a, b) => judging env a b) ∧
      SurvivesSweeping ∧ SurvivesCounting := by
  refine ⟨reachability_eq, ?_, ?_⟩
  · intro maxPause clock config width s hs hwidth hroom
    exact exists_links_swept hs.orderly.wellFormed hs.unregistered hwidth hroom
  · intro config width s hs hwidth hroom
    exact exists_links_counted hs.orderly.wellFormed hs.orderly.boundTo hs.unregistered hwidth hroom

/-- A run that leaves two objects behind. -/
def littering : List (Thread × Action) :=
  [(0, .beginRun "entry" []), (0, .newObject ⟨0, 0⟩), (0, .newObject ⟨0, 0⟩),
    (0, .endRun ⟨0, 0⟩ (.ok (-1)))]

/-- What is said of the scenario in all states, said of two machines on which a run has left two
objects behind. -/
theorem released_object_survives_littering :
    (∃ (start : Machine MarkSweep) (past : List Move) (s : Session MarkSweep),
      Machine.build Thread.first (.ofSize 5 2)
          { MarkSweep.fresh .zero with clock := fun _ => .zero } .standard = .ok start ∧
        Ran start past s ∧ s.machine.allocator.free = [3, 4] ∧
        ∃ (entry : Env) (a b : Handle) (moment : Session MarkSweep) (reclaimed : Nat),
          s.Links entry a b moment ∧
            reclaimed + 2 =
              (moment.machine.heap.handles.filter moment.machine.allocator.hasAllocated).length ∧
            (runReachability s.world).1 =
              .ok ⟨b, reclaimed, s.machine.heap.handles.filter fun h => h ≠ a ∧ h ≠ b, true⟩) ∧
      ∃ (start : Machine Bump) (past : List Move) (s : Session Bump),
        Machine.build Thread.first (.ofSize 7 2) Bump.fresh .standard = .ok start ∧
          Ran start past s ∧ s.machine.allocator.remaining = 4 ∧
          ∃ (entry : Env) (a b : Handle) (moment : Session Bump),
            s.Links entry a b moment ∧
              (runReachability s.world).1 =
                .ok ⟨b, 0, s.machine.heap.handles.filter fun h =>
                  ¬ moment.machine.allocator.HandedOut h, true⟩ := by
  obtain ⟨-, hsweeping, hcounting⟩ := released_object_survives
  constructor
  · have hseen : observed (.ofSize 5 2) { MarkSweep.fresh .zero with clock := fun _ => .zero }
        littering (fun _ s => (s.machine.allocator.free, s.machine.heap.size, s.calls.registered)) =
          some ([3, 4], 5, []) := by decide +kernel
    obtain ⟨start, past, s, hbuild, hran, hpast, hsights⟩ := exists_ran_of_observed hseen
    obtain ⟨hfree, hsize, hnone⟩ := by simpa only [Prod.mk.injEq] using hsights
    refine ⟨start, past, s, hbuild, hran, hfree, ?_⟩
    have horderly := orderly_of_script hpast (by decide)
    exact hsweeping _ _ _ _ s ⟨⟨⟨hbuild, by decide⟩, hran, horderly⟩, hnone⟩ (by decide)
      (by rw [hsize]; decide)
  · have hseen : observed (.ofSize 7 2) Bump.fresh littering
        (fun _ s => (s.machine.allocator.remaining, s.calls.registered)) = some (4, []) := by
      decide +kernel
    obtain ⟨start, past, s, hbuild, hran, hpast, hsights⟩ := exists_ran_of_observed hseen
    obtain ⟨hremaining, hnone⟩ := by simpa only [Prod.mk.injEq] using hsights
    refine ⟨start, past, s, hbuild, hran, hremaining, ?_⟩
    have horderly := orderly_of_script hpast (by decide)
    exact hcounting _ _ s ⟨⟨⟨hbuild, by decide⟩, hran, horderly⟩, hnone⟩ (by decide)
      (by rw [hremaining]; decide)

end Workload

end RootedHeap
