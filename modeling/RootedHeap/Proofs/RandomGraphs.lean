import RootedHeap.Proofs.Tagging

/-!
What a random graph does to its frame, followed through its code: each helper of it is one rule that
says what is known before and after. Its list of tags stays true of all cells in the reach of its
frame, each choice holds one more object at most and uses up one more tag at most, and so the graph
comes to its end with the tags in place, unless memory is out while its frame holds nothing.

Draws may be any that are below the bound asked for; those of the generator with a key stream are.
-/

namespace RootedHeap

/-- A generator whose draws are below the bounds asked for. -/
class LawfulDraws (G : Type) [Draws G] : Prop where
  below_lt : ∀ (g : G) (n : Nat), 0 < n → (Draws.below g n).1 < n

/-- The upper half of a word times `n` is below `n`, and stays below it when the next word rounds it
up. -/
theorem ChaCha.below_lt (g : ChaCha) (n : Nat) (hn : 0 < n) : (g.below n).1 < n := by
  have hproduct : ∀ w : UInt32, w.toNat * n ≤ 4294967295 * n := fun w =>
    Nat.mul_le_mul_right n (Nat.le_of_lt_succ w.toNat_lt)
  unfold below span
  rcases g.next with ⟨w, g⟩
  dsimp only
  have hw := hproduct w
  split
  · rcases g.next with ⟨w', g⟩
    dsimp only
    have hw' := hproduct w'
    split <;> omega
  · dsimp only
    omega

instance : LawfulDraws ChaCha := ⟨ChaCha.below_lt⟩

namespace Workload

open Code

variable {A : Type} [Allocator A] {G : Type}

/-! ### What a random graph knows -/

/-- The frame holds just these objects, and its cells match their tags. -/
def matchingTags (A : Type) (env : Env) (tags : Tags) (new : Option Handle) (held : List Handle) :
    Knowledge A env :=
  ⟨Session.MatchesTags env tags new held, fun hun h => h.unnoticed hun⟩

/-- The frame holds at most so many objects, and its cells match their tags. -/
def matchingSomeTags (A : Type) (env : Env) (tags : Tags) (new : Option Handle) (n : Nat) :
    Knowledge A env :=
  .any fun held => .given (held.length ≤ n) (matchingTags A env tags new held)

/-- What is known after so many choices: at most as many objects are held, and at most as many tags
were used up. -/
def remembering (A : Type) (env : Env) (n : Nat) (memory : Memory G) : Knowledge A env :=
  .given (memory.nextTag < 0 ∧ -(n + 1) ≤ memory.nextTag.toInt)
    (matchingSomeTags A env memory.tags none n)

/-- What a random graph returns: minus the number of objects that its frame holds. -/
def counting (A : Type) (env : Env) (n : Nat) (word : Word) : Knowledge A env :=
  .any fun held => .given (held.length ≤ n ∧ word = -(Word.ofCount held.length))
    ⟨Session.AloneHolding env held, fun hun h => h.unnoticed hun⟩

/-- What a random graph works with: cells with a slot, in a place where memory may be out while
the frame holds nothing. -/
structure GraphResources [LawfulCollector A] (b : CodeContext A) (width : Nat) : Prop where
  wellFormed : ∀ s, b.Sure s → s.WellFormed width
  kept : ∀ s action, b.Sure s → s.Proper b.env action → b.Sure (s.after b.thread action)
  wide : 0 < width
  stops : ∀ s, b.Sure s → s.MatchesTags b.env [] none [] →
    s.reply b.thread (.newObject b.env) = .error .outOfMemory → b.Stops (.fault .outOfMemory)

namespace GraphResources

variable {b : CodeContext A} {width n : Nat} {tags : Tags} {held : List Handle}
  {object target : Handle}
  {slot : Nat}

variable [LawfulCollector A]

/-! ### Single steps -/

/-- One action, where what is sure is not at stake. -/
theorem ask (hb : GraphResources b width) {action : Action} {P : Knowledge A b.env}
    {Q : action.Reply → Knowledge A b.env}
    (hproper : ∀ s, b.Sure s → P.Holds s → s.Proper b.env action)
    (hreply : ∀ s, b.Sure s → P.Holds s →
      (Q (s.reply b.thread action)).Holds (s.after b.thread action)) :
    b.Keeps P (Code.ask action) Q :=
  .ask hproper (fun s hsure hP => hb.kept s action hsure (hproper s hsure hP)) hreply

/-- What a frame holds is looked up. -/
theorem activeHandles (hb : GraphResources b width) :
    b.Keeps (matchingSomeTags A b.env tags none n) (Code.activeHandles b.env)
      fun held => .given (held.length ≤ n) (matchingTags A b.env tags none held) := by
  refine .bind (hb.ask (Q := fun (frame : Frame) => .given (frame.handles.length ≤ n)
    (matchingTags A b.env tags none frame.handles)) ?_ ?_) fun _ => .pure fun _ _ h => h
  · rintro s - ⟨held, -, h⟩
    exact ⟨h.known, rfl, .inr rfl, fun _ => rfl⟩
  · rintro s - ⟨held, hle, h⟩
    obtain rfl := h.holds
    exact ⟨hle, h⟩

theorem release (hb : GraphResources b width) (hobject : object ∈ held) :
    b.Keeps (matchingTags A b.env tags none held) (Code.release b.env object)
      fun _ => matchingTags A b.env tags none (held.erase object) := by
  refine .bind (hb.ask (Q := b.answered fun _ => matchingTags A b.env tags none (held.erase object))
    (fun s _ h => ⟨h.known, rfl, .inl rfl, fun _ => rfl⟩) fun s _ h => ?_) .orStop
  obtain ⟨hreply, hafter⟩ := Session.MatchesTags.release (t := b.thread) h hobject
  rw [hreply]
  exact hafter

theorem releaseAll (hb : GraphResources b width) :
    b.Keeps (matchingTags A b.env tags none held) (Code.releaseAll b.env held)
      fun _ => matchingTags A b.env tags none [] := by
  induction held with
  | nil => exact .pure fun _ _ h => h
  | cons object rest ih =>
    have hrelease : b.Keeps (matchingTags A b.env tags none (object :: rest))
        (Code.release b.env object)
        fun _ => matchingTags A b.env tags none ((object :: rest).erase object) :=
      hb.release List.mem_cons_self
    rw [List.erase_cons_head] at hrelease
    exact .bind hrelease fun _ => ih

theorem getData (hb : GraphResources b width) (hobject : object ∈ held) :
    b.Keeps (matchingTags A b.env tags none held) (Code.getData b.env object tagSlot)
      fun tag => .given (tags.lookup object = some tag) (matchingTags A b.env tags none held) := by
  refine .bind (hb.ask (Q := b.answered fun tag =>
      .given (tags.lookup object = some tag) (matchingTags A b.env tags none held))
    (fun s _ h => ⟨h.known, rfl, .inl rfl, fun _ => rfl⟩) fun s hsure h => ?_) .orStop
  obtain ⟨tag, hreply, hlookup, hafter⟩ :=
    Session.MatchesTags.getData (t := b.thread) h hobject (hb.wellFormed s hsure)
  rw [hreply]
  exact ⟨hlookup, hafter⟩

theorem setReference (hb : GraphResources b width) (hobject : object ∈ held)
    (htarget : target ∈ held) (hpos : 0 < slot) (hslot : slot < width) :
    b.Keeps (matchingTags A b.env tags none held) (Code.setReference b.env object slot target)
      fun _ => matchingTags A b.env tags none held := by
  refine .bind (hb.ask (Q := b.answered fun _ => matchingTags A b.env tags none held)
    (fun s _ h => ⟨h.known, rfl, .inl rfl, fun _ => rfl⟩) fun s hsure h => ?_) .orStop
  obtain ⟨hreply, hafter⟩ :=
    Session.MatchesTags.setReference (t := b.thread) h (hb.wellFormed s hsure)
    hobject htarget hpos hslot
  rw [hreply]
  exact hafter

theorem getReference (hb : GraphResources b width) (hobject : object ∈ held) (hpos : 0 < slot)
    (hslot : slot < width) :
    b.Keeps (matchingTags A b.env tags none held) (Code.getReference b.env object slot)
      fun _ => matchingSomeTags A b.env tags none (held.length + 1) := by
  refine .bind
    (hb.ask (Q := b.answered fun _ => matchingSomeTags A b.env tags none (held.length + 1))
    (fun s _ h => ⟨h.known, rfl, .inl rfl, fun _ => rfl⟩) fun s hsure h => ?_) .orStop
  obtain ⟨o, held', hreply, hle, hafter⟩ :=
    Session.MatchesTags.getReference (t := b.thread) h (hb.wellFormed s hsure) hobject hpos hslot
  rw [hreply]
  exact ⟨held', hle, hafter⟩

/-- An object gets its tag. -/
theorem setData (hb : GraphResources b width) {tag : Word} (htag : tag < 0) :
    b.Keeps (matchingSomeTags A b.env tags (some object) n) (Code.setData b.env object tagSlot tag)
      fun _ => matchingSomeTags A b.env (tags.set object tag) none n := by
  refine .any fun held => .given fun hle => ?_
  refine .bind
    (hb.ask (Q := b.answered fun _ => matchingSomeTags A b.env (tags.set object tag) none n)
    (fun s _ h => ⟨h.known, rfl, .inl rfl, fun _ => rfl⟩) fun s hsure h => ?_) .orStop
  obtain ⟨hreply, hafter⟩ :=
    Session.MatchesTags.setData (t := b.thread) h (hb.wellFormed s hsure) hb.wide htag
  rw [hreply]
  exact ⟨held, hle, hafter⟩

/-- A frame that holds nothing asks for an object. -/
theorem newObject (hb : GraphResources b width) :
    b.Keeps (matchingTags A b.env [] none []) (Code.newObject b.env)
      fun object => matchingSomeTags A b.env [] (some object) 1 := by
  refine .bind (hb.ask (Q := b.answered fun object => matchingSomeTags A b.env [] (some object) 1)
    (fun s _ h => ⟨h.known, rfl, .inl rfl, fun _ => rfl⟩) fun s hsure h => ?_) .orStop
  rcases Session.MatchesTags.newObject (t := b.thread) h (hb.wellFormed s hsure) with
    ⟨o, hreply, hafter⟩ | ⟨hreply, -⟩
  · rw [hreply]
    exact ⟨[o], List.length_singleton.le, hafter⟩
  · have hstops := hb.stops s hsure h hreply
    rw [hreply]
    exact hstops

/-! ### Objects and their tags -/

/-- An object is made, if need be after everything was let go. -/
theorem allocateOrReset (hb : GraphResources b width) :
    b.Keeps (matchingSomeTags A b.env tags none n) (Workload.allocateOrReset b.env tags)
      fun (object, tags') => matchingSomeTags A b.env tags' (some object) (n + 1) := by
  refine .bind (hb.ask (Q := fun (answer : Answer Handle) => match answer with
      | .ok object => matchingSomeTags A b.env tags (some object) (n + 1)
      | .error fault => .given (fault = .outOfMemory) (matchingSomeTags A b.env tags none n))
      ?_ ?_) ?_
  · rintro s - ⟨held, -, h⟩
    exact ⟨h.known, rfl, .inl rfl, fun _ => rfl⟩
  · rintro s hsure ⟨held, hle, h⟩
    rcases Session.MatchesTags.newObject (t := b.thread) h (hb.wellFormed s hsure) with
      ⟨o, hreply, hafter⟩ | ⟨hreply, hafter⟩
    · rw [hreply]
      exact ⟨_, by simpa using hle, hafter⟩
    · rw [hreply]
      exact ⟨rfl, held, hle, hafter⟩
  · rintro (fault | object)
    · refine .given ?_
      rintro rfl
      refine .bind (Q := fun _ => matchingSomeTags A b.env tags none n) ?_ fun _ => ?_
      · refine hb.ask ?_ ?_
        · exact fun _ _ _ => ⟨trivial, rfl, .inr rfl, fun _ => rfl⟩
        rintro s - ⟨held, hle, h⟩
        exact ⟨held, hle, h.toAloneHolding.of_same rfl rfl, h.tagsMatch⟩
      refine .bind hb.activeHandles fun held => .given fun _ => .bind hb.releaseAll fun _ => ?_
      have hmade : b.Keeps (matchingTags A b.env tags none []) (Code.newObject b.env)
          fun object => matchingSomeTags A b.env [] (some object) 1 :=
        hb.newObject.of_imp fun s h => ⟨h.toAloneHolding, .nil⟩
      refine .bind hmade fun object => .pure ?_
      rintro s - ⟨held, hle, h⟩
      exact ⟨held, hle.trans (Nat.le_add_left _ _), h⟩
    · exact .pure fun _ _ h => h

/-- The next tag is one below the last. -/
theorem tagBelow {tag : Word} (htag : tag < 0) (hle : -(n + 1) ≤ tag.toInt)
    (hn : n + 1 < 0x8000000000000000) :
    ∃ below, Workload.tagBelow tag 1 = Pure.pure below ∧ below < 0 ∧
      -((n + 1 : Nat) + 1) ≤ below.toInt := by
  rw [Int64.lt_iff_toInt_lt, Int64.toInt_zero] at htag
  have hvalue : (Int64.ofInt (tag.toInt - 1)).toInt = tag.toInt - 1 :=
    Int64.toInt_ofInt_of_le (by omega) (by omega)
  refine ⟨Int64.ofInt (tag.toInt - 1), ?_, ?_, ?_⟩
  · rw [Workload.tagBelow, Word.below?, if_pos (by omega)]
    rfl
  · rw [Int64.lt_iff_toInt_lt, hvalue, Int64.toInt_zero]
    omega
  · rw [hvalue]
    omega

/-- An object is made and tagged. -/
theorem allocateTagged (hb : GraphResources b width) {memory : Memory G}
    (hn : n + 1 < 0x8000000000000000) :
    b.Keeps (remembering A b.env n memory) (Workload.allocateTagged b.env memory)
      fun memory' => remembering A b.env (n + 1) memory' := by
  refine .given fun ⟨hneg, hle⟩ => ?_
  obtain ⟨below, hbelow, hneg', hle'⟩ := tagBelow hneg hle hn
  refine .bind hb.allocateOrReset fun (object, tags) => .bind (hb.setData hneg) fun _ => ?_
  rw [hbelow]
  refine .bind (Q := fun tag => .given (tag = below)
    (matchingSomeTags A b.env (tags.set object memory.nextTag) none (n + 1)))
    (.pure fun _ _ h => ⟨rfl, h⟩)
    fun tag => .given ?_
  rintro rfl
  exact .pure fun _ _ h => ⟨⟨hneg', hle'⟩, h⟩

/-! ### Choices -/

variable [Draws G] [LawfulDraws G] {memory : Memory G}

omit [Allocator A] [LawfulCollector A] in
theorem getD_mem {i : Nat} (hi : i < held.length) : held.getD i Handle.null ∈ held := by
  rw [List.getD, List.getElem?_eq_getElem hi]
  exact List.getElem_mem hi

omit [Allocator A] [LawfulCollector A] in
/-- A slot that is drawn is one of a cell, behind the tag. -/
theorem drawSlot_spec (draws : G) (hwide : linkSlot < width) :
    0 < (drawSlot draws width).1 ∧ (drawSlot draws width).1 < width := by
  have hlt := LawfulDraws.below_lt draws (width - linkSlot) (Nat.sub_pos_of_lt hwide)
  have heq : (drawSlot draws width).1 = linkSlot + (Draws.below draws (width - linkSlot)).1 := rfl
  rw [heq]
  have hlink : linkSlot = 1 := rfl
  omega

/-- One choice. -/
theorem choose (hb : GraphResources b width) (maxLive : Nat) (hn : n + 1 < 0x8000000000000000)
    (hle : held.length ≤ n) (htag : memory.nextTag < 0 ∧ -(n + 1) ≤ memory.nextTag.toInt) :
    b.Keeps (matchingTags A b.env memory.tags none held)
      (Workload.choose b.env width maxLive held memory)
      fun memory' => remembering A b.env (n + 1) memory' := by
  have htag' : -((n + 1 : Nat) + 1) ≤ memory.nextTag.toInt := by omega
  have hallocate : ∀ draws : G, b.Keeps (matchingTags A b.env memory.tags none held)
      (Workload.allocateTagged b.env { memory with draws })
      fun memory' => remembering A b.env (n + 1) memory' := fun draws =>
    (hb.allocateTagged hn).of_imp fun s h => ⟨htag, held, hle, h⟩
  unfold Workload.choose
  split
  · exact hallocate memory.draws
  · rename_i hempty
    have hpos : 0 < held.length := List.length_pos_of_ne_nil (by simpa using hempty)
    have hpicked := getD_mem (LawfulDraws.below_lt memory.draws held.length hpos)
    generalize Draws.below memory.draws held.length = drawn at hpicked ⊢
    obtain ⟨i, draws⟩ := drawn
    dsimp only at hpicked ⊢
    rcases Draws.below draws 4 with ⟨kind, draws⟩
    dsimp only
    split
    · exact hallocate draws
    split
    · rename_i hlink
      have htarget := getD_mem (LawfulDraws.below_lt draws held.length hpos)
      generalize Draws.below draws held.length = drawn at htarget ⊢
      obtain ⟨j, draws⟩ := drawn
      obtain ⟨hslot, hslot'⟩ := drawSlot_spec draws hlink.2
      refine .bind (hb.setReference hpicked htarget hslot hslot') fun _ => .pure fun s _ h => ?_
      exact ⟨⟨htag.1, htag'⟩, held, hle.trans (Nat.le_succ n), h⟩
    split
    · rename_i hlink
      obtain ⟨hslot, hslot'⟩ := drawSlot_spec draws hlink.2
      refine .bind (hb.getReference hpicked hslot hslot') fun _ => .pure ?_
      rintro s - ⟨held', hle', h⟩
      exact ⟨⟨htag.1, htag'⟩, held', hle'.trans (Nat.succ_le_succ hle), h⟩
    · refine .bind (hb.release hpicked) fun _ => .pure fun s _ h => ?_
      exact ⟨⟨htag.1, htag'⟩, _, List.length_erase_le.trans (hle.trans (Nat.le_succ n)), h⟩

/-- Several choices, after so many others. -/
theorem chooseRepeatedly (hb : GraphResources b width) (maxLive : Nat) {k : Nat}
    (hn : n + k < 0x8000000000000000) :
    b.Keeps (remembering A b.env n memory)
      (Workload.chooseRepeatedly b.env width maxLive k memory)
      fun memory' => remembering A b.env (n + k) memory' := by
  induction k generalizing n memory with
  | zero => exact .pure fun _ _ h => h
  | succ k ih =>
    refine .given fun htag => .bind hb.activeHandles fun held => .given fun hle => ?_
    refine .bind (hb.choose maxLive (by omega) hle htag) fun memory' => ?_
    have hrest : b.Keeps (remembering A b.env (n + 1) memory')
        (Workload.chooseRepeatedly b.env width maxLive k memory')
        fun memory'' => remembering A b.env (n + 1 + k) memory'' := ih (by omega)
    rw [Nat.add_right_comm] at hrest
    exact hrest

/-! ### The end -/

omit [Draws G] [LawfulDraws G] in
/-- Objects that are held carry their tags. -/
theorem checkTags (hb : GraphResources b width) {objects : List Handle}
    (hobjects : ∀ o ∈ objects, o ∈ held) :
    b.Keeps (matchingTags A b.env tags none held) (Workload.checkTags b.env tags objects)
      fun _ => matchingTags A b.env tags none held := by
  induction objects with
  | nil => exact .pure fun _ _ h => h
  | cons object rest ih =>
    obtain ⟨hobject, hrest⟩ := List.forall_mem_cons.1 hobjects
    refine .bind (hb.getData hobject) fun tag => .given fun hlookup => ?_
    rw [hlookup, if_neg (by simp)]
    exact ih hrest

/-- A random graph, run in a frame that holds nothing, returns minus the number of objects that the
frame holds in the end, or finds no memory while it holds nothing. -/
theorem body (hb : GraphResources b width) (iterations maxLive : Nat) (draws : G)
    (hiterations : iterations < 0x8000000000000000) (args : List Word) :
    b.Keeps (matchingTags A b.env [] none [])
    ((randomGraph iterations maxLive draws).body b.env args)
      fun word => counting A b.env iterations word := by
  have hwidth : b.Keeps (matchingTags A b.env [] none []) (Code.ask .width)
      fun (answer : Nat) => .given (width = answer) (matchingTags A b.env [] none []) :=
    hb.ask (fun _ _ _ => ⟨trivial, rfl, .inr rfl, fun _ => rfl⟩)
      fun s hsure h =>
        ⟨(hb.wellFormed s hsure).spanned.symm, h.toAloneHolding.of_same rfl rfl, h.tagsMatch⟩
  refine .bind hwidth fun answer => .given ?_
  rintro rfl
  have hfirst : (-1 : Word) < 0 ∧ -((0 : Nat) + 1 : Int) ≤ (-1 : Word).toInt := by decide
  have hstart : b.Keeps (matchingTags A b.env [] none [])
      (Workload.chooseRepeatedly b.env width maxLive iterations ⟨draws, [], -1⟩)
      fun memory' => remembering A b.env (0 + iterations) memory' :=
    (hb.chooseRepeatedly maxLive (by omega)).of_imp fun s h =>
      ⟨hfirst, [], Nat.le_refl 0, h⟩
  rw [Nat.zero_add] at hstart
  refine .bind hstart fun memory => .given fun _ => .bind hb.activeHandles fun held =>
    .given fun hle => ?_
  refine .bind (hb.checkTags fun _ ho => ho) fun _ => .pure fun s _ h => ?_
  exact ⟨held, ⟨hle, rfl⟩, h.toAloneHolding⟩

end GraphResources

end Workload

end RootedHeap
