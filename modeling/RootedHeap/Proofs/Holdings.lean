import RootedHeap.Proofs.Crowds
import RootedHeap.Proofs.GrantedOperations
import RootedHeap.Workload.RandomGraph

/-!
How much a random graph holds. It asks for an object only while its frame holds fewer than its
limit, so what it allocates never brings the frame above the limit. A link that it follows may: the
object behind it, let go of before, is held again, and nothing looks at the limit then. So the frame
holds at most as many objects as the limit and the links that brought one back say together, and it
may really hold more than the limit.

`Program.Modest` says this of a program alone, on every path of answers; what a frame holds is told
from the answers, since no one else changes it.
-/

namespace RootedHeap

/-! ### What a frame holds, told from answers -/

namespace Action

/-- Whether an action is one of the frame itself on its objects, or is no frame's. -/
def Own (env : Env) : Action → Prop
  | .newObject e | .getReference e _ _ | .getData e _ _ | .setReference e _ _ _
  | .setData e _ _ _ | .release e _ | .frame e => e = env
  | .width | .note .. => True
  | _ => False

/-- What a frame that held some objects holds after an answer. -/
def holding (held : List Handle) : (action : Action) → action.Reply → List Handle
  | .newObject _, .ok h => held ++ [h]
  | .getReference .., .ok h => if h = Handle.null ∨ h ∈ held then held else held ++ [h]
  | .release _ object, .ok _ => held.erase object
  | _, _ => held

/-- The number of objects that an answer brings back: those behind a link that are not held. -/
def regained (held : List Handle) : (action : Action) → action.Reply → Nat
  | .getReference .., .ok h => if h = Handle.null ∨ h ∈ held then 0 else 1
  | _, _ => 0

/-- Whether an answer shows what the frame holds, if it is asked for that. -/
def Shows (held : List Handle) : (action : Action) → action.Reply → Prop
  | .frame _, shown => Frame.handles shown = held
  | _, _ => True

/-- Whether there is room for what an action asks for. -/
def Affords (limit : Nat) (held : List Handle) : Action → Prop
  | .newObject _ => held.length < limit
  | _ => True

/-- If there is room for what is asked for, only links that are followed lead above the limit. -/
theorem length_holding_le {limit k : Nat} {held : List Handle} {action : Action}
    (hle : held.length ≤ limit + k) (hroom : action.Affords limit held) (reply : action.Reply) :
    (action.holding held reply).length ≤ limit + (k + action.regained held reply) := by
  cases action with
  | newObject env =>
    cases reply with
    | error fault => exact hle
    | ok h =>
      have hlt : held.length < limit := hroom
      change (held ++ [h]).length ≤ limit + (k + 0)
      rw [List.length_append, List.length_singleton]
      omega
  | getReference env object slot =>
    cases reply with
    | error fault => exact hle
    | ok h =>
      rw [holding, regained]
      split
      · exact hle
      · rw [List.length_append, List.length_singleton]
        omega
  | release env object =>
    cases reply with
    | error fault => exact hle
    | ok _ => exact List.length_erase_le.trans hle
  | _ => exact hle

end Action

namespace Program

variable {α β : Type}

/-- Whether a program of a frame does no more than ask for objects while there is room for them, and
use those of the frame, and comes to a result of which something is true. -/
def Modest (env : Env) (limit : Nat) (Q : α → List Handle → Prop) :
    Program α → List Handle → Prop
  | .done a, held => Q a held
  | .act action next, held => action.Own env ∧ action.Affords limit held ∧
    ∀ reply, action.Shows held reply →
      (next reply).Modest env limit Q (action.holding held reply)

variable {env : Env} {limit : Nat} {Q : α → List Handle → Prop} {R : β → List Handle → Prop}
  {held : List Handle}

theorem Modest.andThen {p : Program α} {f : α → Program β} (h : p.Modest env limit Q held)
    (hf : ∀ a held, Q a held → (f a).Modest env limit R held) :
    (p.andThen f).Modest env limit R held := by
  induction p generalizing held with
  | done a => exact hf a held h
  | act action next ih =>
    obtain ⟨hown, hroom, hnext⟩ := h
    exact ⟨hown, hroom, fun reply hshows => ih reply (hnext reply hshows)⟩

end Program

namespace Code

variable {α β : Type}

/-- What is asked of what a frame holds when its code has ended, unless the code stopped early. -/
def Unless (Q : α → List Handle → Prop) : Except Interrupt α → List Handle → Prop
  | .ok a, held => Q a held
  | .error _, _ => True

/-- Whether code of a frame that holds what is asked at its start is modest, and what is asked at
its end is held then, unless it stops early. -/
def Modest (env : Env) (limit : Nat) (P : List Handle → Prop) (x : Code α)
    (Q : α → List Handle → Prop) : Prop :=
  ∀ held, P held → x.ended.Modest env limit (Unless Q) held

namespace Modest

variable {env : Env} {limit : Nat} {P P' : List Handle → Prop} {Q : α → List Handle → Prop}
  {R : β → List Handle → Prop} {x : Code α} {f : α → Code β}

theorem pure {a : α} (h : ∀ held, P held → Q a held) :
    (Pure.pure a : Code α).Modest env limit P Q :=
  h

theorem throw {interrupt : Interrupt} :
    (MonadExcept.throw interrupt : Code α).Modest env limit P Q :=
  fun _ _ => trivial

theorem bind (hx : x.Modest env limit P Q) (hf : ∀ a, (f a).Modest env limit (Q a) R) :
    (x >>= f).Modest env limit P R := by
  intro held hP
  rw [ended_bind]
  refine (hx held hP).andThen fun result held' hresult => ?_
  cases result with
  | ok a => exact hf a held' hresult
  | error interrupt => trivial

theorem of_imp (h : x.Modest env limit P' Q) (himp : ∀ held, P held → P' held) :
    x.Modest env limit P Q :=
  fun held hP => h held (himp held hP)

theorem ask {action : Action} {Q : action.Reply → List Handle → Prop} (hown : action.Own env)
    (hroom : ∀ held, P held → action.Affords limit held)
    (hreply : ∀ held reply, P held → action.Shows held reply →
      Q reply (action.holding held reply)) :
    (Code.ask action).Modest env limit P Q :=
  fun held hP => ⟨hown, hroom held hP, fun reply hshows => hreply held reply hP hshows⟩

theorem orStop (answer : Answer α) :
    (Code.orStop answer).Modest env limit (fun held => ∀ a, answer = .ok a → Q a held) Q := by
  cases answer with
  | ok a => exact .pure fun held h => h a rfl
  | error fault => exact .throw

/-- An operation for which there is room, with whatever is held then. -/
theorem operation (action : Action) (answer : action.Reply → Answer α) (hown : action.Own env)
    (hroom : ∀ held, P held → action.Affords limit held) :
    (do Code.orStop (answer (← Code.ask action)) : Code α).Modest env limit P
      fun _ _ => True :=
  .bind (.ask hown hroom fun _ _ _ _ _ _ => trivial) fun reply => .orStop (answer reply)

theorem newObject (hroom : ∀ held, P held → held.length < limit) :
    (Code.newObject env).Modest env limit P fun _ _ => True :=
  .operation (.newObject env) id rfl hroom

/-- What a frame holds is looked up. -/
theorem activeHandles : (Code.activeHandles env).Modest env limit P fun shown held =>
    shown = held :=
  .bind (.ask (Q := fun (frame : Frame) held => frame.handles = held) rfl (fun _ _ => trivial)
    fun _ _ _ hshows => hshows) fun _ => .pure fun _ h => h

/-- A frame that lets go of all that it holds holds nothing. -/
theorem releaseAll {objects : List Handle} :
    (Code.releaseAll env objects).Modest env limit (fun held => objects = held)
      fun _ held => held = [] := by
  induction objects with
  | nil => exact .pure fun _ h => h.symm
  | cons object rest ih =>
    refine .bind (Q := fun _ held => rest = held) (.bind (Q := fun (answer : Answer Unit) held =>
      ∀ a, answer = .ok a → rest = held) (.ask rfl (fun _ _ => trivial) ?_) .orStop) fun _ => ih
    rintro held reply rfl - a hok
    obtain rfl : reply = .ok a := hok
    exact (List.erase_cons_head object rest).symm

end Modest

end Code

/-! ### A program on its way -/

namespace Session

variable {A : Type} [Allocator A] {α : Type} {s s₀ : Session A} {t : Thread} {env : Env}
  {action : Action} {p p₀ : Program α} {limit k : Nat}

omit [Allocator A] in
theorem permits_of_own (hown : action.Own env) (henv : env ∈ s.ledger.envs) :
    s.ledger.permits action := by
  cases action with
  | newObject e | getReference e _ _ | getData e _ _ | setReference e _ _ _ | setData e _ _ _
  | release e _ | frame e => exact hown ▸ henv
  | width | note => trivial
  | _ => exact hown.elim

/-- A frame holds the new object that it was given, if it was given one. -/
theorem handles_after_newObject :
    ((s.after t (.newObject env)).machine.frame env).handles =
      (Action.newObject env).holding (s.machine.frame env).handles
      (s.reply t (.newObject env)) := by
  change ((s.machine.newObject t env).2.frame env).handles =
    Action.holding _ (.newObject env) (s.machine.newObject t env).1
  rw [Machine.newObject_eq]
  cases hactive : s.machine.checkActive env with
  | error fault => rfl
  | ok _ =>
    dsimp only
    rcases Allocator.allocate t s.machine.calls s.machine.toArena with ⟨fault | h, arena⟩
    · rfl
    dsimp only
    split
    · rfl
    · rename_i hfresh
      have hnew : h ∉ (s.machine.frame env).handles := fun hh => hfresh (Frame.holds_iff.2 hh)
      rw [Machine.frame_edited (Machine.checkActive_eq_ok.1 hactive) Machine.calls_traced,
        Frame.handles_insert, if_neg hnew]
      rfl

/-- A frame that follows a link holds what it leads to. -/
theorem handles_after_getReference {object : Handle} {slot : Nat} :
    ((s.after t (.getReference env object slot)).machine.frame env).handles =
      (Action.getReference env object slot).holding (s.machine.frame env).handles
        (s.reply t (.getReference env object slot)) := by
  rw [reply_getReference]
  cases hcheck : s.machine.referenceAt env object slot with
  | error fault =>
    change ((s.machine.getReference t env object slot).2.frame env).handles = _
    rw [Machine.getReference_eq, hcheck]
    rfl
  | ok h =>
    obtain ⟨-, hcalls, -⟩ := getReference_granted (t := t) hcheck
    rw [Action.holding]
    by_cases hnull : h = Handle.null
    · rw [if_pos hnull] at hcalls
      rw [if_pos (.inl hnull)]
      exact congrArg (fun calls => (calls.frame env.frame).handles) hcalls
    · rw [if_neg hnull] at hcalls
      rw [Machine.frame_edited (Machine.of_referenceAt_eq_ok hcheck).1 hcalls, Frame.handles_insert]
      simp only [hnull, false_or]

/-- A frame that releases an object holds it no more. -/
theorem handles_after_release {object : Handle} :
    ((s.after t (.release env object)).machine.frame env).handles =
      (Action.release env object).holding (s.machine.frame env).handles
        (s.reply t (.release env object)) := by
  rw [reply_release]
  cases hcheck : s.machine.releasable env object with
  | error fault =>
    change ((s.machine.release t env object).2.frame env).handles = _
    rw [Machine.release_eq, hcheck]
    rfl
  | ok _ =>
    obtain ⟨hactive, hheld⟩ := Machine.releasable_eq_ok.1 hcheck
    obtain ⟨-, hcalls, -⟩ := release_granted (t := t) hactive hheld
    rw [Machine.frame_edited hactive hcalls, Frame.handles_remove]
    rfl

/-- What a frame holds after an action of its own is told by the answer. -/
theorem handles_after_own (hown : action.Own env) :
    ((s.after t action).machine.frame env).handles =
      action.holding (s.machine.frame env).handles (s.reply t action) := by
  cases action with
  | newObject e => exact (hown : e = env) ▸ handles_after_newObject
  | getReference e object slot => exact (hown : e = env) ▸ handles_after_getReference
  | release e object => exact (hown : e = env) ▸ handles_after_release
  | getData e object slot =>
    rw [after_getData]
    rfl
  | setReference e object slot target =>
    change ((s.machine.setReference t e object slot target).2.frame env).handles = _
    rw [Machine.setReference_eq]
    cases s.machine.storableReference e object slot target <;> rfl
  | setData e object slot word =>
    change ((s.machine.setData t e object slot word).2.frame env).handles = _
    rw [Machine.setData_eq]
    cases s.machine.storableData e object slot word <;> rfl
  | frame e | width | note => rfl
  | _ => exact hown.elim

theorem shows_own (hown : action.Own env) :
    action.Shows (s.machine.frame env).handles (s.reply t action) := by
  cases action with
  | frame e =>
    obtain rfl : e = env := hown
    rfl
  | _ => trivial

/-- Where a program of a frame has come to, with others at work between its steps on other stacks:
what is left of it, the session, and how many objects the links that it followed brought back. -/
inductive Underway (t : Thread) (env : Env) (p₀ : Program α) (s₀ : Session A) :
    Program α → Session A → Nat → Prop
  | start : Underway t env p₀ s₀ p₀ s₀ 0
  | step {action : Action} {next : action.Reply → Program α} {s : Session A} {k : Nat}
      (before : Underway t env p₀ s₀ (.act action next) s k) :
      Underway t env p₀ s₀ (next (s.reply t action)) (s.after t action)
        (k + action.regained (s.machine.frame env).handles (s.reply t action))
  | other {p : Program α} {s : Session A} {k : Nat} (before : Underway t env p₀ s₀ p s k)
      (t' : Thread) (action : Action) (permitted : s.ledger.permits action)
      (elsewhere : action.stack s.calls ≠ env.stack) :
      Underway t env p₀ s₀ p (s.after t' action) k

namespace Underway

/-- A program that is alone comes to its end. -/
theorem play (h : Underway t env p₀ s₀ p s k) :
    ∃ k', Underway t env p₀ s₀ (.done (s.play t p).1) (s.play t p).2 k' := by
  induction p generalizing s k with
  | done a => exact ⟨k, h⟩
  | act action next ih => exact ih _ h.step

/-- A modest program on its way is modest in what is left of it, and its frame holds no more than
its limit and the links that it followed allow. -/
theorem modest {start : Machine A} {past : List Move} {Q : α → List Handle → Prop}
    (hstart : start.calls = .empty) (hran : Ran start past s₀) (henv : env ∈ s₀.ledger.envs)
    (hmodest : p₀.Modest env limit Q (s₀.machine.frame env).handles)
    (hle : (s₀.machine.frame env).handles.length ≤ limit)
    (h : Underway t env p₀ s₀ p s k) :
    (∃ past', Ran start past' s) ∧ env ∈ s.ledger.envs ∧
      p.Modest env limit Q (s.machine.frame env).handles ∧
      (s.machine.frame env).handles.length ≤ limit + k := by
  induction h with
  | start => exact ⟨⟨past, hran⟩, henv, hmodest, hle⟩
  | @step action next s k before ih =>
    obtain ⟨⟨past', hran'⟩, hknown, ⟨hown, hroom, hnext⟩, hheld⟩ := ih
    have hpermits := permits_of_own hown hknown
    refine ⟨⟨_, hran'.move t action hpermits⟩, (grows_after hpermits).envs.subset hknown, ?_, ?_⟩
    · rw [handles_after_own hown]
      exact hnext _ (shows_own hown)
    · rw [handles_after_own hown]
      exact Action.length_holding_le hheld hroom _
  | @other p s k before t' action permitted elsewhere ih =>
    obtain ⟨⟨past', hran'⟩, hknown, hmodest', hheld⟩ := ih
    have htallies := hran'.tallies hstart
    have hframe : (s.after t' action).machine.frame env = s.machine.frame env :=
      (tablesStep (t := t') htallies.toEnvsAgree htallies.nested permitted).frame env hknown
        elsewhere.symm
    rw [hframe]
    exact ⟨⟨_, hran'.move t' action permitted⟩, (grows_after permitted).envs.subset hknown,
      hmodest', hheld⟩

end Underway

end Session

/-! ### A random graph is modest -/

namespace Workload

open Code (Modest)

variable {env : Env} {limit width : Nat} {P : List Handle → Prop} {held : List Handle}

theorem modest_tagBelow {tag : Word} {n : Nat} :
    (tagBelow tag n).Modest env limit P fun _ _ => True := by
  rw [tagBelow]
  cases tag.below? n with
  | none => exact .throw
  | some below => exact .pure fun _ _ => trivial

/-- If memory is out, there is room after all was let go of. -/
theorem modest_allocateOrReset {tags : Tags} (hlimit : 0 < limit) :
    (allocateOrReset env tags).Modest env limit (fun held => held.length < limit)
      fun _ _ => True := by
  refine .bind (Q := fun _ _ => True) (.ask rfl (fun _ h => h) fun _ _ _ _ => trivial) ?_
  have hreset : (do
      Code.ask (.note .debug s!"random graph: out of memory with {tags.length} held")
      Code.releaseAll env (← Code.activeHandles env)
      return (← Code.newObject env, []) : Code (Handle × Tags)).Modest env limit
        (fun _ => True) fun _ _ => True := by
    refine .bind (Q := fun _ _ => True) (.ask trivial (fun _ _ => trivial) fun _ _ _ _ => trivial)
      fun _ => .bind .activeHandles fun shown => .bind .releaseAll fun _ => ?_
    refine .bind (.newObject ?_) fun _ => .pure fun _ _ => trivial
    rintro held rfl
    exact hlimit
  rintro (fault | object)
  · cases fault with
    | outOfMemory => exact hreset
    | _ => exact .throw
  · exact .pure fun _ _ => trivial

variable {G : Type} {memory : Memory G}

theorem modest_allocateTagged (hlimit : 0 < limit) :
    (allocateTagged env memory).Modest env limit (fun held => held.length < limit)
      fun _ _ => True := by
  refine .bind (modest_allocateOrReset hlimit) fun (object, tags) => ?_
  refine .bind (.operation (.setData env object tagSlot memory.nextTag) id rfl fun _ _ => trivial)
    fun _ => .bind modest_tagBelow fun _ => .pure fun _ _ => trivial

variable [Draws G]

/-- Each choice is modest, since an object is asked for only below the limit. -/
theorem modest_choose (hlimit : 0 < limit) :
    (choose env width limit held memory).Modest env limit (fun held' => held = held')
      fun _ _ => True := by
  unfold choose
  split
  · rename_i hempty
    refine (modest_allocateTagged hlimit).of_imp ?_
    rintro held' rfl
    rw [List.isEmpty_iff.1 hempty]
    exact hlimit
  · rcases Draws.below memory.draws held.length with ⟨i, draws⟩
    dsimp only
    rcases Draws.below draws 4 with ⟨kind, draws⟩
    dsimp only
    split
    · rename_i hroom
      refine (modest_allocateTagged hlimit).of_imp ?_
      rintro held' rfl
      exact hroom.2
    split
    · exact .bind (.operation (.setReference env _ _ _) id rfl fun _ _ => trivial)
        fun _ => .pure fun _ _ => trivial
    split
    · exact .bind (.operation (.getReference env _ _) id rfl fun _ _ => trivial)
        fun _ => .pure fun _ _ => trivial
    · exact .bind (.operation (.release env _) id rfl fun _ _ => trivial)
        fun _ => .pure fun _ _ => trivial

theorem modest_chooseRepeatedly (hlimit : 0 < limit) {n : Nat} :
    (chooseRepeatedly env width limit n memory).Modest env limit (fun _ => True)
      fun _ _ => True := by
  induction n generalizing memory with
  | zero => exact .pure fun _ _ => trivial
  | succ n ih => exact .bind .activeHandles fun _ => .bind (modest_choose hlimit) fun _ => ih

omit [Draws G] in
theorem modest_checkTags {tags : Tags} {objects : List Handle} :
    (checkTags env tags objects).Modest env limit P fun _ _ => True := by
  induction objects generalizing P with
  | nil => exact .pure fun _ _ => trivial
  | cons object rest ih =>
    refine .bind (.operation (.getData env object tagSlot) id rfl fun _ _ => trivial) fun _ => ?_
    dsimp only
    split
    · exact .throw
    · exact ih

theorem modest_randomGraph (hlimit : 0 < limit) (iterations : Nat) (draws : G)
    (args : List Word) :
    ((randomGraph iterations limit draws).body env args).Modest env limit (fun _ => True)
      fun _ _ => True := by
  refine .bind (Q := fun _ _ => True) (.ask trivial (fun _ _ => trivial) fun _ _ _ _ => trivial)
    fun width => .bind (modest_chooseRepeatedly hlimit) fun memory => .bind .activeHandles
      fun shown => .bind modest_checkTags fun _ => .pure fun _ _ => trivial

variable {A : Type} [Allocator A] {start : Machine A} {past : List Move} {s s' : Session A}
  {t : Thread} {entry : Env} {p : Program (Except Interrupt Word)} {k : Nat}

/-- The frame of a random graph holds no more objects than its limit and the links that brought one
back say, wherever the graph has come to, whatever it draws and whatever others do; and it asks for
an object only while it holds fewer than its limit. -/
theorem random_graph_holds {first : Thread} {heap : Heap} {allocator : A} {config : MachineConfig}
    (hbuild : Machine.build first heap allocator config = .ok start)
    (hran : Session.Ran start past s) {args : List Word}
    (hbegun : s.reply t (.beginRun "random_graph" args) = .ok entry)
    {limit : Nat} (hlimit : 0 < limit) (iterations : Nat) (draws : G)
    (hunder : Session.Underway t entry ((randomGraph iterations limit draws).body entry args).ended
      (s.after t (.beginRun "random_graph" args)) p s' k) :
    (s'.machine.frame entry).handles.length ≤ limit + k ∧
      ∀ env next, p = .act (.newObject env) next →
        (s'.machine.frame entry).handles.length < limit := by
  have hholding := Session.aloneHolding_begun hbegun
  have hempty : (((s.after t (.beginRun "random_graph" args)).machine.frame entry).handles).length
      ≤ limit := by
    rw [hholding.holds]
    exact Nat.zero_le limit
  obtain ⟨-, -, hmodest, hheld⟩ := hunder.modest (Session.calls_of_build hbuild)
    (hran.move t (.beginRun "random_graph" args) trivial) hholding.known
    (modest_randomGraph hlimit iterations draws args _ trivial) hempty
  refine ⟨hheld, ?_⟩
  rintro env next rfl
  exact hmodest.2.1

def seven : Machine MarkSweep :=
  (Machine.build Thread.first (.ofSize 8 2) { MarkSweep.fresh .zero with clock := fun _ => .zero }
    .standard).toOption.get rfl

/-- A random graph on it, limited to two objects, with the draws of the seed 44. -/
def overdrawing : Program (Except Interrupt Word) :=
  ((randomGraph 11 2 (ChaCha.ofSeed 44)).body ⟨0, 0⟩ []).ended

def drawing : Session MarkSweep :=
  (Session.opening seven).after Thread.first (.beginRun "random_graph" [])

theorem build_seven :
    Machine.build Thread.first (.ofSize 8 2) { MarkSweep.fresh .zero with clock := fun _ => .zero }
      .standard = .ok seven :=
  rfl

theorem underway_overdrawing :
    ∃ ended k, Session.Underway Thread.first ⟨0, 0⟩ overdrawing drawing (.done ended)
      (drawing.play Thread.first overdrawing).2 k := by
  have hstart : Session.Underway Thread.first ⟨0, 0⟩ overdrawing drawing overdrawing drawing 0 :=
    .start
  exact ⟨_, hstart.play⟩

theorem length_overdrawn :
    ((drawing.play Thread.first overdrawing).2.machine.frame ⟨0, 0⟩).handles.length = 3 := by
  decide +kernel

/-- A random graph may hold more objects than its limit: with a limit of two this one ends with
three. -/
theorem random_graph_exceeds_limit :
    ∃ ended s k, Session.Underway Thread.first ⟨0, 0⟩ overdrawing drawing (.done ended) s k ∧
      2 < (s.machine.frame ⟨0, 0⟩).handles.length := by
  obtain ⟨ended, k, hunder⟩ := underway_overdrawing
  exact ⟨ended, _, k, hunder, by rw [length_overdrawn]; decide⟩

/-- That graph followed a link that brought an object back. -/
theorem random_graph_holds_overdrawing :
    ∃ ended s k, Session.Underway Thread.first ⟨0, 0⟩ overdrawing drawing (.done ended) s k ∧
      (s.machine.frame ⟨0, 0⟩).handles.length ≤ 2 + k ∧ 0 < k := by
  obtain ⟨ended, k, hunder⟩ := underway_overdrawing
  have hheld :=
    (random_graph_holds build_seven .opening rfl (by decide) 11 (ChaCha.ofSeed 44) hunder).1
  refine ⟨ended, _, k, hunder, hheld, ?_⟩
  rw [length_overdrawn] at hheld
  omega

end Workload

end RootedHeap
