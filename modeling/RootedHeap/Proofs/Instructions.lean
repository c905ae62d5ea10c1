import RootedHeap.Proofs.Mirrors
import RootedHeap.Proofs.Sessions

/-!
Programs that know no handle numbers. An instruction asks for an action, but names an object by its
place in the active list of a frame, and what an action answers is told by its gist, which keeps
data and says of a handle only whether it is null. `Session.Driven` is the relation of instructions
to what they lead to; between them collections may come at any time.

On mirrored machines the same names stand for what corresponds, and answers that came out alike have
one gist.
-/

namespace RootedHeap

/-! ### Names -/

/-- An object as an instruction names it. -/
inductive Named where
  | null
  /-- The object at a place in the active list of a frame; null if nothing stands there. -/
  | held (env : Env) (place : Nat)

def Named.handle (t : CallStacks) : Named → Handle
  | null => Handle.null
  | held env place => (t.frame env.frame).handles.getD place Handle.null

/-- An argument or a result as an instruction names it. -/
inductive NamedWord where
  | reference (named : Named)
  | data (word : Word) (negative : word < 0)

namespace NamedWord

def word (t : CallStacks) : NamedWord → Word
  | reference named => (named.handle t).toWord
  | data word _ => word

/-- Whether a call or run ends with the word that is named, or with a fault of the named variant. -/
def Ends (t : CallStacks) : Except Fault.Variant NamedWord → Answer Word → Prop
  | .ok named, .ok word => word = named.word t
  | .error variant, .error fault => fault.variant = variant
  | _, _ => False

end NamedWord

/-! ### Instructions and gists -/

/-- An action without handle numbers. -/
inductive Instruction where
  | newObject (env : Env)
  | getReference (env : Env) (object : Named) (slot : Nat)
  | getData (env : Env) (object : Named) (slot : Nat)
  | setReference (env : Env) (object : Named) (slot : Nat) (target : Named)
  | setData (env : Env) (object : Named) (slot : Nat) (word : Word)
  | release (env : Env) (object : Named)
  | beginCall (caller : Env) (name : String) (args : List NamedWord)
  | endCall (caller callee : Env) (outcome : Except Fault.Variant NamedWord)
  | abandonCall (callee : Env)
  | beginRun (name : String) (args : List NamedWord)
  | endRun (entry : Env) (outcome : Except Fault.Variant NamedWord)

/-- The actions that an instruction may mean, over given tables. -/
inductive Instruction.Means (t : CallStacks) : Instruction → Action → Prop
  | newObject {env : Env} : Means t (.newObject env) (.newObject env)
  | getReference {env : Env} {object : Named} {slot : Nat} :
    Means t (.getReference env object slot) (.getReference env (object.handle t) slot)
  | getData {env : Env} {object : Named} {slot : Nat} :
    Means t (.getData env object slot) (.getData env (object.handle t) slot)
  | setReference {env : Env} {object target : Named} {slot : Nat} :
    Means t (.setReference env object slot target)
      (.setReference env (object.handle t) slot (target.handle t))
  | setData {env : Env} {object : Named} {slot : Nat} {word : Word} :
    Means t (.setData env object slot word) (.setData env (object.handle t) slot word)
  | release {env : Env} {object : Named} :
    Means t (.release env object) (.release env (object.handle t))
  | beginCall {caller : Env} {name : String} {args : List NamedWord} :
    Means t (.beginCall caller name args) (.beginCall caller name (args.map (NamedWord.word t)))
  | endCall {caller callee : Env} {outcome : Except Fault.Variant NamedWord}
      {result : Answer Word} (ends : NamedWord.Ends t outcome result) :
    Means t (.endCall caller callee outcome) (.endCall caller callee result)
  | abandonCall {callee : Env} : Means t (.abandonCall callee) (.abandonCall callee)
  | beginRun {name : String} {args : List NamedWord} :
    Means t (.beginRun name args) (.beginRun name (args.map (NamedWord.word t)))
  | endRun {entry : Env} {outcome : Except Fault.Variant NamedWord} {result : Answer Word}
      (ends : NamedWord.Ends t outcome result) :
    Means t (.endRun entry outcome) (.endRun entry result)

/-- What an answer says without handle numbers. -/
inductive Gist where
  | failed (variant : Fault.Variant)
  | done
  | null
  | object
  | data (word : Word)
  | env (env : Env)
  deriving DecidableEq

namespace Gist

/-- What a handle says: whether it is null. -/
def ofHandle (h : Handle) : Gist := if h = Handle.null then .null else .object

/-- What a word says: its value if it is data, else whether it is null. -/
def ofWord (word : Word) : Gist :=
  match word.target? with
  | some _ => .object
  | none => if word < 0 then .data word else .null

/-- What a good answer says, or the variant of the fault. -/
def ofAnswer {α : Type} (good : α → Gist) : Answer α → Gist
  | .ok a => good a
  | .error fault => .failed fault.variant

/-- What the answer to an action says. -/
def ofReply : (action : Action) → action.Reply → Gist
  | .newObject _, answer | .getReference _ _ _, answer => ofAnswer ofHandle answer
  | .getData _ _ _, answer | .endCall _ _ _, answer | .endRun _ _, answer => ofAnswer ofWord answer
  | .setReference _ _ _ _, answer | .setData _ _ _ _, answer | .release _ _, answer =>
    ofAnswer (fun _ => .done) answer
  | .beginCall _ _ _, answer | .beginRun _ _, answer => ofAnswer .env answer
  | _, _ => .done

end Gist

/-- The sessions that instructions lead to, with what was answered; both lists have the latest
first. Each instruction comes within the rules and is taken by some thread. -/
inductive Session.Driven {A : Type} [Allocator A] (start : Machine A) :
    List Instruction → List Gist → Session A → Prop
  | opening : Driven start [] [] (.opening start)
  | instruction {instructions : List Instruction} {gists : List Gist} {s : Session A}
      (driven : Driven start instructions gists s) (t : Thread) {instruction : Instruction}
      {action : Action} (means : instruction.Means s.calls action)
      (permitted : s.ledger.permits action) :
    Driven start (instruction :: instructions) (.ofReply action (s.reply t action) :: gists)
      (s.after t action)
  | collect {instructions : List Instruction} {gists : List Gist} {s : Session A}
      (driven : Driven start instructions gists s) (t : Thread) :
    Driven start instructions gists (s.after t .collect)

/-- Instructions ask for orderly actions only. -/
theorem Instruction.Means.orderly {t : CallStacks} {instruction : Instruction} {action : Action}
    (hmeans : instruction.Means t action) : action.orderly = true := by
  cases hmeans <;> rfl

/-- What an instruction does to the ledger depends on the gist of its answer alone. -/
theorem Ledger.record_eq_of_gist {l : Ledger} {t t' : CallStacks} {instruction : Instruction}
    {action action' : Action} {reply : action.Reply} {reply' : action'.Reply}
    (hmeans : instruction.Means t action) (hmeans' : instruction.Means t' action')
    (hgist : Gist.ofReply action' reply' = Gist.ofReply action reply) :
    l.record action' reply' = l.record action reply := by
  -- only a call or run that begins leaves what its answer was
  have hsame : ∀ {answer answer' : Answer Env}, Gist.ofAnswer .env answer' = .ofAnswer .env answer →
      (∃ fault fault', answer = .error fault ∧ answer' = .error fault') ∨ answer' = answer := by
    rintro (fault | env) (fault' | env') heq
    · exact .inl ⟨fault, fault', rfl, rfl⟩
    · cases heq
    · cases heq
    · exact .inr (congrArg Except.ok (Gist.env.inj heq))
  cases hmeans with
  | beginCall =>
    cases hmeans' with
    | beginCall =>
      rcases hsame hgist with ⟨fault, fault', rfl, rfl⟩ | rfl
      · rfl
      · cases reply' <;> rfl
  | beginRun =>
    cases hmeans' with
    | beginRun =>
      rcases hsame hgist with ⟨fault, fault', rfl, rfl⟩ | rfl
      · rfl
      · cases reply' <;> rfl
  | _ => cases hmeans'; rfl

/-! ### On mirrored machines -/

theorem Gist.ofAnswer_eq {α α' : Type} {r : α → α' → Prop} {good : α → Gist} {good' : α' → Gist}
    {x : Answer α} {x' : Answer α'} (halike : x.Alike r x')
    (hgood : ∀ a a', r a a' → good' a' = good a) : ofAnswer good' x' = ofAnswer good x := by
  cases halike with
  | ok related => exact hgood _ _ related
  | error variant => exact congrArg Gist.failed variant.symm

namespace Machine.Mirrors

variable {A B : Type} {f : Handle → Handle} {m : Machine A} {m' : Machine B} {h h' : Handle}
  {word word' : Word}

theorem ofHandle_eq (hmm : m.Mirrors f m') (hm : m.Regular) (hh : m.Matches f h h') :
    Gist.ofHandle h' = Gist.ofHandle h := by
  rcases hh with ⟨rfl, rfl⟩ | ⟨hlive, rfl⟩
  · rfl
  · rw [Gist.ofHandle, Gist.ofHandle, if_neg (hmm.image_le_greatest hlive).1,
      if_neg (hm.le_greatest hlive).1]

theorem ofWord_eq (hmm : m.Mirrors f m') (hword : m.Carries f word word') :
    Gist.ofWord word' = Gist.ofWord word := by
  have htarget := hmm.target?_eq hword
  cases hk : word.target? with
  | none => rw [eq_of_target?_none hword hk]
  | some k =>
    rw [hk] at htarget
    simp only [Gist.ofWord, htarget, hk, Option.map_some]

/-- One name stands for handles that correspond. -/
theorem matches_handle (hmm : m.Mirrors f m') (hm : m.Regular) (named : Named) :
    m.Matches f (named.handle m.calls) (named.handle m'.calls) := by
  cases named with
  | null => exact .inl ⟨rfl, rfl⟩
  | held env place =>
    have hhandles : (m'.calls.frame env.frame).handles =
        (m.calls.frame env.frame).handles.map f := by
      rw [hmm.calls, CallStacks.frame_image, Frame.handles_image]
    simp only [Named.handle, hhandles, List.getD_eq_getElem?_getD, List.getElem?_map]
    cases hplace : (m.calls.frame env.frame).handles[place]? with
    | none => exact .inl ⟨rfl, rfl⟩
    | some h => exact .inr ⟨hm.live_of_held (List.mem_of_getElem? hplace), rfl⟩

/-- One name stands for words that correspond. -/
theorem carries_word (hmm : m.Mirrors f m') (hm : m.Regular) (named : NamedWord) :
    m.Carries f (named.word m.calls) (named.word m'.calls) := by
  cases named with
  | reference named => exact carries_toWord hm (hmm.matches_handle hm named)
  | data word negative =>
    have hnone : word.target? = none := Word.target?_of_neg negative
    refine ⟨(Word.carry_of_none hnone).symm, fun k hk => ?_⟩
    rw [NamedWord.word, hnone] at hk
    cases hk

theorem carries_args (hmm : m.Mirrors f m') (hm : m.Regular) (args : List NamedWord) :
    List.Forall₂ (m.Carries f) (args.map (NamedWord.word m.calls))
      (args.map (NamedWord.word m'.calls)) := by
  rw [List.forall₂_map_left_iff, List.forall₂_map_right_iff, List.forall₂_same]
  exact fun named _ => hmm.carries_word hm named

/-- What a call or run is named to end with comes out alike. -/
theorem alike_of_ends (hmm : m.Mirrors f m') (hm : m.Regular)
    {outcome : Except Fault.Variant NamedWord} {result result' : Answer Word}
    (hends : NamedWord.Ends m.calls outcome result)
    (hends' : NamedWord.Ends m'.calls outcome result') : result.Alike (m.Carries f) result' := by
  rcases outcome with variant | named <;> rcases result with fault | word <;>
    rcases result' with fault' | word'
  case error.error.error =>
    obtain rfl : fault.variant = variant := hends
    exact .error (Eq.symm hends')
  case ok.ok.ok =>
    obtain rfl : word = named.word m.calls := hends
    obtain rfl : word' = named.word m'.calls := hends'
    exact .ok (hmm.carries_word hm named)
  all_goals first | exact hends.elim | exact hends'.elim

end Machine.Mirrors

end RootedHeap
