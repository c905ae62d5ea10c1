import Mathlib
import RootedHeap.Proofs.Ensembles
import RootedHeap.Proofs.Peers

/-!
The outcome of a program does not depend on the schedule, nor on what the other programs do. Two
runs of an ensemble are compared at the points where the program has come equally far in both. There
it has seen the same, and the stacks that it has in the two runs mirror each other, cell by cell,
under a renaming that takes each token that lasts to the token at its place. Turns of other programs
and collections do not show on the stack; a turn of the program itself does the same on both sides.
-/

namespace RootedHeap

variable {A ι : Type}

/-! ### Plays that are even -/

/-- Whether a program that plays in two sessions has met with the same. -/
structure Play.Even (s s' : Session A) (play play' : Play) : Prop where
  seen : play'.seen = play.seen
  faults : play'.faults.map Fault.variant = play.faults.map Fault.variant
  heedful : play'.heedful = play.heedful
  mirrors : ∃ f, (s.solo play.stack).Mirrors f (s'.solo play'.stack) ∧
    List.Forall₂ (Token.Match f (s.solo play.stack)) play.tokens play'.tokens

/-- Whether a program that ended in two sessions had the same outcome. -/
structure Session.SameOutcome (last last' : Session A) (j j' : StackRef)
    (answer answer' : Answer Word) (f : Handle → Handle) : Prop where
  objects : Set.BijOn f (last.reach j) (last'.reach j')
  /-- Slot by slot there is the same data, null for null, or the handle that corresponds. -/
  words : ∀ h ∈ last.reach j,
    last'.machine.heap.words (f h) = (last.machine.heap.words h).map (Word.carry f)
  answers : answer.Alike (fun word word' => word' = word.carry f ∧
    ∀ h, word.target? = some h → h ∈ last.reach j) answer'

/-- Whether the parts of a program in two sessions are even. -/
inductive Part.Even (s s' : Session A) : Part A → Part A → Prop
  | waiting : Even s s' .waiting .waiting
  | playing {play play' : Play} (even : Play.Even s s' play play') :
    Even s s' (.playing play) (.playing play')
  | ended {last last' : Session A} {play play' : Play} {answer answer' : Answer Word}
      {f : Handle → Handle} (seen : play'.seen = play.seen)
      (heedful : play'.heedful = play.heedful)
      (outcome : last.SameOutcome last' play.stack play'.stack answer answer' f) :
    Even s s' (.ended last play answer) (.ended last' play' answer')

/-! What does not show on the stack of a program leaves it even. -/

section Undisturbed

variable {s s' s₁ s₁' : Session A} {play play' : Play} {part part' : Part A}

namespace Play.Even

theorem left (h : Play.Even s s' play play')
    (hu : (s.solo play.stack).Undisturbed (s₁.solo play.stack)) :
    Even s₁ s' play play' := by
  obtain ⟨f, hmm, htokens⟩ := h.mirrors
  exact ⟨h.seen, h.faults, h.heedful, f, hu.mirrors_left hmm, htokens.imp fun _ _ hmatch =>
    ⟨hmatch.lasting, fun hlasts => hu.live_iff.2 (hmatch.live hlasts), hmatch.handle⟩⟩

theorem right (h : Play.Even s s' play play')
    (hu : (s'.solo play'.stack).Undisturbed (s₁'.solo play'.stack)) :
    Even s s₁' play play' := by
  obtain ⟨f, hmm, htokens⟩ := h.mirrors
  exact ⟨h.seen, h.faults, h.heedful, f, hu.mirrors_right hmm, htokens⟩

end Play.Even

namespace Part.Even

theorem left (h : Part.Even s s' part part') (hu : ∀ play, part = .playing play →
    (s.solo play.stack).Undisturbed (s₁.solo play.stack)) : Part.Even s₁ s' part part' := by
  cases h with
  | waiting => exact .waiting
  | playing even => exact .playing (even.left (hu _ rfl))
  | ended seen heedful outcome => exact .ended seen heedful outcome

theorem right (h : Part.Even s s' part part') (hu : ∀ play, part' = .playing play →
    (s'.solo play.stack).Undisturbed (s₁'.solo play.stack)) : Part.Even s s₁' part part' := by
  cases h with
  | waiting => exact .waiting
  | playing even => exact .playing (even.right (hu _ rfl))
  | ended seen heedful outcome => exact .ended seen heedful outcome

end Part.Even

end Undisturbed

/-! ### Turns on both sides -/

variable [Allocator A] [LawfulCollector A] {width depth : Nat}

section Steps

variable {s s' s₁ s₁' : Session A} {f f' : Handle → Handle} {j j' : StackRef} {t t' : Thread}

theorem Session.Steady.marks_iff (hs : s.Steady width)
    {h : Handle} : s.marks j h = true ↔ (s.solo j).Live h := by
  unfold Session.marks
  rw [Heap.has_mark_iff, Session.live_solo hs.envsAgree]
  exact ⟨And.right, fun hh => ⟨hs.contains_of_reaches (hs.reaches_of_stack hh), hh⟩⟩

/-- Tokens match when they were looked through, if those that lasted are live on both sides or on
none, and correspond where they are. -/
theorem Token.match_review {token token' : Token} (hs : s₁.Steady width) (hs' : s₁'.Steady width)
    (hlasting : token'.lasting = token.lasting)
    (hlive : token.lasting = true →
      ((s₁'.solo j').Live token'.handle ↔ (s₁.solo j).Live token.handle))
    (hhandle : token.lasting = true → token'.handle = f' token.handle) :
    Token.Match f' (s₁.solo j) (token.review s₁ j) (token'.review s₁' j') := by
  have hparts : (token.review s₁ j).lasting = true →
      token.lasting = true ∧ (s₁.solo j).Live token.handle := fun hlasts =>
    (Bool.and_eq_true_iff.1 hlasts).imp_right hs.marks_iff.1
  refine ⟨?_, fun hlasts => (hparts hlasts).2, fun hlasts => hhandle (hparts hlasts).1⟩
  show (token'.lasting && s₁'.marks j' token'.handle) =
    (token.lasting && s₁.marks j token.handle)
  rw [hlasting]
  cases hflag : token.lasting with
  | false => rfl
  | true =>
    rw [Bool.true_and, Bool.true_and, Bool.eq_iff_iff, hs'.marks_iff, hs.marks_iff]
    exact hlive hflag

/-- A token goes on to match the one it matched. -/
theorem Token.Match.review {token token' : Token} (hmatch : Token.Match f (s.solo j) token token')
    (hs : s₁.Steady width) (hs' : s₁'.Steady width) (hmm : (s₁.solo j).Mirrors f' (s₁'.solo j'))
    (hkeeps : Machine.Keeps f f' (s.solo j) (s₁.solo j) (s₁'.solo j')) :
    Token.Match f' (s₁.solo j) (token.review s₁ j) (token'.review s₁' j') := by
  refine Token.match_review hs hs' hmatch.lasting (fun hlasts => ?_) fun hlasts => ?_
  · have hlive := hmatch.live hlasts
    rw [hmatch.handle hlasts]
    refine ⟨hkeeps.live token.handle hlive, fun hstill => ?_⟩
    rw [← hkeeps.name token.handle hlive]
    exact hmm.live_image hstill
  · rw [hmatch.handle hlasts, hkeeps.name token.handle (hmatch.live hlasts)]

/-- The tokens of a handle that was told match. -/
theorem Token.match_told {h : Handle} (hkind : (s.solo j).Live h ∨ (s₁.solo j).Live h)
    (hs : s₁.Steady width) (hs' : s₁'.Steady width) (hmm : (s₁.solo j).Mirrors f' (s₁'.solo j'))
    (hkeeps : Machine.Keeps f f' (s.solo j) (s₁.solo j) (s₁'.solo j')) :
    Token.Match f' (s₁.solo j) ((Token.mk h true).review s₁ j)
      ((Token.mk (f' h) true).review s₁' j') := by
  refine Token.match_review hs hs' rfl (fun _ => ⟨fun hstill => ?_, hmm.live_image⟩) fun _ => rfl
  rcases hkind with hlive | hlive
  · exact hkeeps.live h hlive (hkeeps.name h hlive ▸ hstill)
  · exact hlive

/-- The stack of a program that begins has one frame, which holds nothing. -/
theorem Session.calls_solo_begun {name : String} {entry : Env} (hs : s.Steady width)
    (hbegun : s.reply t (.beginRun name []) = .ok entry) :
    ((s.after t (.beginRun name [])).solo entry.stack).calls =
      CallStacks.empty.register.2.opened 0 [] := by
  obtain ⟨rfl, hcalls, henvs⟩ := beginRun_ok hbegun
  have hbefore : s.ledger.envsOn s.calls.known.size = [] := by
    refine List.eq_nil_iff_forall_not_mem.2 fun env henv => ?_
    obtain ⟨hknown, hstack⟩ := Ledger.mem_envsOn.1 henv
    have hlt := hs.envsAgree.known env hknown
    rw [hstack] at hlt
    exact Nat.lt_irrefl _ hlt
  have hframes : (s.after t (.beginRun name [])).ledger.framesOn s.calls.known.size =
      [] ++ [s.calls.register.2.frames.size] := by
    rw [Ledger.framesOn, Ledger.envsOn, henvs, List.filter_append]
    rw [Ledger.envsOn] at hbefore
    rw [hbefore]
    simp
    rfl
  have hnone : (s.calls.register.2.stack s.calls.known.size).frames = [] := by
    rw [CallStacks.stack_register, if_pos rfl]
  have hlists : s.calls.register.2.Lists s.calls.known.size [] :=
    ⟨List.nodup_nil, fun f hf => absurd hf List.not_mem_nil, fun f hf => hnone ▸ hf⟩
  show (s.after t (.beginRun name [])).calls.solo _ _ = _
  rw [hcalls, hframes, CallStacks.solo_opened hlists, CallStacks.solo_nil hnone]
  simp

/-- Programs that begin have stacks that look the same. -/
theorem Session.mirrors_begun {name : String} {entry entry' : Env} (hs : s.Steady width)
    (hs' : s'.Steady width)
    (hdepth : s'.machine.config.maxCallDepth = s.machine.config.maxCallDepth)
    (hbegun : s.reply t (.beginRun name []) = .ok entry)
    (hbegun' : s'.reply t' (.beginRun name []) = .ok entry') :
    ((s.after t (.beginRun name [])).solo entry.stack).Mirrors id
      ((s'.after t' (.beginRun name [])).solo entry'.stack) := by
  have hcalls := calls_solo_begun hs hbegun
  have hcalls' := calls_solo_begun hs' hbegun'
  have hlive := Machine.not_live_of_roots
    (m := (s.after t (.beginRun name [])).solo entry.stack) (by rw [hcalls]; rfl)
  refine ⟨?_, fun k hk => absurd hk (hlive k), fun k hk => absurd hk (hlive k),
    fun k hk => absurd hk (hlive k), ?_, ?_⟩
  · have himage : (CallStacks.empty.register.2.opened 0 []).image id =
        (CallStacks.empty.image id).register.2.opened 0 [] :=
      CallStacks.image_opened (Set.injOn_id Set.univ) fun k hk => absurd hk List.not_mem_nil
    rw [hcalls, hcalls', himage, CallStacks.image_empty]
  · show (s'.after t' (.beginRun name [])).machine.config.maxCallDepth =
      (s.after t (.beginRun name [])).machine.config.maxCallDepth
    rw [config_after, config_after, hdepth]
  · have hafter : (s'.after t' (.beginRun name [])).Steady width := hs'.after trivial rfl
    exact hafter.small

namespace Play.Even

variable {play play' : Play} (h : Play.Even s s' play play')

include h

/-- Answers that tell the same leave even plays even. -/
theorem informed {action action' : Action} {lasts : Bool} (hs : (s.after t action).Steady width)
    (hs' : (s'.after t' action').Steady width)
    (htokens : List.Forall₂ (Token.Match f (s.solo play.stack)) play.tokens play'.tokens)
    (hagree : Session.Agree f s s' play.stack play'.stack t t' action action') :
    Even (s.after t action) (s'.after t' action')
      (play.informed (s.after t action) action (s.reply t action) lasts)
      (play'.informed (s'.after t' action') action' (s'.reply t' action') lasts) := by
  obtain ⟨f', hinforms, hmm', hkeeps⟩ := hagree
  refine ⟨?_, ?_, ?_, f', hmm', ?_⟩
  · exact congrArg₂ List.cons hinforms.view h.seen
  · show (play'.faults ++ _).map Fault.variant = (play.faults ++ _).map Fault.variant
    have hfailure := congrArg Option.toList hinforms.failure
    rw [Option.toList_map, Option.toList_map] at hfailure
    rw [List.map_append, List.map_append, h.faults, hfailure]
  · show (play'.heedful && lasts) = (play.heedful && lasts)
    rw [h.heedful]
  · show List.Forall₂ _ (List.map _ (_ ++ _)) (List.map _ (_ ++ _))
    rw [List.forall₂_map_left_iff, List.forall₂_map_right_iff, hinforms.told]
    refine List.rel_append (htokens.imp fun token token' hmatch =>
      hmatch.review hs hs' hmm' hkeeps) ?_
    rw [List.map_map, List.forall₂_map_left_iff, List.forall₂_map_right_iff, List.forall₂_same]
    exact fun k hk => Token.match_told (hinforms.kind k hk) hs hs' hmm' hkeeps

/-- A comparison of handles that last tells the same. -/
theorem compared {first second : Item} (hs : s.Steady width)
    (hlasts : (first.lasts play.tokens && second.lasts play.tokens) = true) :
    Even s s' (play.compared first second) (play'.compared first second) := by
  obtain ⟨f, hmm, htokens⟩ := h.mirrors
  obtain ⟨hfirst, hsecond⟩ := Bool.and_eq_true_iff.1 hlasts
  refine ⟨?_, h.faults, ?_, f, hmm, htokens⟩
  · have hsame : (first.handle play'.tokens = second.handle play'.tokens) ↔
        (first.handle play.tokens = second.handle play.tokens) :=
      hmm.eq_iff_of_matches hs.regular_solo (Item.matches_handle htokens hfirst)
        (Item.matches_handle htokens hsecond)
    refine congrArg₂ List.cons (congrArg View.same ?_) h.seen
    rw [Bool.eq_iff_iff, beq_iff_eq, beq_iff_eq, hsame]
  · show (play'.heedful && _) = (play.heedful && _)
    rw [h.heedful, first.lasts_eq htokens, second.lasts_eq htokens]

/-- Ends that name what lasts are the same outcome. -/
theorem sameOutcome {fate : Fate} {entry entry' : Env} (hs : s.Steady width)
    (hs' : s'.Steady width) (hown : (s.ledger.envsOn play.stack)[0]? = some entry)
    (hown' : (s'.ledger.envsOn play'.stack)[0]? = some entry')
    (hlasts : fate.lasts play.tokens = true) :
    ∃ f, s.SameOutcome s' play.stack play'.stack
      (s.reply t (.endRun entry (fate.answer play.tokens play.faults)))
      (s'.reply t' (.endRun entry' (fate.answer play'.tokens play'.faults))) f := by
  obtain ⟨f, hmm, htokens⟩ := h.mirrors
  have hreach : {h | (s.solo play.stack).Live h} = s.reach play.stack :=
    Set.ext fun _ => Session.live_solo hs.envsAgree
  have hreach' : {h | (s'.solo play'.stack).Live h} = s'.reach play'.stack :=
    Set.ext fun _ => Session.live_solo hs'.envsAgree
  have hbij := hmm.bijOn
  rw [hreach, hreach'] at hbij
  refine ⟨f, hbij, fun k hk => hmm.words k ((Session.live_solo hs.envsAgree).2 hk), ?_⟩
  obtain ⟨hstack, hstack', hpeers⟩ := Session.Peers.of_place hs hs' hmm hown hown'
  obtain ⟨text, heq⟩ := Machine.endRun_eq s.machine t entry (fate.answer play.tokens play.faults)
  obtain ⟨text', heq'⟩ := Machine.endRun_eq s'.machine t' entry'
    (fate.answer play'.tokens play'.faults)
  show Answer.Alike _ (s.machine.endRun t entry _).1 (s'.machine.endRun t' entry' _).1
  rw [← hstack] at hmm htokens ⊢
  rw [← hstack'] at hmm
  have hresult : ((s.solo entry.stack).checkResult (entry.alone (s.ledger.framesOn entry.stack))
      (fate.answer play.tokens play.faults)).Alike ((s.solo entry.stack).Carries f)
      ((s'.solo entry'.stack).checkResult (entry.alone (s.ledger.framesOn entry.stack))
        (fate.answer play'.tokens play'.faults)) :=
    hmm.checkResult hs.regular_solo
      (Fate.alike_answer hs.regular_solo htokens h.faults hlasts)
  rw [Session.solo, Session.solo, Machine.checkResult_solo hpeers.mem_frames, ← hpeers.place,
    Machine.checkResult_solo hpeers.mem_frames'] at hresult
  rw [heq, heq']
  exact hresult.imp fun word word' hword =>
    ⟨hword.1, fun k hk => (Session.live_solo hs.envsAgree).1 (hword.2 k hk)⟩

end Play.Even

namespace Part.Even

variable {part part' part₁ part₁' : Part A}

/-- A turn of a program on both sides leaves it even, if it names only what lasts and there is
memory for both. -/
theorem advance {mutator : Mutator} (h : Part.Even s s' part part') (hs : s.Steady width)
    (hs' : s'.Steady width)
    (hdepth : s'.machine.config.maxCallDepth = s.machine.config.maxCallDepth)
    (hadvance : mutator.Advance s t part s₁ part₁)
    (hadvance' : mutator.Advance s' t' part' s₁' part₁') (hnext : part.Next part₁)
    (hnext' : part'.Next part₁') (hheedful : part₁.heedful = true)
    (hroom : .created (.failed .outOfMemory) ∉ part₁.seen)
    (hroom' : .created (.failed .outOfMemory) ∉ part₁'.seen) : Part.Even s₁ s₁' part₁ part₁' := by
  cases h with
  | ended seen heedful outcome => exact absurd rfl (hnext.unended _ _ _)
  | waiting =>
    cases hadvance with
    | idle => exact hnext.irrefl.elim
    | begin begun =>
      cases hadvance' with
      | idle => exact hnext'.irrefl.elim
      | begin begun' =>
        exact .playing ⟨rfl, rfl, rfl, id, Session.mirrors_begun hs hs' hdepth begun begun', .nil⟩
  | @playing play play' even =>
    -- it has seen the same on both sides, so its turn is the same
    have hseen : mutator.next play'.seen = mutator.next play.seen := congrArg _ even.seen
    obtain ⟨f, hmm, htokens⟩ := even.mirrors
    cases hadvance with
    | idle => exact hnext.irrefl.elim
    | @ask _ frame demand env action turn own meant permitted =>
      have hlasts : demand.lasts play.tokens = true := (Bool.and_eq_true_iff.1 hheedful).2
      cases hadvance' with
      | idle => exact hnext'.irrefl.elim
      | compare turn' => exact nomatch turn'.symm.trans (hseen.trans turn)
      | finish turn' own' permitted' => exact nomatch turn'.symm.trans (hseen.trans turn)
      | @ask _ frame' demand' env' action' turn' own' meant' permitted' =>
        obtain ⟨rfl, rfl⟩ := Turn.ask.inj (turn'.symm.trans (hseen.trans turn))
        rw [demand'.lasts_eq htokens]
        refine .playing (even.informed (hs.after permitted (Demand.orderly_of_action meant))
          (hs'.after permitted' (Demand.orderly_of_action meant')) htokens ?_)
        obtain ⟨hstack, hstack', hpeers⟩ := Session.Peers.of_place hs hs' hmm own own'
        rw [← hstack] at htokens meant ⊢
        rw [← hstack'] at meant' ⊢
        exact hpeers.agree htokens even.faults meant meant' permitted hlasts
          (fun heq => hroom (heq ▸ List.mem_cons_self)) fun heq => hroom' (heq ▸ List.mem_cons_self)
    | @compare _ first second turn =>
      cases hadvance' with
      | idle => exact hnext'.irrefl.elim
      | ask turn' own' meant' permitted' => exact nomatch turn'.symm.trans (hseen.trans turn)
      | finish turn' own' permitted' => exact nomatch turn'.symm.trans (hseen.trans turn)
      | compare turn' =>
        obtain ⟨rfl, rfl⟩ := Turn.compare.inj (turn'.symm.trans (hseen.trans turn))
        exact .playing (even.compared hs (Bool.and_eq_true_iff.1 hheedful).2)
    | @finish _ fate entry turn own permitted =>
      have hlasts : fate.lasts play.tokens = true := (Bool.and_eq_true_iff.1 hheedful).2
      cases hadvance' with
      | idle => exact hnext'.irrefl.elim
      | ask turn' own' meant' permitted' => exact nomatch turn'.symm.trans (hseen.trans turn)
      | compare turn' => exact nomatch turn'.symm.trans (hseen.trans turn)
      | finish turn' own' permitted' =>
        obtain rfl := Turn.finish.inj (turn'.symm.trans (hseen.trans turn))
        obtain ⟨f, houtcome⟩ := even.sameOutcome hs hs' own own' hlasts
        refine .ended even.seen ?_ houtcome
        show (play'.heedful && _) = (play.heedful && _)
        rw [even.heedful, Fate.lasts_eq htokens]

end Part.Even

end Steps

/-! ### Programs that can be followed -/

/-- What there is to tell of a part that has ended. -/
def Part.report {A : Type} : Part A → Option (List View × Bool × Answer Word)
  | ended _ play answer => some (play.seen, play.heedful, answer)
  | _ => none

theorem Part.exists_of_report {A : Type} {part : Part A} {seen : List View} {heedful : Bool}
    {answer : Answer Word} (hreport : part.report = some (seen, heedful, answer)) :
    ∃ last play, part = .ended last play answer ∧ play.seen = seen ∧ play.heedful = heedful := by
  cases part with
  | ended last play answer' =>
    obtain ⟨rfl, rfl, rfl⟩ := by simpa only [report, Option.some.injEq, Prod.mk.injEq] using hreport
    exact ⟨last, play, rfl, rfl, rfl⟩
  | _ => cases hreport

namespace Mutator

/-- Makes an object and returns it. -/
def maker : Mutator where
  name := "maker"
  next
    | [] => .ask 0 .newObject
    | _ => .finish (.word (.reference (.token 0)))

/-- Lets go of an object, makes another, and writes to the first. -/
def forgetful : Mutator where
  name := "forgetful"
  next
    | [] => .ask 0 .newObject
    | [_] => .ask 0 (.release (.token 0))
    | [_, _] => .ask 0 .newObject
    | [_, _, _] => .ask 0 (.setData (.token 0) 0 (-1))
    | .gist (.failed _) :: _ => .finish (.failure 0)
    | _ => .finish (.word (.reference .null))

end Mutator

/-! ### Two runs of an ensemble -/

section Runs

variable [DecidableEq ι] {e e' : Ensemble A ι} {mutators mutators' : ι → Mutator}
  {cues cues' : List (Cue ι)} {who : ι}

/-- Where a program has come equally far in two runs it is even, if it names only what lasts and was
never refused an object. -/
theorem Ensemble.Placed.even (hp : e.Placed width depth) (hp' : e'.Placed width depth)
    (hopening : e.part who = .waiting) (hopening' : e'.part who = .waiting)
    (hsame : mutators' who = mutators who)
    (hpace : ((e'.perform mutators' cues').part who).pace =
      ((e.perform mutators cues).part who).pace)
    (hheedful : ((e.perform mutators cues).part who).heedful = true)
    (hroom : .created (.failed .outOfMemory) ∉ ((e.perform mutators cues).part who).seen)
    (hroom' : .created (.failed .outOfMemory) ∉ ((e'.perform mutators' cues').part who).seen) :
    Part.Even (e.perform mutators cues).session (e'.perform mutators' cues').session
      ((e.perform mutators cues).part who) ((e'.perform mutators' cues').part who) := by
  induction cues generalizing cues' with
  | nil =>
    -- the program has not begun in the one run, so it has not in the other
    have hwaiting : (e.perform mutators []).part who = .waiting := hopening
    rw [hwaiting] at hpace ⊢
    cases hpart : (e'.perform mutators' cues').part who with
    | waiting => exact .waiting
    | playing play => rw [hpart] at hpace; exact nomatch hpace
    | ended last play answer => rw [hpart] at hpace; exact nomatch hpace
  | cons cue earlier ih =>
    rcases hp.effect_perform who with ⟨t, hadvance⟩ | ⟨hpart, hu⟩
    · rcases hadvance.next with ⟨hsession, hpart⟩ | hnext
      · rw [hpart] at hpace hheedful hroom ⊢
        rw [hsession]
        exact ih hpace hheedful hroom hroom'
      · -- the last turn of the program in the other run is the one that corresponds
        induction cues' with
        | nil =>
          have hwaiting : (e'.perform mutators' []).part who = .waiting := hopening'
          rw [hwaiting, hnext.pace] at hpace
          exact nomatch hpace
        | cons cue' earlier' ih' =>
          rcases hp'.effect_perform who with ⟨t', hadvance'⟩ | ⟨hpart', hu'⟩
          · rcases hadvance'.next with ⟨hsession', hpart'⟩ | hnext'
            · rw [hpart'] at hpace hroom' ⊢
              rw [hsession']
              exact ih' hpace hroom'
            · rw [hsame] at hadvance'
              rw [hnext.pace, hnext'.pace] at hpace
              have heven := ih (Nat.succ.inj hpace) (hnext.heedful hheedful)
                (fun hmem => hroom (hnext.seen _ hmem)) fun hmem => hroom' (hnext'.seen _ hmem)
              exact heven.advance hp.perform.steady hp'.perform.steady
                (hp'.perform.config.trans hp.perform.config.symm) hadvance hadvance' hnext hnext'
                hheedful hroom hroom'
          · rw [hpart'] at hpace hroom' ⊢
            exact (ih' hpace hroom').right hu'
    · rw [hpart] at hpace hheedful hroom ⊢
      exact (ih hpace hheedful hroom hroom').left hu

/-- A program that ends in two runs has the same outcome in both. -/
theorem Ensemble.Placed.outcome (hp : e.Placed width depth) (hp' : e'.Placed width depth)
    (hopening : e.part who = .waiting) (hopening' : e'.part who = .waiting)
    (hsame : mutators' who = mutators who) {last last' : Session A} {play play' : Play}
    {answer answer' : Answer Word}
    (hends : (e.perform mutators cues).part who = .ended last play answer)
    (hends' : (e'.perform mutators' cues').part who = .ended last' play' answer')
    (hheedful : play.heedful = true) (hroom : .created (.failed .outOfMemory) ∉ play.seen)
    (hroom' : .created (.failed .outOfMemory) ∉ play'.seen) :
    play'.seen = play.seen ∧ play'.heedful = true ∧
      ∃ f, last.SameOutcome last' play.stack play'.stack answer answer' f := by
  have hheedful : ((e.perform mutators cues).part who).heedful = true := by
    rw [hends]
    exact hheedful
  have hroom : .created (.failed .outOfMemory) ∉ ((e.perform mutators cues).part who).seen := by
    rw [hends]
    exact hroom
  have hroom' : .created (.failed .outOfMemory) ∉
      ((e'.perform mutators' cues').part who).seen := by
    rw [hends']
    exact hroom'
  -- it has ended on both sides, so on neither has it come further
  rcases Nat.lt_trichotomy ((e'.perform mutators' cues').part who).pace
    ((e.perform mutators cues).part who).pace with hlt | hpace | hlt
  · obtain ⟨earlier, hpace, hbefore, hunended⟩ := hp.exists_pace hopening hlt
    have heven := hp.even hp' hopening hopening' hsame hpace.symm (hbefore.heedful hheedful)
      (fun hmem => hroom (hbefore.seen _ hmem)) hroom'
    rw [hends'] at heven
    generalize (e.perform mutators earlier).part who = part at heven hunended
    cases heven
    exact absurd rfl (hunended _ _ _)
  · have heven := hp.even hp' hopening hopening' hsame hpace hheedful hroom hroom'
    rw [hends, hends'] at heven
    rw [hends] at hheedful
    cases heven with
    | ended seen heedful outcome => exact ⟨seen, heedful.trans hheedful, _, outcome⟩
  · obtain ⟨earlier, hpace, hbefore, hunended⟩ := hp'.exists_pace hopening' hlt
    have heven := hp.even hp' hopening hopening' hsame hpace hheedful hroom
      fun hmem => hroom' (hbefore.seen _ hmem)
    rw [hends] at heven
    generalize (e'.perform mutators' earlier).part who = part at heven hunended
    cases heven
    exact absurd rfl (hunended _ _ _)

/-- Of a session that orderly moves led to over mark and sweep, and over cells that a word can
number, as those of any memory can, programs begin on it, and each acts by the frames of its own
stack and knows its handles by tokens. In two runs of such programs, a turn at a time and with
collections anywhere, a program that ends in both has the same outcome, whatever the others do: it
sees the same, and is answered the same data, corresponding handles, or a fault of one variant. This
is so if in one run the program uses, compares and returns a handle only for as long as its stack
has reached the object ever since the handle was given, and if it is refused no object for want of
memory. -/
theorem Session.OrderlyOver.outcome_of_cues {allocator : MarkSweep} {config : MachineConfig}
    {s last last' : Session MarkSweep} {play play' : Play} {answer answer' : Answer Word}
    (hs : s.OrderlyOver allocator config width) (hsame : mutators' who = mutators who)
    (hends : ((Ensemble.opening s).perform mutators cues).part who = .ended last play answer)
    (hends' : ((Ensemble.opening s).perform mutators' cues').part who = .ended last' play' answer')
    (hheedful : play.heedful = true) (hroom : .created (.failed .outOfMemory) ∉ play.seen)
    (hroom' : .created (.failed .outOfMemory) ∉ play'.seen) :
    play'.seen = play.seen ∧ play'.heedful = true ∧
      ∃ f, last.SameOutcome last' play.stack play'.stack answer answer' f := by
  have hplaced : (Ensemble.opening s : Ensemble MarkSweep ι).Placed width
      s.machine.config.maxCallDepth :=
    .opening hs.steady hs.apart rfl
  exact hplaced.outcome hplaced rfl rfl hsame hends hends' hheedful hroom hroom'

end Runs

/-- What is said of all runs, said of two in which programs make an object each, in one order and in
the other. -/
theorem outcome_of_swapped_cues :
    ∃ (start : Machine MarkSweep) (last last' : Session MarkSweep) (play play' : Play)
      (f : Handle → Handle),
      Machine.build Thread.first (.ofSize 4 1) (MarkSweep.fresh .zero) .standard = .ok start ∧
        ((Ensemble.opening (.opening start)).perform (fun _ => Mutator.maker)
          [.play 1 true, .play 1 true, .play 0 false, .play 1 true, .play 0 false]).part true =
            .ended last play (.ok 2) ∧
        ((Ensemble.opening (.opening start)).perform (fun _ => Mutator.maker)
          [.play 1 true, .collect 2, .play 0 false, .play 1 true, .play 1 true,
            .play 0 false]).part true = .ended last' play' (.ok 1) ∧
        play'.seen = play.seen ∧
        last.SameOutcome last' play.stack play'.stack (.ok 2) (.ok 1) f := by
  let start : Machine MarkSweep := (Machine.build Thread.first (.ofSize 4 1)
    (MarkSweep.fresh .zero) .standard).toOption.get rfl
  have hbuild : Machine.build Thread.first (.ofSize 4 1) (MarkSweep.fresh .zero) .standard =
    .ok start := rfl
  have hreport : (((Ensemble.opening (.opening start)).perform (fun _ => Mutator.maker)
      [.play 1 true, .play 1 true, .play 0 false, .play 1 true, .play 0 false]).part true).report =
        some ([.created .object], true, .ok 2) := by cbv
  have hreport' : (((Ensemble.opening (.opening start)).perform (fun _ => Mutator.maker)
      [.play 1 true, .collect 2, .play 0 false, .play 1 true, .play 1 true,
        .play 0 false]).part true).report = some ([.created .object], true, .ok 1) := by cbv
  obtain ⟨last, play, hends, hseen, hheedful⟩ := Part.exists_of_report hreport
  obtain ⟨last', play', hends', hseen', -⟩ := Part.exists_of_report hreport'
  have horderly : (Session.opening start).OrderlyOver (MarkSweep.fresh .zero) .standard 1 :=
    .opening ⟨hbuild, by decide⟩
  obtain ⟨hsame, -, f, houtcome⟩ := horderly.outcome_of_cues rfl hends hends' hheedful
    (by rw [hseen]; decide) (by rw [hseen']; decide)
  exact ⟨start, last, last', play, play', f, hbuild, hends, hends', hsame, houtcome⟩

/-- A program that writes to an object which its stack has let go of has another outcome when there
was a collection in between: the handle has come to name the object that it made since. -/
theorem outcome_differs_after_collect :
    ∃ (start : Machine MarkSweep) (last last' : Session MarkSweep) (play play' : Play),
      Machine.build Thread.first (.ofSize 4 1) (MarkSweep.fresh .zero) .standard = .ok start ∧
        ((Ensemble.opening (.opening start)).perform (fun _ => Mutator.forgetful)
          [.play 0 (), .play 0 (), .play 0 (), .play 0 (), .play 0 (), .play 0 ()]).part () =
            .ended last play (.error (.notHeld 1)) ∧
        ((Ensemble.opening (.opening start)).perform (fun _ => Mutator.forgetful)
          [.play 0 (), .play 0 (), .play 0 (), .collect 0, .play 0 (), .play 0 (),
            .play 0 ()]).part () = .ended last' play' (.ok 0) ∧
        .created (.failed .outOfMemory) ∉ play.seen ∧
        .created (.failed .outOfMemory) ∉ play'.seen ∧
        ∀ f, ¬ last.SameOutcome last' play.stack play'.stack (.error (.notHeld 1)) (.ok 0) f := by
  let start : Machine MarkSweep := (Machine.build Thread.first (.ofSize 4 1)
    (MarkSweep.fresh .zero) .standard).toOption.get rfl
  have hreport : (((Ensemble.opening (.opening start)).perform (fun _ => Mutator.forgetful)
      [.play 0 (), .play 0 (), .play 0 (), .play 0 (), .play 0 (), .play 0 ()]).part ()).report =
        some ([.gist (.failed .illegalReference), .created .object, .gist .done, .created .object],
          false, .error (.notHeld 1)) := by cbv
  have hreport' : (((Ensemble.opening (.opening start)).perform (fun _ => Mutator.forgetful)
      [.play 0 (), .play 0 (), .play 0 (), .collect 0, .play 0 (), .play 0 (),
        .play 0 ()]).part ()).report =
        some ([.gist .done, .created .object, .gist .done, .created .object], false,
          .ok 0) := by cbv
  obtain ⟨last, play, hends, hseen, -⟩ := Part.exists_of_report hreport
  obtain ⟨last', play', hends', hseen', -⟩ := Part.exists_of_report hreport'
  refine ⟨start, last, last', play, play', rfl, hends, hends', by rw [hseen]; decide,
    by rw [hseen']; decide, fun f hsame => ?_⟩
  cases hsame.answers

end RootedHeap
