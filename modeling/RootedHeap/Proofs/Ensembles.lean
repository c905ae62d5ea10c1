import RootedHeap.Proofs.Mutators

/-!
What turns of programs do to a session. A turn is nothing, a comparison, or an orderly action on the
stack of the program, or on none that others have. So every program that plays has a stack of its
own, and stacks stay apart. To each program a cue is then one of two things: its own turn, or
something that does not show on its stack.
-/

namespace RootedHeap

variable {A ι : Type}

/-! ### What a turn can be -/

namespace Demand

variable {demand : Demand} {own : List Env} {tokens : List Token} {faults : List Fault} {env : Env}
  {action : Action}

theorem orderly_of_action (hmeant : demand.action own tokens faults env = some action) :
    action.orderly = true := by
  cases demand with
  | endCall callee fate =>
    obtain ⟨env', -, rfl⟩ := Option.map_eq_some_iff.1 hmeant
    rfl
  | _ =>
    obtain rfl := Option.some.inj hmeant
    rfl

/-- A demand is met on the stack of the frame that is asked, or on none. -/
theorem stack_of_action (hmeant : demand.action own tokens faults env = some action)
    (hown : ∀ env' ∈ own, env'.stack = env.stack) (t : CallStacks) :
    action.stack t = env.stack ∨ action.stack t = t.known.size := by
  cases demand with
  | endCall callee fate =>
    obtain ⟨env', hplace, rfl⟩ := Option.map_eq_some_iff.1 hmeant
    exact .inl (hown env' (List.mem_of_getElem? hplace))
  | look =>
    obtain rfl := Option.some.inj hmeant
    exact .inr rfl
  | _ =>
    obtain rfl := Option.some.inj hmeant
    exact .inl rfl

end Demand

/-- What a turn of a program can be. -/
inductive Mutator.Advance [Allocator A] (mutator : Mutator) (s : Session A) (t : Thread) :
    Part A → Session A → Part A → Prop
  | idle {part : Part A} : Advance mutator s t part s part
  | begin {entry : Env} (begun : s.reply t (.beginRun mutator.name []) = .ok entry) :
    Advance mutator s t .waiting (s.after t (.beginRun mutator.name []))
      (.playing (.starting entry.stack))
  | ask {play : Play} {frame : Nat} {demand : Demand} {env : Env} {action : Action}
      (turn : mutator.next play.seen = .ask frame demand)
      (own : (s.ledger.envsOn play.stack)[frame]? = some env)
      (meant : demand.action (s.ledger.envsOn play.stack) play.tokens play.faults env = some action)
      (permitted : s.ledger.permits action) :
    Advance mutator s t (.playing play) (s.after t action)
      (.playing (play.informed (s.after t action) action (s.reply t action)
        (demand.lasts play.tokens)))
  | compare {play : Play} {first second : Item}
      (turn : mutator.next play.seen = .compare first second) :
    Advance mutator s t (.playing play) s (.playing (play.compared first second))
  | finish {play : Play} {fate : Fate} {entry : Env} (turn : mutator.next play.seen = .finish fate)
      (own : (s.ledger.envsOn play.stack)[0]? = some entry)
      (permitted : s.ledger.permits (.endRun entry (fate.answer play.tokens play.faults))) :
    Advance mutator s t (.playing play)
      (s.after t (.endRun entry (fate.answer play.tokens play.faults)))
      (.ended s { play with heedful := play.heedful && fate.lasts play.tokens }
        (s.reply t (.endRun entry (fate.answer play.tokens play.faults))))

namespace Mutator

variable [Allocator A] {mutator : Mutator} {s s' : Session A} {t : Thread} {part part' : Part A}

theorem advance_spec :
    mutator.Advance s t part (mutator.advance s t part).1 (mutator.advance s t part).2 := by
  cases part with
  | waiting =>
    rw [advance]
    cases hbegun : s.reply t (.beginRun mutator.name []) with
    | error fault => exact .idle
    | ok entry => exact .begin hbegun
  | ended last play answer => exact .idle
  | playing play =>
    rw [advance]
    dsimp only
    cases hturn : mutator.next play.seen with
    | compare first second => exact .compare hturn
    | ask frame demand =>
      dsimp only
      cases hmeant : (s.ledger.envsOn play.stack)[frame]?.bind fun env =>
          demand.action (s.ledger.envsOn play.stack) play.tokens play.faults env with
      | none => exact .idle
      | some action =>
        obtain ⟨env, hown, hmeant⟩ := Option.bind_eq_some_iff.1 hmeant
        dsimp only
        split
        · rename_i hpermits
          exact .ask hturn hown hmeant hpermits
        · exact .idle
    | finish fate =>
      dsimp only
      cases hown : (s.ledger.envsOn play.stack)[0]? with
      | none => exact .idle
      | some entry =>
        dsimp only
        split
        · rename_i hpermits
          exact .finish hturn hown hpermits
        · exact .idle

/-- What a turn does to the session: nothing, or an orderly action on the program's stack or on none
that others have. -/
theorem Advance.session (h : mutator.Advance s t part s' part') :
    s' = s ∨ ∃ action, s.ledger.permits action ∧ action.orderly = true ∧ s' = s.after t action ∧
      (action.stack s.calls = s.calls.known.size ∨
        ∃ play, part = .playing play ∧ action.stack s.calls = play.stack) := by
  have hon : ∀ {stack : StackRef}, ∀ env ∈ s.ledger.envsOn stack, env.stack = stack :=
    fun env henv => (Ledger.mem_envsOn.1 henv).2
  cases h with
  | idle => exact .inl rfl
  | compare turn => exact .inl rfl
  | begin begun => exact .inr ⟨.beginRun mutator.name [], trivial, rfl, rfl, .inl rfl⟩
  | @ask play frame demand env action turn own meant permitted =>
    have henv := hon env (List.mem_of_getElem? own)
    refine .inr ⟨action, permitted, Demand.orderly_of_action meant, rfl, ?_⟩
    rcases Demand.stack_of_action meant (fun env' h' => (hon env' h').trans henv.symm)
      s.calls with hstack | hstack
    · exact .inr ⟨play, rfl, hstack.trans henv⟩
    · exact .inl hstack
  | @finish play fate entry turn own permitted =>
    exact .inr ⟨_, permitted, rfl, rfl, .inr ⟨play, rfl, hon entry (List.mem_of_getElem? own)⟩⟩

end Mutator

/-! ### Where programs are -/

namespace Session

variable [Allocator A] {s : Session A} {t : Thread}

/-- Stacks stay known. -/
theorem known_le_after {action : Action} (hpermits : s.ledger.permits action) :
    s.calls.known.size ≤ (s.after t action).calls.known.size := by
  have hstep := ledger_step (t := t) hpermits
  generalize (s.after t action).calls = calls at hstep ⊢
  generalize (s.after t action).ledger = ledger at hstep
  generalize action.gain (s.reply t action) = gain at hstep
  cases hstep <;> simp

/-- A run that begins has the next stack and the next frame. -/
theorem beginRun_ok {name : String} {args : List Word} {entry : Env}
    (hbegun : s.reply t (.beginRun name args) = .ok entry) :
    entry = ⟨s.calls.known.size, s.calls.frames.size⟩ ∧
      (s.after t (.beginRun name args)).calls =
        s.calls.register.2.opened s.calls.known.size [] ∧
      (s.after t (.beginRun name args)).ledger.envs = s.ledger.envs ++ [entry] := by
  have hreply : s.reply t (.beginRun name args) = (s.machine.beginRun t name args).1 := rfl
  have hcalls : (s.after t (.beginRun name args)).calls =
    (s.machine.beginRun t name args).2.calls := rfl
  have hledger : (s.after t (.beginRun name args)).ledger =
    s.ledger.record (.beginRun name args) (s.machine.beginRun t name args).1 := rfl
  rw [hreply] at hbegun
  rw [hcalls, hledger]
  cases hargs : args.findSome? Word.target? with
  | some h =>
    rw [Machine.beginRun_refused hargs] at hbegun
    cases hbegun
  | none =>
    obtain ⟨text, heq⟩ := Machine.beginRun_eq s.machine t name hargs
    rw [heq] at hbegun ⊢
    obtain rfl := Except.ok.inj hbegun
    exact ⟨rfl, rfl, rfl⟩

end Session

/-- Whether a part may have come before another. -/
structure Part.Before (part part' : Part A) : Prop where
  seen : ∀ view ∈ part.seen, view ∈ part'.seen
  heedful : part'.heedful = true → part.heedful = true

/-- Whether a part is one turn behind another. -/
structure Part.Next (part part' : Part A) : Prop extends part.Before part' where
  pace : part'.pace = part.pace + 1
  unended : ∀ last play answer, part ≠ .ended last play answer

theorem Part.Next.irrefl {part : Part A} (h : part.Next part) : False :=
  Nat.ne_of_lt (Nat.lt_succ_self _) h.pace

/-- A turn that is taken is one more. -/
theorem Mutator.Advance.next [Allocator A] {mutator : Mutator} {s s' : Session A} {t : Thread}
    {part part' : Part A} (h : mutator.Advance s t part s' part') :
    (s' = s ∧ part' = part) ∨ part.Next part' := by
  have hboth : ∀ {flag flag' : Bool}, (flag && flag') = true → flag = true := fun hand =>
    (Bool.and_eq_true_iff.1 hand).1
  cases h with
  | idle => exact .inl ⟨rfl, rfl⟩
  | begin begun =>
    exact .inr ⟨⟨fun _ => (nomatch ·), fun _ => rfl⟩, rfl, fun _ _ _ => (nomatch ·)⟩
  | ask turn own meant permitted =>
    exact .inr ⟨⟨fun _ => List.mem_cons_of_mem _, hboth⟩, rfl, fun _ _ _ => (nomatch ·)⟩
  | compare turn =>
    exact .inr ⟨⟨fun _ => List.mem_cons_of_mem _, hboth⟩, rfl, fun _ _ _ => (nomatch ·)⟩
  | finish turn own permitted =>
    exact .inr ⟨⟨fun _ hmem => hmem, hboth⟩, rfl, fun _ _ _ => (nomatch ·)⟩

/-- A program that plays after a turn is where it was, or on the stack that came next. -/
theorem Mutator.Advance.stack [Allocator A] {mutator : Mutator} {s s' : Session A} {t : Thread}
    {part part' : Part A} {play : Play} (h : mutator.Advance s t part s' part')
    (hplay : part' = .playing play) :
    (∃ before, part = .playing before ∧ play.stack = before.stack) ∨
      play.stack = s.calls.known.size ∧ s.calls.known.size < s'.calls.known.size := by
  cases h with
  | idle => exact .inl ⟨play, hplay, rfl⟩
  | begin begun =>
    obtain ⟨rfl, hcalls, -⟩ := Session.beginRun_ok begun
    obtain rfl := Part.playing.inj hplay
    refine .inr ⟨rfl, ?_⟩
    rw [hcalls, CallStacks.known_size_opened, CallStacks.known_size_register]
    exact Nat.lt_succ_self _
  | ask turn own meant permitted =>
    obtain rfl := Part.playing.inj hplay
    exact .inl ⟨_, rfl, rfl⟩
  | compare turn =>
    obtain rfl := Part.playing.inj hplay
    exact .inl ⟨_, rfl, rfl⟩
  | finish turn own permitted => cases hplay

namespace Ensemble

variable [Allocator A] [LawfulCollector A] [DecidableEq ι] {width depth : Nat} {e : Ensemble A ι}
  {mutators : ι → Mutator} {cue : Cue ι} {cues : List (Cue ι)} {who : ι} {play : Play}

/-- Where the programs of an ensemble are: on stacks of their own, in a session in which stacks are
apart. -/
structure Placed (width depth : Nat) (e : Ensemble A ι) : Prop where
  steady : e.session.Steady width
  apart : Apart e.session.machine.heap e.session.calls
  config : e.session.machine.config.maxCallDepth = depth
  known : ∀ who play, e.part who = .playing play → play.stack < e.session.calls.known.size
  alone : ∀ who who' play play', e.part who = .playing play → e.part who' = .playing play' →
    play.stack = play'.stack → who = who'

/-- What a cue can do to the part of a program: the program takes its turn, or another one works and
nothing shows on the program's stack. -/
inductive Effect (mutators : ι → Mutator) (who : ι) (e e' : Ensemble A ι) : Prop
  | own (t : Thread)
      (advance : (mutators who).Advance e.session t (e.part who) e'.session (e'.part who))
  | other (part : e'.part who = e.part who)
      (undisturbed : ∀ play, e.part who = .playing play →
        (e.session.solo play.stack).Undisturbed (e'.session.solo play.stack))

omit [LawfulCollector A] in
/-- The parts after a cue, and the session. -/
theorem after_play (e : Ensemble A ι) (mutators : ι → Mutator) (t : Thread) (who : ι) :
    (mutators who).Advance e.session t (e.part who) (e.after mutators (.play t who)).session
        ((e.after mutators (.play t who)).part who) ∧
      ∀ who', who' ≠ who → (e.after mutators (.play t who)).part who' = e.part who' := by
  refine ⟨?_, fun who' hne => Function.update_of_ne hne _ _⟩
  have hpart : (e.after mutators (.play t who)).part who =
    ((mutators who).advance e.session t (e.part who)).2 := Function.update_self _ _ _
  rw [hpart]
  exact Mutator.advance_spec

namespace Placed

theorem effect (hp : e.Placed width depth) (who : ι) :
    Effect mutators who e (e.after mutators cue) := by
  have hnew : ∀ play, e.part who = .playing play → e.session.calls.known.size ≠ play.stack := by
    intro play hplay heq
    have hlt := hp.known who play hplay
    rw [heq] at hlt
    exact Nat.lt_irrefl _ hlt
  cases cue with
  | collect t =>
    refine .other rfl fun play hplay => hp.steady.undisturbed hp.apart trivial rfl ?_
    exact hnew play hplay
  | play t who' =>
    obtain ⟨hadvance, hothers⟩ := after_play e mutators t who'
    by_cases hwho : who = who'
    · subst hwho
      exact .own t hadvance
    · refine .other (hothers who hwho) fun play hplay => ?_
      rcases hadvance.session with hsame | ⟨action, hpermits, horderly, hafter, hstack⟩
      · rw [hsame]
        exact ⟨rfl, fun _ _ => rfl, rfl, rfl⟩
      · rw [hafter]
        refine hp.steady.undisturbed hp.apart hpermits horderly ?_
        rcases hstack with hnone | ⟨play', hplay', hstack⟩
        · rw [hnone]
          exact hnew play hplay
        · rw [hstack]
          exact fun heq => hwho (hp.alone who who' play play' hplay hplay' heq.symm)

omit [DecidableEq ι] in
/-- An action leaves a session in which stacks are apart. -/
theorem session_after (hp : e.Placed width depth) (t : Thread) (action : Action)
    (hpermits : e.session.ledger.permits action) (horderly : action.orderly = true) :
    (e.session.after t action).Steady width ∧
      Apart (e.session.after t action).machine.heap (e.session.after t action).calls ∧
      (e.session.after t action).machine.config.maxCallDepth = depth ∧
      e.session.calls.known.size ≤ (e.session.after t action).calls.known.size := by
  refine ⟨hp.steady.after hpermits horderly, ?_, ?_, Session.known_le_after hpermits⟩
  · exact (hp.steady.heapStep hp.apart hpermits horderly).apart hp.steady.envsAgree hp.apart
  · rw [Session.config_after, hp.config]

/-- Programs stay where they are, and one that begins has a stack of its own. -/
theorem after (hp : e.Placed width depth) : (e.after mutators cue).Placed width depth := by
  cases cue with
  | collect t =>
    obtain ⟨hsteady, hapart, hconfig, hle⟩ := hp.session_after t .collect trivial rfl
    exact ⟨hsteady, hapart, hconfig,
      fun who play hplay => Nat.lt_of_lt_of_le (hp.known who play hplay) hle, hp.alone⟩
  | play t who =>
    obtain ⟨hadvance, hothers⟩ := after_play e mutators t who
    generalize e.after mutators (.play t who) = e' at hadvance hothers
    have hsession : e'.session.Steady width ∧
        Apart e'.session.machine.heap e'.session.calls ∧
        e'.session.machine.config.maxCallDepth = depth ∧
        e.session.calls.known.size ≤ e'.session.calls.known.size := by
      rcases hadvance.session with hsame | ⟨action, hpermits, horderly, hafter, -⟩
      · rw [hsame]
        exact ⟨hp.steady, hp.apart, hp.config, Nat.le_refl _⟩
      · rw [hafter]
        exact hp.session_after t action hpermits horderly
    obtain ⟨hsteady, hapart, hconfig, hle⟩ := hsession
    -- a stack on which a program was is below those that are known
    have hold : ∀ who' play, e.part who' = .playing play →
        play.stack ≠ e.session.calls.known.size := by
      intro who' play hplay heq
      have hlt := hp.known who' play hplay
      rw [heq] at hlt
      exact Nat.lt_irrefl _ hlt
    -- whoever plays now played on the stack before, or has just begun on a new one
    have hplace : ∀ who' play, e'.part who' = .playing play →
        (∃ before, e.part who' = .playing before ∧ play.stack = before.stack) ∨
          who' = who ∧ play.stack = e.session.calls.known.size ∧
            e.session.calls.known.size < e'.session.calls.known.size := by
      intro who' play hplay
      by_cases hwho : who' = who
      · subst hwho
        exact (hadvance.stack hplay).imp_right fun hnew => ⟨rfl, hnew⟩
      · rw [hothers who' hwho] at hplay
        exact .inl ⟨play, hplay, rfl⟩
    refine ⟨hsteady, hapart, hconfig, fun who' play hplay => ?_,
      fun who₁ who₂ play₁ play₂ hplay₁ hplay₂ heq => ?_⟩
    · rcases hplace who' play hplay with ⟨before, hbefore, hstack⟩ | ⟨-, hstack, hlt⟩
      · rw [hstack]
        exact Nat.lt_of_lt_of_le (hp.known who' before hbefore) hle
      · rw [hstack]
        exact hlt
    · rcases hplace who₁ play₁ hplay₁ with ⟨before₁, hbefore₁, hstack₁⟩ | ⟨rfl, hstack₁, -⟩ <;>
        rcases hplace who₂ play₂ hplay₂ with ⟨before₂, hbefore₂, hstack₂⟩ | ⟨rfl, hstack₂, -⟩
      · exact hp.alone who₁ who₂ before₁ before₂ hbefore₁ hbefore₂ (hstack₁ ▸ heq.trans hstack₂)
      · exact absurd (hstack₁ ▸ heq.trans hstack₂) (hold who₁ before₁ hbefore₁)
      · exact absurd (hstack₂ ▸ heq.symm.trans hstack₁) (hold who₂ before₂ hbefore₂)
      · rfl

omit [DecidableEq ι] in
theorem opening {s : Session A} (hs : s.Steady width) (happart : Apart s.machine.heap s.calls)
    (hdepth : s.machine.config.maxCallDepth = depth) :
    (Ensemble.opening s : Ensemble A ι).Placed width depth :=
  ⟨hs, happart, hdepth, fun _ _ hplay => (nomatch hplay), fun _ _ _ _ hplay => (nomatch hplay)⟩

theorem perform (hp : e.Placed width depth) : (e.perform mutators cues).Placed width depth := by
  induction cues with
  | nil => exact hp
  | cons cue earlier ih => exact ih.after

/-- What the latest cue did to the part of a program. -/
theorem effect_perform (hp : e.Placed width depth) (who : ι) :
    Effect mutators who (e.perform mutators cues) (e.perform mutators (cue :: cues)) :=
  hp.perform.effect who

/-- On its way a program has come to every number of turns below. -/
theorem exists_pace (hp : e.Placed width depth) (hopening : e.part who = .waiting) {n : Nat}
    (hn : n < ((e.perform mutators cues).part who).pace) :
    ∃ earlier, ((e.perform mutators earlier).part who).pace = n ∧
      ((e.perform mutators earlier).part who).Before ((e.perform mutators cues).part who) ∧
      ∀ last play answer, (e.perform mutators earlier).part who ≠ .ended last play answer := by
  induction cues with
  | nil =>
    have hnone : ((e.perform mutators []).part who).pace = 0 := congrArg Part.pace hopening
    rw [hnone] at hn
    exact absurd hn (Nat.not_lt_zero n)
  | cons cue earlier ih =>
    rcases hp.effect_perform who with ⟨t, hadvance⟩ | ⟨hpart, -⟩
    · rcases hadvance.next with ⟨-, hpart⟩ | hnext
      · rw [hpart] at hn ⊢
        exact ih hn
      · rcases Nat.lt_succ_iff_lt_or_eq.1 (hnext.pace ▸ hn) with hlt | heq
        · obtain ⟨first, hpace, hbefore, hunended⟩ := ih hlt
          exact ⟨first, hpace, ⟨fun view hview =>
            hnext.seen view (hbefore.seen view hview), fun hheedful =>
            hbefore.heedful (hnext.heedful hheedful)⟩, hunended⟩
        · exact ⟨earlier, heq.symm, hnext.toBefore, hnext.unended⟩
    · rw [hpart] at hn ⊢
      exact ih hn

end Placed

end Ensemble

end RootedHeap
