import RootedHeap.Proofs.Mutators

/-!
One operation on two sides. Two sessions have a stack each, and the one mirrors the other under a
renaming, cell by cell. What a program names by tokens that match are then handles that correspond,
and a demand that is met on both sides tells the same and leaves stacks that mirror each other. A
new object extends the renaming.
-/

namespace RootedHeap

variable {A B : Type}

/-! ### Names on two sides -/

/-- Places of two lists that correspond element by element. -/
theorem forall₂_getElem?_cases {α β : Type} {r : α → β → Prop} {L : List α} {L' : List β}
    (h : List.Forall₂ r L L') (i : Nat) :
    (L[i]? = none ∧ L'[i]? = none) ∨ ∃ a b, L[i]? = some a ∧ L'[i]? = some b ∧ r a b := by
  induction h generalizing i with
  | nil => exact .inl ⟨rfl, rfl⟩
  | cons hab _ ih =>
    cases i with
    | zero => exact .inr ⟨_, _, rfl, rfl, hab⟩
    | succ i => exact ih i

/-- Whether a token of a program matches one of another under a renaming, in a machine of the first.
-/
structure Token.Match (f : Handle → Handle) (m : Machine A) (token token' : Token) : Prop where
  lasting : token'.lasting = token.lasting
  live : token.lasting = true → m.Live token.handle
  handle : token.lasting = true → token'.handle = f token.handle

section Names

variable {f : Handle → Handle} {m : Machine A} {tokens tokens' : List Token}
  {faults faults' : List Fault}

/-! What programs name by tokens that match lasts on both sides or on none. -/

theorem Item.lasts_eq (htokens : List.Forall₂ (Token.Match f m) tokens tokens') (item : Item) :
    item.lasts tokens' = item.lasts tokens := by
  cases item with
  | null => rfl
  | token place =>
    rcases forall₂_getElem?_cases htokens place with
      ⟨hnone, hnone'⟩ | ⟨token, token', hsome, hsome', hmatch⟩
    · simp [lasts, hnone, hnone']
    · simp [lasts, hsome, hsome', hmatch.lasting]

theorem ItemWord.lasts_eq (htokens : List.Forall₂ (Token.Match f m) tokens tokens')
    (named : ItemWord) : named.lasts tokens' = named.lasts tokens := by
  cases named with
  | reference item => exact item.lasts_eq htokens
  | data word negative => rfl

theorem Fate.lasts_eq (htokens : List.Forall₂ (Token.Match f m) tokens tokens') (fate : Fate) :
    fate.lasts tokens' = fate.lasts tokens := by
  cases fate with
  | word named => exact named.lasts_eq htokens
  | _ => rfl

theorem Demand.lasts_eq (htokens : List.Forall₂ (Token.Match f m) tokens tokens')
    (demand : Demand) : demand.lasts tokens' = demand.lasts tokens := by
  cases demand with
  | endCall callee fate => exact fate.lasts_eq htokens
  | setReference object slot target =>
    simp only [lasts, object.lasts_eq htokens, target.lasts_eq htokens]
  | beginCall name args =>
    have hargs : ItemWord.lasts tokens' = ItemWord.lasts tokens :=
      funext fun named => named.lasts_eq htokens
    simp only [lasts, hargs]
  | getReference object slot => exact object.lasts_eq htokens
  | getData object slot => exact object.lasts_eq htokens
  | setData object slot word => exact object.lasts_eq htokens
  | release object => exact object.lasts_eq htokens
  | _ => rfl

/-! And it is what corresponds. -/

theorem Item.matches_handle (htokens : List.Forall₂ (Token.Match f m) tokens tokens') {item : Item}
    (hlasts : item.lasts tokens = true) :
    m.Matches f (item.handle tokens) (item.handle tokens') := by
  cases item with
  | null => exact .inl ⟨rfl, rfl⟩
  | token place =>
    rcases forall₂_getElem?_cases htokens place with
      ⟨hnone, hnone'⟩ | ⟨token, token', hsome, hsome', hmatch⟩
    · refine .inl ⟨?_, ?_⟩ <;> simp [Item.handle, hnone, hnone']
    · simp only [Item.lasts, hsome, Option.map_some, Option.getD_some] at hlasts
      simp only [Item.handle, hsome, hsome', Option.map_some, Option.getD_some]
      exact .inr ⟨hmatch.live hlasts, hmatch.handle hlasts⟩

theorem ItemWord.carries_word (hm : m.Regular)
    (htokens : List.Forall₂ (Token.Match f m) tokens tokens') {named : ItemWord}
    (hlasts : named.lasts tokens = true) :
    m.Carries f (named.word tokens) (named.word tokens') := by
  cases named with
  | reference item =>
    exact Machine.Mirrors.carries_toWord hm (Item.matches_handle htokens hlasts)
  | data word negative =>
    have hnone : word.target? = none := Word.target?_of_neg negative
    refine ⟨(Word.carry_of_none hnone).symm, fun k hk => ?_⟩
    rw [ItemWord.word, hnone] at hk
    cases hk

theorem ItemWord.carries_args (hm : m.Regular)
    (htokens : List.Forall₂ (Token.Match f m) tokens tokens') {args : List ItemWord}
    (hlasts : args.all (ItemWord.lasts tokens) = true) :
    List.Forall₂ (m.Carries f) (args.map (ItemWord.word tokens))
      (args.map (ItemWord.word tokens')) := by
  rw [List.all_eq_true] at hlasts
  rw [List.forall₂_map_left_iff, List.forall₂_map_right_iff, List.forall₂_same]
  intro named hmem
  exact ItemWord.carries_word hm htokens (hlasts named hmem)

theorem Fate.alike_answer (hm : m.Regular)
    (htokens : List.Forall₂ (Token.Match f m) tokens tokens')
    (hfaults : faults'.map Fault.variant = faults.map Fault.variant) {fate : Fate}
    (hlasts : fate.lasts tokens = true) :
    (fate.answer tokens faults).Alike (m.Carries f) (fate.answer tokens' faults') := by
  cases fate with
  | word named => exact .ok (ItemWord.carries_word hm htokens hlasts)
  | fault made => exact .error rfl
  | failure place =>
    refine .error ?_
    have hplace := congrArg (·[place]?) hfaults
    simp only [List.getElem?_map] at hplace
    simp only [List.getD_eq_getElem?_getD]
    cases hfault : faults[place]? <;> cases hfault' : faults'[place]? <;>
      simp_all

end Names

/-! ### Answers on two sides -/

/-- Whether two answers tell programs the same, with handles that correspond, and of what kind the
handles are that the first one tells. -/
structure Action.Informs (f : Handle → Handle) (kind : Handle → Prop) (action action' : Action)
    (reply : action.Reply) (reply' : action'.Reply) : Prop where
  view : View.ofReply action' reply' = View.ofReply action reply
  told : action'.told reply' = (action.told reply).map f
  kind : ∀ h ∈ action.told reply, kind h
  failure : (action'.failure reply').map Fault.variant = (action.failure reply).map Fault.variant

section Answers

variable {f : Handle → Handle} {kind : Handle → Prop} {m : Machine A} {m' : Machine B}
  {env env' callee callee' : Env}

theorem Machine.Mirrors.informs_handle (hmm : m.Mirrors f m') (hm : m.Regular) {o o' : Handle}
    {slot : Nat} {answer answer' : Answer Handle} (h : answer.Alike (m.Matches f) answer') :
    Action.Informs f m.Live (.getReference env o slot) (.getReference env' o' slot) answer
      answer' := by
  cases h with
  | error variant => exact ⟨congrArg (View.gist ∘ Gist.failed) variant.symm, rfl,
      fun _ => (nomatch ·), congrArg some variant.symm⟩
  | @ok h h' hh =>
    have hview := congrArg View.gist (hmm.ofHandle_eq hm hh)
    rcases hh with ⟨rfl, rfl⟩ | ⟨hlive, rfl⟩
    · exact ⟨hview, rfl, fun _ => (nomatch ·), rfl⟩
    · have h0 := (hm.le_greatest hlive).1
      have h0' := (hmm.image_le_greatest hlive).1
      refine ⟨hview, ?_, fun k hk => ?_, rfl⟩
      · simp [Action.told, h0, h0']
      · rw [Action.told, if_neg h0] at hk
        exact List.mem_singleton.1 hk ▸ hlive

theorem Machine.Mirrors.informs_word (hmm : m.Mirrors f m') {outcome outcome' : Answer Word}
    {answer answer' : Answer Word} (h : answer.Alike (m.Carries f) answer') :
    Action.Informs f m.Live (.endCall env callee outcome) (.endCall env' callee' outcome') answer
      answer' := by
  cases h with
  | error variant => exact ⟨congrArg (View.gist ∘ Gist.failed) variant.symm, rfl,
      fun _ => (nomatch ·), congrArg some variant.symm⟩
  | @ok word word' hword =>
    refine ⟨congrArg View.gist (hmm.ofWord_eq hword), ?_, fun k hk => ?_, rfl⟩
    · show word'.target?.toList = word.target?.toList.map f
      rw [hmm.target?_eq hword]
      cases word.target? <;> rfl
    · exact hword.2 k (Option.mem_toList.1 hk)

theorem Action.informs_data {o o' : Handle} {slot : Nat} {answer answer' : Answer Word}
    (h : answer.Alike (fun word word' => word' = word ∧ word < 0) answer') :
    Action.Informs f kind (.getData env o slot) (.getData env' o' slot) answer answer' := by
  cases h with
  | error variant => exact ⟨congrArg (View.gist ∘ Gist.failed) variant.symm, rfl,
      fun _ => (nomatch ·), congrArg some variant.symm⟩
  | ok hword =>
    obtain ⟨rfl, -⟩ := hword
    exact ⟨rfl, rfl, fun _ => (nomatch ·), rfl⟩

/-- Answers that tell nothing but that something was done, or why not. -/
theorem Action.informs_done {answer answer' : Answer Unit} (h : answer.Alike Eq answer') :
    (∀ o o' slot target target', Action.Informs f kind (.setReference env o slot target)
      (.setReference env' o' slot target') answer answer') ∧
    (∀ o o' slot word, Action.Informs f kind (.setData env o slot word)
      (.setData env' o' slot word) answer answer') ∧
    ∀ o o', Action.Informs f kind (.release env o) (.release env' o') answer answer' := by
  cases h with
  | error variant =>
    have hview := congrArg (View.gist ∘ Gist.failed) variant.symm
    have hfault := congrArg some variant.symm
    exact ⟨fun _ _ _ _ _ => ⟨hview, rfl, fun _ => (nomatch ·), hfault⟩,
      fun _ _ _ _ => ⟨hview, rfl, fun _ => (nomatch ·), hfault⟩,
      fun _ _ => ⟨hview, rfl, fun _ => (nomatch ·), hfault⟩⟩
  | ok _ => exact ⟨fun _ _ _ _ _ => ⟨rfl, rfl, fun _ => (nomatch ·), rfl⟩,
      fun _ _ _ _ => ⟨rfl, rfl, fun _ => (nomatch ·), rfl⟩,
      fun _ _ => ⟨rfl, rfl, fun _ => (nomatch ·), rfl⟩⟩

theorem Action.informs_call {name : String} {args args' : List Word} {answer answer' : Answer Env}
    (h : answer.Alike (fun _ _ => True) answer') :
    Action.Informs f kind (.beginCall env name args) (.beginCall env' name args') answer
      answer' := by
  cases h with
  | error variant => exact ⟨congrArg (View.gist ∘ Gist.failed) variant.symm, rfl,
      fun _ => (nomatch ·), congrArg some variant.symm⟩
  | ok _ => exact ⟨rfl, rfl, fun _ => (nomatch ·), rfl⟩

end Answers

/-! ### One operation on two sides -/

/-- Whether a renaming keeps the names of what was live, and what was live is no longer live on one
side only if it is no longer live on the other. -/
structure Machine.Keeps (f f' : Handle → Handle) (m m₁ : Machine A) (m₁' : Machine B) : Prop where
  name : ∀ h, m.Live h → f' h = f h
  live : ∀ h, m.Live h → m₁'.Live (f h) → m₁.Live h

/-- Nothing has come to be live, and the renaming is what it was. -/
theorem Machine.Mirrors.keeps {f : Handle → Handle} {m m₁ : Machine A} {m' m₁' : Machine B}
    (hmm : m.Mirrors f m') (hmm₁ : m₁.Mirrors f m₁') (hlive : ∀ k, m₁.Live k → m.Live k) :
    Keeps f f m m₁ m₁' := by
  refine ⟨fun _ _ => rfl, fun h hh hh' => ?_⟩
  obtain ⟨k, hk, heq⟩ := hmm₁.exists_of_live hh'
  exact hmm.apart (hlive k hk) hh heq ▸ hk

/-- What is live stays so when a frame comes to hold a new object. -/
theorem Machine.live_of_made {m m₁ : Machine A} {g : FrameRef} {o k : Handle}
    (hg : g < m.calls.frames.size) (hnew : ¬ m.Live o)
    (hcalls : m₁.calls = m.calls.change g (·.insert o)) (hheap : m₁.heap = m.heap.clear o)
    (hk : m.Live k) : m₁.Live k := by
  have hroots : ∀ r ∈ m.calls.roots, r ∈ m₁.calls.roots := by
    intro r hr
    obtain ⟨j, hj, f, hf, hheld⟩ := CallStacks.mem_roots_iff.1 hr
    rw [hcalls]
    refine CallStacks.mem_roots_iff.2 ⟨j, hj, f, hf, ?_⟩
    rw [CallStacks.frame_change hg]
    split
    · rename_i heq
      exact Frame.mem_handles_insert.2 (.inr (heq ▸ hheld))
    · exact hheld
  have hclear : (m.heap.clear o).Reaches m.calls.roots k := by
    refine (Heap.reaches_iff_of_words fun x hx => ?_).2 hk
    rw [Heap.words_clear, if_neg]
    rintro rfl
    exact hnew hx
  rw [Live, hheap]
  exact hclear.mono hroots

namespace Session

open Machine

variable [Allocator A] [LawfulCollector A] [Allocator B] [LawfulCollector B] {width : Nat}
  {s : Session A} {s' : Session B} {f : Handle → Handle} {t t' : Thread} {env env' : Env}
  {action : Action} {action' : Action}

/-- What an action on one stack and one on another come to: answers that tell the same, and stacks
that mirror each other under a renaming that keeps the names of what was live. -/
def Agree (f : Handle → Handle) (s : Session A) (s' : Session B) (j j' : StackRef) (t t' : Thread)
    (action : Action) (action' : Action) : Prop :=
  ∃ f', Action.Informs f' (fun h => (s.solo j).Live h ∨ ((s.after t action).solo j).Live h) action
      action' (s.reply t action) (s'.reply t' action') ∧
    ((s.after t action).solo j).Mirrors f' ((s'.after t' action').solo j') ∧
    Keeps f f' (s.solo j) ((s.after t action).solo j) ((s'.after t' action').solo j')

omit [LawfulCollector A] [LawfulCollector B] in
/-- Nothing has come to be live, and only what was live is told. -/
theorem Agree.of_kept {j j' : StackRef} (hmm : (s.solo j).Mirrors f (s'.solo j'))
    (hinforms : Action.Informs f (s.solo j).Live action action' (s.reply t action)
      (s'.reply t' action'))
    (hmirrors : ((s.after t action).solo j).Mirrors f ((s'.after t' action').solo j'))
    (hlive : ∀ k, ((s.after t action).solo j).Live k → (s.solo j).Live k) :
    Agree f s s' j j' t t' action action' :=
  ⟨f, ⟨hinforms.view, hinforms.told, fun k hk => .inl (hinforms.kind k hk), hinforms.failure⟩,
    hmirrors, hmm.keeps hmirrors hlive⟩

omit [LawfulCollector A] in
/-- A call that is refused adds no frame to the stack, and one that begins adds one. -/
theorem framesOn_beginCall (s : Session A) (t : Thread) (env : Env) (name : String)
    (args : List Word) :
    (∀ fault, s.machine.callable env args = .error fault →
      (s.after t (.beginCall env name args)).ledger.framesOn env.stack =
        s.ledger.framesOn env.stack) ∧
    ∀ objects, s.machine.callable env args = .ok objects →
      (s.after t (.beginCall env name args)).ledger.framesOn env.stack =
        s.ledger.framesOn env.stack ++ [s.machine.calls.frames.size] := by
  obtain ⟨text, heq⟩ := beginCall_eq s.machine t env name args
  have hrecord : (s.after t (.beginCall env name args)).ledger = s.ledger.record
    (.beginCall env name args) (s.machine.beginCall t env name args).1 := rfl
  rw [hrecord, heq]
  constructor
  · intro fault hcheck
    rw [hcheck]
    rfl
  · intro objects hcheck
    rw [hcheck]
    simp [Ledger.framesOn, Ledger.envsOn, Ledger.record]

/-- Two frames of mirrored stacks at the same place. -/
structure Peers (width : Nat) (f : Handle → Handle) (s : Session A) (s' : Session B)
    (env env' : Env) : Prop where
  left : s.Steady width
  right : s'.Steady width
  mirrors : (s.solo env.stack).Mirrors f (s'.solo env'.stack)
  known : env ∈ s.ledger.envsOn env.stack
  known' : env' ∈ s'.ledger.envsOn env'.stack
  place : env'.alone (s'.ledger.framesOn env'.stack) = env.alone (s.ledger.framesOn env.stack)

namespace Peers

/-- Frames that are named by one place. -/
theorem of_place {j j' : StackRef} {place : Nat} (hs : s.Steady width) (hs' : s'.Steady width)
    (hmm : (s.solo j).Mirrors f (s'.solo j')) (hown : (s.ledger.envsOn j)[place]? = some env)
    (hown' : (s'.ledger.envsOn j')[place]? = some env') :
    env.stack = j ∧ env'.stack = j' ∧ Peers width f s s' env env' := by
  have hknown := List.mem_of_getElem? hown
  have hknown' := List.mem_of_getElem? hown'
  obtain ⟨-, rfl⟩ := Ledger.mem_envsOn.1 hknown
  obtain ⟨-, rfl⟩ := Ledger.mem_envsOn.1 hknown'
  have hplace :=
    (Ledger.alone_eq hs'.envsAgree hown').trans (Ledger.alone_eq hs.envsAgree hown).symm
  exact ⟨rfl, rfl, hs, hs', hmm, hknown, hknown', hplace⟩

variable (h : Peers width f s s' env env')

include h

theorem regular : (s.solo env.stack).Regular := h.left.regular_solo

theorem mem_envs : env ∈ s.ledger.envs := (Ledger.mem_envsOn.1 h.known).1

theorem lists : s.calls.Lists env.stack (s.ledger.framesOn env.stack) :=
  Ledger.lists_framesOn h.left.envsAgree _

theorem lists' : s'.calls.Lists env'.stack (s'.ledger.framesOn env'.stack) :=
  Ledger.lists_framesOn h.right.envsAgree _

theorem mem_frames : env.frame ∈ s.ledger.framesOn env.stack := Ledger.mem_framesOn h.known

theorem mem_frames' : env'.frame ∈ s'.ledger.framesOn env'.stack := Ledger.mem_framesOn h.known'

theorem getReference {o o' : Handle} {slot : Nat} (ho : (s.solo env.stack).Matches f o o') :
    Agree f s s' env.stack env'.stack t t' (.getReference env o slot)
      (.getReference env' o' slot) := by
  have hr := Restricts.getReference h.lists h.mem_frames t o slot
  have hr' := Restricts.getReference h.lists' h.mem_frames' t' o' slot
  rw [h.place] at hr'
  have hlive := h.left.live_of_after_solo t (.getReference env o slot) h.mem_envs
    rfl SameArena.getReference.heap (reaches_gain_getReference h.left.envsAgree h.mem_envs)
  obtain ⟨hanswers, hmirrors⟩ := hr.agrees hr' ((s.solo env.stack).Matches f)
    (h.mirrors.getReference h.regular ho fun k hk => hlive k (hr.live_iff.1 hk)) fun _ _ hh => hh
  exact .of_kept h.mirrors (h.mirrors.informs_handle h.regular hanswers) hmirrors hlive

theorem getData {o o' : Handle} {slot : Nat} (ho : (s.solo env.stack).Matches f o o') :
    Agree f s s' env.stack env'.stack t t' (.getData env o slot) (.getData env' o' slot) := by
  have hr := Restricts.getData (m := s.machine) h.mem_frames t o slot
  have hr' := Restricts.getData (m := s'.machine) h.mem_frames' t' o' slot
  rw [h.place] at hr'
  obtain ⟨hanswers, hmirrors⟩ := hr.agrees hr' (fun word word' => word' = word ∧ word < 0)
    (h.mirrors.getData h.regular ho) fun _ _ hh => hh
  have hlive := h.left.live_of_after_solo t (.getData env o slot) h.mem_envs rfl
    SameArena.getData.heap fun _ => (nomatch ·)
  exact .of_kept h.mirrors (Action.informs_data hanswers) hmirrors hlive

theorem setReference {o o' target target' : Handle} {slot : Nat}
    (ho : (s.solo env.stack).Matches f o o')
    (htarget : (s.solo env.stack).Matches f target target') :
    Agree f s s' env.stack env'.stack t t' (.setReference env o slot target)
      (.setReference env' o' slot target') := by
  have hr := Restricts.setReference (m := s.machine) h.mem_frames t o slot target
  have hr' := Restricts.setReference (m := s'.machine) h.mem_frames' t' o' slot target'
  rw [h.place] at hr'
  obtain ⟨hanswers, hmirrors⟩ := hr.agrees hr' Eq (h.mirrors.setReference h.regular ho htarget)
    fun _ _ hh => hh
  exact .of_kept h.mirrors ((Action.informs_done hanswers).1 _ _ _ _ _) hmirrors
    fun _ hk => h.regular.live_of_setReference (hr.live_iff.2 hk)

theorem setData {o o' : Handle} {slot : Nat} {word : Word}
    (ho : (s.solo env.stack).Matches f o o') :
    Agree f s s' env.stack env'.stack t t' (.setData env o slot word)
      (.setData env' o' slot word) := by
  have hr := Restricts.setData (m := s.machine) h.mem_frames t o slot word
  have hr' := Restricts.setData (m := s'.machine) h.mem_frames' t' o' slot word
  rw [h.place] at hr'
  obtain ⟨hanswers, hmirrors⟩ := hr.agrees hr' Eq (h.mirrors.setData h.regular ho) fun _ _ hh => hh
  exact .of_kept h.mirrors ((Action.informs_done hanswers).2.1 _ _ _ _) hmirrors
    fun _ hk => live_of_setData (hr.live_iff.2 hk)

theorem release {o o' : Handle} (ho : (s.solo env.stack).Matches f o o') :
    Agree f s s' env.stack env'.stack t t' (.release env o) (.release env' o') := by
  have hr := Restricts.release h.lists h.mem_frames t o
  have hr' := Restricts.release h.lists' h.mem_frames' t' o'
  rw [h.place] at hr'
  have hlive := h.left.live_of_after_solo t (.release env o) h.mem_envs rfl SameArena.release.heap
    fun _ => (nomatch ·)
  obtain ⟨hanswers, hmirrors⟩ := hr.agrees hr' Eq
    (h.mirrors.release h.regular ho fun k hk => hlive k (hr.live_iff.1 hk)) fun _ _ hh => hh
  exact .of_kept h.mirrors ((Action.informs_done hanswers).2.2 _ _) hmirrors hlive

theorem beginCall {name : String} {args args' : List Word}
    (hargs : List.Forall₂ ((s.solo env.stack).Carries f) args args') :
    Agree f s s' env.stack env'.stack t t' (.beginCall env name args)
      (.beginCall env' name args') := by
  obtain ⟨hrefused, hbegun⟩ := framesOn_beginCall s t env name args
  obtain ⟨hrefused', hbegun'⟩ := framesOn_beginCall s' t' env' name args'
  have hr := Restricts.beginCall h.lists h.mem_frames (h.left.envsAgree.known env h.mem_envs) t name
    args hrefused hbegun
  have hr' := Restricts.beginCall h.lists' h.mem_frames'
    (h.right.envsAgree.known env' (Ledger.mem_envsOn.1 h.known').1) t' name args' hrefused' hbegun'
  rw [h.place] at hr'
  have hlive := h.left.live_of_after_solo t (.beginCall env name args) h.mem_envs rfl
    SameArena.beginCall.heap fun _ => (nomatch ·)
  obtain ⟨hanswers, hmirrors⟩ := hr.agrees hr' (fun _ _ => True)
    (h.mirrors.beginCall h.regular hargs fun k hk => hlive k (hr.live_iff.1 hk))
    fun _ _ _ => trivial
  exact .of_kept h.mirrors (Action.informs_call hanswers) hmirrors hlive

theorem endCall {callee callee' : Env} {outcome outcome' : Answer Word}
    (hpending : (env, callee) ∈ s.ledger.calls) (hcallee : callee ∈ s.ledger.envsOn env.stack)
    (hcallee' : callee' ∈ s'.ledger.envsOn env'.stack)
    (hplace : callee'.alone (s'.ledger.framesOn env'.stack) =
      callee.alone (s.ledger.framesOn env.stack))
    (houtcome : outcome.Alike ((s.solo env.stack).Carries f) outcome') :
    Agree f s s' env.stack env'.stack t t' (.endCall env callee outcome)
      (.endCall env' callee' outcome') := by
  have hr := Restricts.endCall h.lists h.mem_frames (Ledger.mem_framesOn hcallee)
    (Ledger.mem_envsOn.1 hcallee).2 t outcome
  have hr' := Restricts.endCall h.lists' h.mem_frames' (Ledger.mem_framesOn hcallee')
    (Ledger.mem_envsOn.1 hcallee').2 t' outcome'
  rw [h.place, hplace] at hr'
  have hlive := h.left.live_of_after_solo t (.endCall env callee outcome) hpending rfl
    SameArena.endCall.heap fun _ => (nomatch ·)
  have hstack : (Action.endCall env callee outcome).stack s.calls = env.stack :=
    (Ledger.mem_envsOn.1 hcallee).2
  rw [hstack] at hlive
  obtain ⟨hanswers, hmirrors⟩ := hr.agrees hr' ((s.solo env.stack).Carries f)
    (h.mirrors.endCall h.regular houtcome fun k hk => hlive k (hr.live_iff.1 hk))
    fun _ _ hh => hh
  exact .of_kept h.mirrors (h.mirrors.informs_word hanswers) hmirrors hlive

/-- The records of the two frames. -/
theorem frame_eq : s'.machine.frame env' = (s.machine.frame env).image f := by
  have hsolo := h.mirrors.frame_eq (env.alone (s.ledger.framesOn env.stack))
  rw [solo, solo, frame_solo h.mem_frames, ← h.place, frame_solo h.mem_frames'] at hsolo
  exact hsolo

theorem look : Agree f s s' env.stack env'.stack t t' (.frame env) (.frame env') := by
  have hreply : s'.reply t' (.frame env') = (s.reply t (.frame env)).image f := h.frame_eq
  refine .of_kept h.mirrors ⟨?_, ?_, fun k hk => ?_, rfl⟩ h.mirrors fun _ hk => hk
  · rw [hreply]
    simp [View.ofReply]
  · rw [hreply]
    simp [Action.told]
  · have hheld : k ∈
        ((s.solo env.stack).frame (env.alone (s.ledger.framesOn env.stack))).handles := by
      rw [solo, frame_solo h.mem_frames]
      exact hk
    exact h.regular.live_of_held hheld

/-- Both frames are given new objects, if there is memory for both. -/
theorem newObject (hroom : View.ofReply (.newObject env) (s.reply t (.newObject env)) ≠
      .created (.failed .outOfMemory))
    (hroom' : View.ofReply (.newObject env') (s'.reply t' (.newObject env')) ≠
      .created (.failed .outOfMemory)) :
    Agree f s s' env.stack env'.stack t t' (.newObject env) (.newObject env') := by
  have hstate : (s'.machine.frame env').state = (s.machine.frame env).state := by
    rw [h.frame_eq, Frame.state_image]
  have hcreation := h.left.newObject t env
  have hcreation' := h.right.newObject t' env'
  have hafter : (s.after t (.newObject env)).solo env.stack =
    (s.machine.newObject t env).2.solo env.stack (s.ledger.framesOn env.stack) := rfl
  have hafter' : (s'.after t' (.newObject env')).solo env'.stack =
    (s'.machine.newObject t' env').2.solo env'.stack (s'.ledger.framesOn env'.stack) := rfl
  have hreply : s.reply t (.newObject env) = (s.machine.newObject t env).1 := rfl
  have hreply' : s'.reply t' (.newObject env') = (s'.machine.newObject t' env').1 := rfl
  have hsteady : (s.after t (.newObject env)).Steady width := h.left.after h.mem_envs rfl
  have hregular : ((s.after t (.newObject env)).solo env.stack).Regular := hsteady.regular_solo
  unfold Agree
  rw [hafter] at hregular
  rw [hafter, hafter', hreply, hreply']
  rw [hreply] at hroom
  rw [hreply'] at hroom'
  generalize s.machine.newObject t env = created at hcreation hroom hregular ⊢
  generalize s'.machine.newObject t' env' = created' at hcreation' hroom' ⊢
  cases hcreation with
  | exhausted active calls config heap ready => exact absurd rfl hroom
  | refused inactive =>
    cases hcreation' with
    | refused inactive' =>
      exact ⟨f, ⟨rfl, rfl, fun _ => (nomatch ·), rfl⟩, h.mirrors, h.mirrors.keeps h.mirrors
        fun _ hk => hk⟩
    | exhausted active' calls' config' heap' ready' => exact absurd rfl hroom'
    | made active' cell' unreached' calls' config' heap' ready' =>
      exact absurd (hstate.symm.trans active') inactive
  | @made o m active cell unreached calls config heap ready =>
    cases hcreation' with
    | refused inactive' => exact absurd (hstate.trans active) inactive'
    | exhausted active' calls' config' heap' ready' => exact absurd rfl hroom'
    | @made o' m' active' cell' unreached' calls' config' heap' ready' =>
      have h0 : o ≠ Handle.null := (Heap.contains_iff.1 cell).1
      have h0' : o' ≠ Handle.null := (Heap.contains_iff.1 cell').1
      -- out of reach of all stacks, so of this one
      have hnew : ¬ (s.solo env.stack).Live o := fun hlive =>
        unreached (h.left.reaches_of_stack ((live_solo h.left.envsAgree).1 hlive))
      have hnew' : ¬ (s'.solo env'.stack).Live o' := fun hlive =>
        unreached' (h.right.reaches_of_stack ((live_solo h.right.envsAgree).1 hlive))
      have hactive : (env.alone (s.ledger.framesOn env.stack)).frame <
          (s.solo env.stack).calls.frames.size := by
        rw [solo, calls_solo, CallStacks.size_solo]
        exact List.idxOf_lt_length_of_mem h.mem_frames
      have hcalls : (m.solo env.stack (s.ledger.framesOn env.stack)).calls =
          (s.solo env.stack).calls.change (env.alone (s.ledger.framesOn env.stack)).frame
            (·.insert o) := by
        rw [calls_solo, calls]
        exact CallStacks.solo_change h.lists h.mem_frames
      refine ⟨Function.update f o o', ⟨?_, ?_, fun k hk => ?_, rfl⟩, ?_,
        fun k hk => Mirrors.update_eq hnew hk,
        fun k hk _ => live_of_made hactive hnew hcalls heap hk⟩
      · show View.created (Gist.ofHandle o') = View.created (Gist.ofHandle o)
        rw [Gist.ofHandle, Gist.ofHandle, if_neg h0, if_neg h0']
      · simp [Action.told, h0, h0']
      · -- the frame holds what it was given
        have hk : k ∈ if o = Handle.null then [] else [o] := hk
        rw [if_neg h0] at hk
        obtain rfl := List.mem_singleton.1 hk
        refine .inr (hregular.live_of_held
          (g := (env.alone (s.ledger.framesOn env.stack)).frame) ?_)
        rw [hcalls, CallStacks.frame_change hactive, if_pos rfl]
        exact Frame.mem_handles_insert.2 (.inl rfl)
      · refine h.mirrors.made h.regular hactive hnew hnew' cell'
          ((h.right.wide o' cell').trans (h.left.wide o cell).symm) hcalls ?_ heap heap' config
          config'
        rw [calls_solo, calls', ← h.place]
        exact CallStacks.solo_change h.lists' h.mem_frames'

/-- A demand that names what lasts comes to the same on both sides, if there is memory for both. -/
theorem agree {demand : Demand} {tokens tokens' : List Token} {faults faults' : List Fault}
    (htokens : List.Forall₂ (Token.Match f (s.solo env.stack)) tokens tokens')
    (hfaults : faults'.map Fault.variant = faults.map Fault.variant)
    (hmeant : demand.action (s.ledger.envsOn env.stack) tokens faults env = some action)
    (hmeant' : demand.action (s'.ledger.envsOn env'.stack) tokens' faults' env' = some action')
    (hpermits : s.ledger.permits action) (hlasts : demand.lasts tokens = true)
    (hroom : View.ofReply action (s.reply t action) ≠ .created (.failed .outOfMemory))
    (hroom' : View.ofReply action' (s'.reply t' action') ≠ .created (.failed .outOfMemory)) :
    Agree f s s' env.stack env'.stack t t' action action' := by
  cases demand with
  | endCall place fate =>
    obtain ⟨callee, hplace, rfl⟩ := Option.map_eq_some_iff.1 hmeant
    obtain ⟨callee', hplace', rfl⟩ := Option.map_eq_some_iff.1 hmeant'
    have halone := (Ledger.alone_eq h.right.envsAgree hplace').trans
      (Ledger.alone_eq h.left.envsAgree hplace).symm
    exact h.endCall hpermits (List.mem_of_getElem? hplace) (List.mem_of_getElem? hplace') halone
      (Fate.alike_answer h.regular htokens hfaults hlasts)
  | newObject =>
    obtain rfl := Option.some.inj hmeant
    obtain rfl := Option.some.inj hmeant'
    exact h.newObject hroom hroom'
  | getReference object slot =>
    obtain rfl := Option.some.inj hmeant
    obtain rfl := Option.some.inj hmeant'
    exact h.getReference (Item.matches_handle htokens hlasts)
  | getData object slot =>
    obtain rfl := Option.some.inj hmeant
    obtain rfl := Option.some.inj hmeant'
    exact h.getData (Item.matches_handle htokens hlasts)
  | setReference object slot target =>
    obtain rfl := Option.some.inj hmeant
    obtain rfl := Option.some.inj hmeant'
    obtain ⟨hobject, htarget⟩ := Bool.and_eq_true_iff.1 hlasts
    exact h.setReference (Item.matches_handle htokens hobject)
      (Item.matches_handle htokens htarget)
  | setData object slot word =>
    obtain rfl := Option.some.inj hmeant
    obtain rfl := Option.some.inj hmeant'
    exact h.setData (Item.matches_handle htokens hlasts)
  | release object =>
    obtain rfl := Option.some.inj hmeant
    obtain rfl := Option.some.inj hmeant'
    exact h.release (Item.matches_handle htokens hlasts)
  | beginCall name args =>
    obtain rfl := Option.some.inj hmeant
    obtain rfl := Option.some.inj hmeant'
    exact h.beginCall (ItemWord.carries_args h.regular htokens hlasts)
  | look =>
    obtain rfl := Option.some.inj hmeant
    obtain rfl := Option.some.inj hmeant'
    exact h.look

end Peers

end Session

end RootedHeap
