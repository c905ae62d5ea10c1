import RootedHeap.Proofs.Mirrors

/-!
Operations on machines that mirror each other come to the same: their answers came out alike, and
the machines mirror each other afterwards. The renaming stays, for none of the operations here makes
an object. That an operation brings nothing in reach that was not is left to whoever uses it, since
it depends on how the tables came about.
-/

namespace RootedHeap.Machine

variable {A B : Type} {f : Handle → Handle} {m : Machine A} {m' : Machine B}

/-- Two operations that come to the same under a renaming. -/
structure Agrees {α α' : Type} (f : Handle → Handle) (r : α → α' → Prop)
    (done : Answer α × Machine A) (done' : Answer α' × Machine B) : Prop where
  answers : done.1.Alike r done'.1
  mirrors : done.2.Mirrors f done'.2

namespace Mirrors

variable {t t' : Thread} {env callee : Env} {o o' h h' : Handle} {slot : Nat}

/-- Operations come to the same if their checks come out alike, and what they do when accepted comes
to the same. -/
theorem decided {α α' γ γ' : Type} {q : α → α' → Prop} {r : γ → γ' → Prop} {check : Answer γ}
    {check' : Answer γ'} {answer : γ → α} {answer' : γ' → α'} {effect : γ → Machine A}
    {effect' : γ' → Machine B} (hmm : m.Mirrors f m') (hcheck : check.Alike r check')
    (hok : ∀ c c', check = .ok c → check' = .ok c' → r c c' →
      q (answer c) (answer' c') ∧ (effect c).Mirrors f (effect' c')) :
    Agrees f q (m.decided check answer effect) (m'.decided check' answer' effect') := by
  cases hcheck with
  | ok related =>
    obtain ⟨hanswer, hafter⟩ := hok _ _ rfl rfl related
    exact ⟨.ok hanswer, hafter⟩
  | error variant => exact ⟨.error variant, hmm⟩

theorem getReference (hmm : m.Mirrors f m') (hm : m.Regular) (ho : m.Matches f o o')
    (hlive : ∀ k, (m.getReference t env o slot).2.Live k → m.Live k) :
    Agrees f (m.Matches f) (m.getReference t env o slot) (m'.getReference t' env o' slot) := by
  rw [getReference_eq] at hlive ⊢
  rw [getReference_eq]
  refine hmm.decided (hmm.referenceAt hm ho) fun h h' hok _ hh => ⟨hh, ?_⟩
  rw [hok, decided_ok] at hlive
  rcases hh with ⟨rfl, rfl⟩ | ⟨hh, rfl⟩
  · exact hmm
  · have h0 := (hm.le_greatest hh).1
    rw [if_neg h0] at hlive ⊢
    rw [if_neg (hmm.image_le_greatest hh).1]
    exact hmm.keep hlive (hmm.calls_insert hm hh) rfl rfl rfl rfl

theorem getData (hmm : m.Mirrors f m') (hm : m.Regular) (ho : m.Matches f o o') :
    Agrees f (fun word word' => word' = word ∧ word < 0) (m.getData t env o slot)
      (m'.getData t' env o' slot) := by
  rw [getData_eq, getData_eq]
  exact hmm.decided (hmm.dataAt hm ho) fun word word' _ _ hword => ⟨hword, hmm⟩

theorem setReference (hmm : m.Mirrors f m') (hm : m.Regular) (ho : m.Matches f o o')
    (hh : m.Matches f h h') :
    Agrees f Eq (m.setReference t env o slot h) (m'.setReference t' env o' slot h') := by
  rw [setReference_eq, setReference_eq]
  refine hmm.decided (hmm.storableReference hm ho hh) fun word word' hok _ hword => ⟨rfl, ?_⟩
  obtain ⟨-, hheld, -⟩ := of_storableReference_eq_ok hok
  rw [eq_image_of_mem hm ho hheld]
  exact hmm.putWord (hm.live_of_held hheld) hword

theorem setData (hmm : m.Mirrors f m') (hm : m.Regular) (ho : m.Matches f o o') {word : Word} :
    Agrees f Eq (m.setData t env o slot word) (m'.setData t' env o' slot word) := by
  rw [setData_eq, setData_eq]
  refine hmm.decided (hmm.storableData hm ho) fun w w' hok _ hword => ⟨rfl, ?_⟩
  obtain ⟨-, hheld, -⟩ := of_storableData_eq_ok hok
  rw [eq_image_of_mem hm ho hheld]
  exact hmm.putWord (hm.live_of_held hheld) hword

theorem release (hmm : m.Mirrors f m') (hm : m.Regular) (ho : m.Matches f o o')
    (hlive : ∀ k, (m.release t env o).2.Live k → m.Live k) :
    Agrees f Eq (m.release t env o) (m'.release t' env o') := by
  rw [release_eq] at hlive ⊢
  rw [release_eq]
  refine hmm.decided (hmm.releasable hm ho) fun _ _ hok _ _ => ⟨rfl, ?_⟩
  obtain ⟨-, hheld⟩ := releasable_eq_ok.1 hok
  rw [hok, decided_ok] at hlive
  rw [eq_image_of_mem hm ho hheld]
  exact hmm.keep hlive (hmm.calls_remove hm (hm.live_of_held hheld)) rfl rfl rfl rfl

theorem beginCall (hmm : m.Mirrors f m') (hm : m.Regular) {name : String} {args args' : List Word}
    (hargs : List.Forall₂ (m.Carries f) args args')
    (hlive : ∀ k, (m.beginCall t env name args).2.Live k → m.Live k) :
    Agrees f Eq (m.beginCall t env name args) (m'.beginCall t' env name args') := by
  obtain ⟨text, heq⟩ := beginCall_eq m t env name args
  obtain ⟨text', heq'⟩ := beginCall_eq m' t' env name args'
  rw [heq] at hlive ⊢
  rw [heq']
  refine hmm.decided (hmm.callable hm hargs) fun objects objects' hok _ hobjects => ?_
  obtain ⟨rfl, hobjects⟩ := hobjects
  rw [hok, decided_ok] at hlive
  refine ⟨?_, hmm.keep hlive ?_ heap_traced heap_traced config_traced config_traced⟩
  · rw [hmm.calls, CallStacks.size_image]
  · rw [calls_traced, calls_traced, CallStacks.image_opened hmm.apart hobjects, hmm.calls]

theorem endCall (hmm : m.Mirrors f m') (hm : m.Regular) {outcome outcome' : Answer Word}
    (houtcome : outcome.Alike (m.Carries f) outcome')
    (hlive : ∀ k, (m.endCall t env callee outcome).2.Live k → m.Live k) :
    Agrees f (m.Carries f) (m.endCall t env callee outcome)
      (m'.endCall t' env callee outcome') := by
  obtain ⟨text, heq⟩ := endCall_eq m t env callee outcome
  obtain ⟨text', heq'⟩ := endCall_eq m' t' env callee outcome'
  rw [heq] at hlive ⊢
  rw [heq']
  have hresult : (m.checkResult callee outcome).Alike (m.Carries f)
      (m'.checkResult callee outcome') := hmm.checkResult hm houtcome
  refine ⟨hresult, hmm.keep hlive ?_ heap_traced heap_traced config_traced config_traced⟩
  rw [calls_traced, calls_traced, CallStacks.image_pop, hmm.calls]
  generalize m.checkResult callee outcome = result at hresult ⊢
  generalize m'.checkResult callee outcome' = result' at hresult ⊢
  cases hresult with
  | error variant => rfl
  | ok hword =>
    rw [CallStacks.image_settled hmm.apart (fun _ => hm.live_of_held) (hmm.target?_eq hword)
      hword.2]

theorem abandonCall (hmm : m.Mirrors f m')
    (hlive : ∀ k, (m.abandonCall callee).Live k → m.Live k) :
    (m.abandonCall callee).Mirrors f (m'.abandonCall callee) := by
  refine hmm.keep hlive ?_ rfl rfl rfl rfl
  exact (congrArg (·.pop callee.stack callee.frame) hmm.calls).trans CallStacks.image_pop.symm

theorem beginRun (hmm : m.Mirrors f m') {name : String} {args args' : List Word}
    (hargs : List.Forall₂ (m.Carries f) args args')
    (hlive : ∀ k, (m.beginRun t name args).2.Live k → m.Live k) :
    Agrees f Eq (m.beginRun t name args) (m'.beginRun t' name args') := by
  have hfind := hmm.findSome?_target?_eq hargs
  cases hfirst : args.findSome? Word.target? with
  | some h =>
    rw [hfirst] at hfind
    rw [beginRun_refused hfirst, beginRun_refused hfind]
    exact ⟨.error rfl, hmm⟩
  | none =>
    rw [hfirst] at hfind
    obtain ⟨text, heq⟩ := beginRun_eq m t name hfirst
    obtain ⟨text', heq'⟩ := beginRun_eq m' t' name hfind
    rw [heq] at hlive ⊢
    rw [heq']
    refine ⟨.ok ?_, hmm.keep hlive ?_ rfl rfl rfl rfl⟩
    · rw [hmm.calls, CallStacks.size_image]
      rfl
    · have hopened : (m.calls.register.2.opened m.calls.known.size []).image f =
          (m.calls.register.2.image f).opened m.calls.known.size [] :=
        CallStacks.image_opened hmm.apart fun k hk => nomatch hk
      rw [calls_note, calls_note, hmm.calls]
      exact hopened.symm

theorem endRun (hmm : m.Mirrors f m') (hm : m.Regular) {outcome outcome' : Answer Word}
    (houtcome : outcome.Alike (m.Carries f) outcome')
    (hlive : ∀ k, (m.endRun t env outcome).2.Live k → m.Live k) :
    Agrees f (m.Carries f) (m.endRun t env outcome) (m'.endRun t' env outcome') := by
  obtain ⟨text, heq⟩ := endRun_eq m t env outcome
  obtain ⟨text', heq'⟩ := endRun_eq m' t' env outcome'
  rw [heq] at hlive ⊢
  rw [heq']
  refine ⟨hmm.checkResult hm houtcome, hmm.keep hlive ?_ rfl rfl rfl rfl⟩
  rw [calls_note, calls_note, CallStacks.image_unregister, CallStacks.image_pop, hmm.calls,
    CallStacks.stack_image]

end Mirrors

/-! Stores bring nothing in reach, for what they store is held. -/

section Stores

variable {t : Thread} {env : Env} {o h k : Handle} {slot : Nat}

theorem Regular.live_of_setReference (hm : m.Regular)
    (hk : (m.setReference t env o slot h).2.Live k) : m.Live k := by
  rw [setReference_eq] at hk
  cases hcheck : m.storableReference env o slot h with
  | error fault =>
    rw [hcheck] at hk
    exact hk
  | ok word =>
    obtain ⟨-, -, htarget, hle, rfl⟩ := of_storableReference_eq_ok hcheck
    rw [hcheck] at hk
    refine Heap.Reaches.of_putWord (fun r hr => .root hr) (fun l hl => ?_) hk
    rw [Handle.target?_toWord hle] at hl
    split at hl
    · cases hl
    · rename_i h0
      obtain rfl := Option.some.inj hl
      exact hm.live_of_held (htarget h0)

theorem live_of_setData {word : Word} (hk : (m.setData t env o slot word).2.Live k) :
    m.Live k := by
  rw [setData_eq] at hk
  cases hcheck : m.storableData env o slot word with
  | error fault =>
    rw [hcheck] at hk
    exact hk
  | ok w =>
    obtain ⟨-, -, hneg, rfl⟩ := of_storableData_eq_ok hcheck
    rw [hcheck] at hk
    refine Heap.Reaches.of_putWord (fun r hr => .root hr) (fun l hl => ?_) hk
    rw [Word.target?_of_neg hneg] at hl
    cases hl

end Stores

end RootedHeap.Machine
