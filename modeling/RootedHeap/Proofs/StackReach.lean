import Mathlib.Data.Set.Lattice
import Mathlib.Order.CompletePartialOrder
import RootedHeap.Proofs.Safety

/-!
What a stack reaches is its own. Nothing in the state says to which stack a cell belongs; that two
stacks never reach the same cell follows from what single steps do. A step works on one stack. It
leaves the frames of all others alone, writes only to cells that its own stack reaches, and adds to
the reach of its stack nothing but a cell that no stack reached before.

`TablesStep` says this of the tables and `HeapStep` of tables and cells together. Stacks that are
apart stay apart through such a step, and what another stack reaches stays as it was, word for word.
-/

namespace RootedHeap

/-! ### Steps on one stack -/

/-- What tables may differ in after a step on one stack: its own frames and what these hold,
with new objects from `gain` only. -/
structure TablesStep (envs : List Env) (j : StackRef) (gain : List Handle) (t t' : CallStacks) :
    Prop where
  stack : ∀ k, k ≠ j → t'.stack k = t.stack k
  frame : ∀ env ∈ envs, env.stack ≠ j → t'.frame env.frame = t.frame env.frame
  roots : ∀ r ∈ t'.stackRoots j, r ∈ gain ∨ r ∈ t.stackRoots j

/-- Whether callers stand below their callees for as long as these are on a stack. -/
def Ledger.Nested (l : Ledger) (t : CallStacks) : Prop :=
  ∀ caller callee, (caller, callee) ∈ l.calls →
    callee ∈ l.envs ∧ caller.stack = callee.stack ∧ caller.frame < callee.frame ∧
      (callee.frame ∈ (t.stack callee.stack).frames →
        caller.frame ∈ (t.stack callee.stack).frames)

theorem CallStacks.mem_stackRoots_iff {t : CallStacks} {k : StackRef} {r : Handle} :
    r ∈ t.stackRoots k ↔ ∃ f ∈ (t.stack k).frames, r ∈ (t.frame f).handles :=
  List.mem_flatMap

namespace EnvsAgree

variable {envs : List Env} {env : Env} {t : CallStacks} {k : StackRef}

/-- A frame stands on no stack but that of its environment. -/
theorem stack_of_mem (ht : EnvsAgree envs t) (henv : env ∈ envs)
    (hmem : env.frame ∈ (t.stack k).frames) : env.stack = k := by
  have hsame : env = ⟨k, env.frame⟩ := ht.env_eq henv (ht.listed k _ hmem).1 rfl
  exact congrArg Env.stack hsame

end EnvsAgree

namespace TablesStep

variable {envs : List Env} {env : Env} {t t' t'' : CallStacks} {gain : List Handle} {h r : Handle}
  {j k s : StackRef} {f : FrameRef}

theorem refl : TablesStep envs j gain t t := ⟨fun _ _ => rfl, fun _ _ _ => rfl, fun _ => .inr⟩

theorem trans (hd : TablesStep envs j gain t t') (hd' : TablesStep envs j [] t' t'') :
    TablesStep envs j gain t t'' where
  stack k hk := (hd'.stack k hk).trans (hd.stack k hk)
  frame env henv hk := (hd'.frame env henv hk).trans (hd.frame env henv hk)
  roots r hr := hd.roots r ((hd'.roots r hr).resolve_left (nomatch ·))

/-- The roots of another stack are what they were. -/
theorem stackRoots_eq (hd : TablesStep envs j gain t t') (h : EnvsAgree envs t) (hk : k ≠ j) :
    t'.stackRoots k = t.stackRoots k := by
  unfold CallStacks.stackRoots
  rw [hd.stack k hk]
  exact List.flatMap_congr fun f hf =>
    congrArg Frame.handles (hd.frame ⟨k, f⟩ (h.listed k f hf).1 hk)

/-- A frame is edited. -/
theorem change (h : EnvsAgree envs t) (henv : env ∈ envs) {edit : Frame → Frame}
    (hedit : ∀ r ∈ (edit (t.frame env.frame)).handles,
      r ∈ gain ∨ r ∈ (t.frame env.frame).handles) :
    TablesStep envs env.stack gain t (t.change env.frame edit) := by
  have hframe : ∀ g, (t.change env.frame edit).frame g =
      if env.frame = g then edit (t.frame g) else t.frame g :=
    fun g => CallStacks.frame_change (h.lt_size henv)
  refine ⟨fun _ _ => rfl, fun e he hk => ?_, fun r hr => ?_⟩
  · rw [hframe, if_neg fun heq => hk (congrArg Env.stack (h.env_eq he henv heq.symm))]
  · obtain ⟨f, hf, hmem⟩ := CallStacks.mem_stackRoots_iff.1 hr
    rw [hframe] at hmem
    split at hmem
    · rename_i heq
      subst heq
      exact (hedit r hmem).imp_right fun hold => CallStacks.mem_stackRoots_iff.2 ⟨_, hf, hold⟩
    · exact .inr (CallStacks.mem_stackRoots_iff.2 ⟨f, hf, hmem⟩)

theorem hold (h : EnvsAgree envs t) (henv : env ∈ envs) {o : Handle} :
    TablesStep envs env.stack [o] t (t.change env.frame (·.insert o)) :=
  change h henv fun _ hr => (Frame.mem_handles_insert.1 hr).imp_left List.mem_singleton.2

theorem release (h : EnvsAgree envs t) (henv : env ∈ envs) {o : Handle} :
    TablesStep envs env.stack [] t (t.change env.frame (·.remove o)) :=
  change h henv fun _ hr => .inr (Frame.mem_of_mem_handles_remove hr)

/-- A frame is opened with objects that its stack holds. -/
theorem opened (h : EnvsAgree envs t) {objects : List Handle}
    (hobjects : ∀ o ∈ objects, o ∈ t.stackRoots s) :
    TablesStep envs s [] t (t.opened s objects) := by
  refine ⟨fun k hk => ?_, fun e he _ => ?_, fun r hr => ?_⟩
  · rw [CallStacks.stack_opened, if_neg fun hh => hk hh.1.symm]
  · rw [CallStacks.frame_opened, if_neg (Nat.ne_of_lt (h.lt_size he))]
  · obtain ⟨f, hf, hmem⟩ := CallStacks.mem_stackRoots_iff.1 hr
    rw [CallStacks.frame_opened] at hmem
    split at hmem
    · rcases Frame.mem_handles_foldl_insert.1 hmem with hhanded | hnone
      · exact .inr (hobjects r hhanded)
      · cases hnone
    · rename_i hne
      rw [CallStacks.stack_opened] at hf
      split at hf
      · rcases List.mem_append.1 hf with hf | hf
        · exact .inr (CallStacks.mem_stackRoots_iff.2 ⟨f, hf, hmem⟩)
        · exact absurd (List.mem_singleton.1 hf) hne
      · exact .inr (CallStacks.mem_stackRoots_iff.2 ⟨f, hf, hmem⟩)

/-- A frame leaves its stack, whose frames were given out on no other. -/
theorem pop (henvsAgree : ∀ e ∈ envs, e.frame ∈ (t.stack s).frames → e.stack = s) :
    TablesStep envs s [] t (t.pop s f) := by
  refine ⟨fun k hk => ?_, fun e he hk => ?_, fun r hr => ?_⟩
  · rw [CallStacks.stack_pop, if_neg (Ne.symm hk)]
  · rw [CallStacks.frame_pop, if_neg]
    exact fun hmem => hk (henvsAgree e he ((List.dropWhile_sublist _).subset hmem))
  · obtain ⟨g, hg, hmem⟩ := CallStacks.mem_stackRoots_iff.1 hr
    rw [CallStacks.stack_pop, if_pos rfl] at hg
    rw [CallStacks.frame_pop] at hmem
    split at hmem
    · cases hmem
    · exact .inr (CallStacks.mem_stackRoots_iff.2
        ⟨g, (List.takeWhile_sublist _).subset hg, hmem⟩)

theorem register : TablesStep envs t.known.size [] t t.register.2 := by
  refine ⟨fun k hk => ?_, fun _ _ _ => rfl, fun r hr => ?_⟩
  · rw [CallStacks.stack_register, if_neg hk]
  · obtain ⟨f, hf, -⟩ := CallStacks.mem_stackRoots_iff.1 hr
    rw [CallStacks.stack_register, if_pos rfl] at hf
    cases hf

theorem unregister {id : Nat} : TablesStep envs j [] t (t.unregister id) :=
  ⟨fun _ _ => rfl, fun _ _ _ => rfl, fun _ => .inr⟩

/-- The result of a call is known: what it returns goes from the callee's frame to the caller's, on
one stack. -/
theorem settled {l : Ledger} (h : EnvsAgree l.envs t) (hnested : l.Nested t) {caller callee : Env}
    {result : Answer Word} (hpending : (caller, callee) ∈ l.calls)
    (hreturned : ∀ word o, result = .ok word → word.target? = some o →
      o ∈ (t.frame callee.frame).handles) :
    TablesStep l.envs callee.stack [] t (t.settled caller.frame callee.frame result) := by
  obtain ⟨hcallee, -, hlt, hbelow⟩ := hnested caller callee hpending
  have hsize := h.lt_size hcallee
  rcases result with fault | word
  · exact refl
  have hframe : ∀ g, (t.settled caller.frame callee.frame (.ok word)).frame g = _ := fun g =>
    CallStacks.frame_settled (Nat.lt_trans hlt hsize) hsize (Nat.ne_of_lt hlt)
  -- what is returned shows that the callee is on its stack, and the caller below it
  have henvsAgree : ∀ {o : Handle}, word.target? = some o →
      o ∈ t.stackRoots callee.stack ∧ caller.frame ∈ (t.stack callee.stack).frames := by
    intro o htarget
    have ho := hreturned word o rfl htarget
    have hon := h.onStack callee hcallee (h.active_of_held ho)
    exact ⟨CallStacks.mem_stackRoots_iff.2 ⟨_, hon, ho⟩, hbelow hon⟩
  refine ⟨fun k _ => CallStacks.stack_settled, fun e he hk => ?_, fun r hr => .inr ?_⟩
  · rw [hframe, if_neg fun heq => hk (congrArg Env.stack (h.env_eq he hcallee heq))]
    split
    · rename_i hcaller
      cases htarget : word.target? with
      | none => rfl
      | some o =>
        exact absurd (h.stack_of_mem he (hcaller ▸ (henvsAgree htarget).2)) hk
    · rfl
  · obtain ⟨f, hf, hmem⟩ := CallStacks.mem_stackRoots_iff.1 hr
    rw [CallStacks.stack_settled] at hf
    have hold : r ∈ (t.frame f).handles → r ∈ t.stackRoots callee.stack := fun hr =>
      CallStacks.mem_stackRoots_iff.2 ⟨f, hf, hr⟩
    rw [hframe] at hmem
    split at hmem
    · exact hold hmem
    · split at hmem
      · cases htarget : word.target? with
        | none =>
          rw [htarget] at hmem
          exact hold hmem
        | some o =>
          rw [htarget] at hmem
          rcases Frame.mem_handles_insert.1 hmem with rfl | hr
          · exact (henvsAgree htarget).1
          · exact hold hr
      · exact hold hmem

end TablesStep

/-- The stack that an action works on. One that works on none, or makes a new one, works on the
stack that comes next. -/
def Action.stack (t : CallStacks) : Action → StackRef
  | .newObject env | .getReference env _ _ | .getData env _ _ | .setReference env _ _ _
  | .setData env _ _ _ | .release env _ | .beginCall env _ _ | .endCall _ env _ | .abandonCall env
  | .endRun env _ | .abandonRun env => env.stack
  | _ => t.known.size

namespace Session

variable {A : Type} {s : Session A} {t : Thread} {env : Env}

section TablesSteps

open Machine

theorem tablesStep_getReference (h : EnvsAgree s.ledger.envs s.calls) (hknown : env ∈ s.ledger.envs)
    {object : Handle} {slot : Nat} :
    TablesStep s.ledger.envs env.stack
      (Action.gain (.getReference env object slot) (s.machine.getReference t env object slot).1)
      s.calls (s.machine.getReference t env object slot).2.calls := by
  rw [getReference_eq]
  cases s.machine.referenceAt env object slot with
  | error fault => exact .refl
  | ok o =>
    rw [decided_ok]
    show TablesStep _ _ (if o = Handle.null then [] else [o]) _ _
    by_cases h0 : o = Handle.null
    · simp only [h0, ↓reduceIte]
      exact .refl
    · simp only [h0, ↓reduceIte]
      exact .hold h hknown

theorem tablesStep_release (h : EnvsAgree s.ledger.envs s.calls) (hknown : env ∈ s.ledger.envs)
    {object : Handle} :
    TablesStep s.ledger.envs env.stack [] s.calls (s.machine.release t env object).2.calls := by
  rw [release_eq]
  cases s.machine.releasable env object with
  | error fault => exact .refl
  | ok _ => exact .release h hknown

theorem tablesStep_beginCall (h : EnvsAgree s.ledger.envs s.calls) (hknown : env ∈ s.ledger.envs)
    {name : String} {args : List Word} :
    TablesStep s.ledger.envs env.stack [] s.calls
    (s.machine.beginCall t env name args).2.calls := by
  obtain ⟨text, heq⟩ := beginCall_eq s.machine t env name args
  rw [heq]
  cases hcheck : s.machine.callable env args with
  | error fault => exact .refl
  | ok objects =>
    rw [decided_ok, calls_traced]
    obtain ⟨hactive, -, hhanded⟩ := of_callable_eq_ok hcheck
    exact .opened h fun o ho => CallStacks.mem_stackRoots_iff.2
      ⟨env.frame, h.onStack env hknown hactive, hhanded o ho⟩

theorem tablesStep_endCall (h : EnvsAgree s.ledger.envs s.calls) (hnested : s.ledger.Nested s.calls)
    {callee : Env} (hpending : (env, callee) ∈ s.ledger.calls) {outcome : Answer Word} :
    TablesStep s.ledger.envs callee.stack [] s.calls
      (s.machine.endCall t env callee outcome).2.calls := by
  obtain ⟨text, heq⟩ := endCall_eq s.machine t env callee outcome
  rw [heq, calls_traced]
  refine (TablesStep.settled h hnested hpending fun word o hok htarget =>
    held_of_checkResult_eq_ok hok htarget).trans (.pop fun e he hmem => ?_)
  rw [CallStacks.stack_settled] at hmem
  exact h.stack_of_mem he hmem

theorem tablesStep_beginRun (h : EnvsAgree s.ledger.envs s.calls) {name : String}
    {args : List Word} :
    TablesStep s.ledger.envs s.calls.known.size [] s.calls
    (s.machine.beginRun t name args).2.calls := by
  cases hargs : args.findSome? Word.target? with
  | some o =>
    rw [beginRun_refused hargs]
    exact .refl
  | none =>
    obtain ⟨text, heq⟩ := beginRun_eq s.machine t name hargs
    rw [heq]
    exact TablesStep.register.trans (.opened h.register fun o ho => nomatch ho)

theorem tablesStep_endRun (h : EnvsAgree s.ledger.envs s.calls) {outcome : Answer Word} :
    TablesStep s.ledger.envs env.stack [] s.calls (s.machine.endRun t env outcome).2.calls := by
  obtain ⟨text, heq⟩ := endRun_eq s.machine t env outcome
  rw [heq]
  exact (TablesStep.pop fun e he hmem => h.stack_of_mem he hmem).trans .unregister

end TablesSteps

variable [Allocator A]

theorem tablesStep_newObject (h : EnvsAgree s.ledger.envs s.calls) (hknown : env ∈ s.ledger.envs) :
    TablesStep s.ledger.envs env.stack (Action.gain (.newObject env) (s.machine.newObject t env).1)
      s.calls (s.machine.newObject t env).2.calls := by
  rw [Machine.newObject_eq]
  cases s.machine.checkActive env with
  | error fault => exact .refl
  | ok _ =>
    dsimp only
    rcases Allocator.allocate t s.machine.calls s.machine.toArena with ⟨fault | o, arena⟩
    · exact .refl
    · dsimp only
      split
      · exact .refl
      · rw [Machine.calls_traced]
        exact .hold h hknown

/-- Whatever the allocator does, an action within the rules deals with one stack. -/
theorem tablesStep (h : EnvsAgree s.ledger.envs s.calls) (hnested : s.ledger.Nested s.calls)
    {action : Action} (hpermits : s.ledger.permits action) :
    TablesStep s.ledger.envs (action.stack s.calls) (action.gain (s.reply t action)) s.calls
      (s.after t action).calls := by
  cases action with
  | newObject env => exact tablesStep_newObject h hpermits
  | getReference env object slot => exact tablesStep_getReference h hpermits
  | getData env object slot =>
    show TablesStep _ _ _ _ (s.machine.getData t env object slot).2.calls
    rw [Machine.getData_eq]
    cases s.machine.dataAt env object slot <;> exact .refl
  | setReference env object slot target =>
    show TablesStep _ _ _ _ (s.machine.setReference t env object slot target).2.calls
    rw [Machine.setReference_eq]
    cases s.machine.storableReference env object slot target <;> exact .refl
  | setData env object slot word =>
    show TablesStep _ _ _ _ (s.machine.setData t env object slot word).2.calls
    rw [Machine.setData_eq]
    cases s.machine.storableData env object slot word <;> exact .refl
  | release env object => exact tablesStep_release h hpermits
  | beginCall caller name args => exact tablesStep_beginCall h hpermits
  | endCall caller callee outcome => exact tablesStep_endCall h hnested hpermits
  | abandonCall callee => exact .pop fun e he hmem => h.stack_of_mem he hmem
  | beginRun name args => exact tablesStep_beginRun h
  | endRun entry outcome => exact tablesStep_endRun h
  | abandonRun entry => exact .unregister
  | cell o command =>
    have hcalls : (s.after t (.cell o command)).calls = s.calls := calls_cell
    rw [hcalls]
    exact .refl
  | _ => exact .refl

end Session

/-! ### Stacks apart -/

/-- A heap whose words are what they were on all that is in reach has the same in reach. -/
theorem Heap.reaches_iff_of_words {heap heap' : Heap} {roots : List Handle} {h : Handle}
    (hwords : ∀ x, heap.Reaches roots x → heap'.words x = heap.words x) :
    heap'.Reaches roots h ↔ heap.Reaches roots h := by
  have hlinks : ∀ x, heap.Reaches roots x → heap'.references x = heap.references x := fun x hx => by
    rw [references_eq, references_eq, hwords x hx]
  constructor
  · exact Reaches.of_closed (fun _ => .root) fun x y hx hy => .link hx (hlinks x hx ▸ hy)
  · intro hh
    induction hh with
    | root hmem => exact .root hmem
    | link hx hmem ih => exact .link ih ((hlinks _ hx).symm ▸ hmem)

/-- Whether no two stacks reach the same cell. -/
def Apart (heap : Heap) (t : CallStacks) : Prop :=
  ∀ j k, j ≠ k → ∀ h, heap.Reaches (t.stackRoots j) h → ¬ heap.Reaches (t.stackRoots k) h

/-- What may become of cells and tables when one stack works. -/
structure HeapStep (envs : List Env) (j : StackRef) (heap heap' : Heap) (t t' : CallStacks) :
    Prop where
  tablesStep : ∃ gain, TablesStep envs j gain t t'
  words : ∀ k, k ≠ j → ∀ h, heap.Reaches (t.stackRoots k) h → heap'.words h = heap.words h
  /-- The stack comes to reach only what no stack reached. -/
  reach : ∀ h, heap'.Reaches (t'.stackRoots j) h →
    heap.Reaches (t.stackRoots j) h ∨ ∀ k, ¬ heap.Reaches (t.stackRoots k) h

namespace HeapStep

variable {envs : List Env} {j k : StackRef} {heap heap' : Heap} {t t' : CallStacks}
  {gain : List Handle} {h : Handle}

/-- What another stack reaches is what it was. -/
theorem reaches_iff (hw : HeapStep envs j heap heap' t t') (ht : EnvsAgree envs t) (hk : k ≠ j) :
    heap'.Reaches (t'.stackRoots k) h ↔ heap.Reaches (t.stackRoots k) h := by
  obtain ⟨gain, htables⟩ := hw.tablesStep
  rw [htables.stackRoots_eq ht hk]
  exact Heap.reaches_iff_of_words (hw.words k hk)

/-- Stacks that are apart stay so when one of them works. -/
theorem apart (hw : HeapStep envs j heap heap' t t') (ht : EnvsAgree envs t)
    (hapart : Apart heap t) :
    Apart heap' t' := by
  have hown : ∀ k, k ≠ j → ∀ h, heap'.Reaches (t'.stackRoots j) h →
      ¬ heap'.Reaches (t'.stackRoots k) h := by
    intro k hk h hj hother
    have hold := (hw.reaches_iff ht hk).1 hother
    rcases hw.reach h hj with hreach | hnone
    · exact hapart j k (Ne.symm hk) h hreach hold
    · exact hnone k hold
  intro i k hik h hi hk
  by_cases hij : i = j
  · subst hij
    exact hown k (Ne.symm hik) h hi hk
  · by_cases hkj : k = j
    · subst hkj
      exact hown i hij h hk hi
    · exact hapart i k hik h ((hw.reaches_iff ht hij).1 hi) ((hw.reaches_iff ht hkj).1 hk)

/-- A step that writes nothing, and gains only what its stack reached. -/
theorem of_same (hd : TablesStep envs j gain t t')
    (hgain : ∀ r ∈ gain, heap.Reaches (t.stackRoots j) r) : HeapStep envs j heap heap t t' where
  tablesStep := ⟨gain, hd⟩
  words _ _ _ _ := rfl
  reach _ hh := .inl (hh.of_closed (fun r hr => (hd.roots r hr).elim (hgain r) .root)
    fun _ _ => .link)

theorem idle : HeapStep envs j heap heap t t :=
  have hd : TablesStep envs j [] t t := .refl
  of_same hd fun _ => (nomatch ·)

/-- A step that writes to a cell of its stack a word that names no cell but of its stack. -/
theorem of_write (hapart : Apart heap t) (hd : TablesStep envs j [] t t') {object : Handle}
    {slot : Nat} {word : Word} (hobject : heap.Reaches (t.stackRoots j) object)
    (htarget : ∀ target, word.target? = some target → heap.Reaches (t.stackRoots j) target) :
    HeapStep envs j heap (heap.putWord object slot word) t t' where
  tablesStep := ⟨[], hd⟩
  words k hk h hh := by
    rw [Heap.words_putWord, if_neg]
    rintro rfl
    exact hapart j k (Ne.symm hk) _ hobject hh
  reach _ hh := .inl (hh.of_putWord
    (fun r hr => .root ((hd.roots r hr).resolve_left (nomatch ·))) htarget)

/-- A step that clears a cell that no stack reached, and hands it to a frame. -/
theorem of_new (hd : TablesStep envs j [h] t t') (hnew : ∀ k, ¬ heap.Reaches (t.stackRoots k) h) :
    HeapStep envs j heap (heap.clear h) t t' where
  tablesStep := ⟨[h], hd⟩
  words k hk x hx := by
    rw [Heap.words_clear, if_neg]
    rintro rfl
    exact hnew k hx
  reach x hx := by
    have hreach := hx.of_clear fun r hr =>
      (hd.roots r hr).imp List.mem_singleton.1 fun hold => .root hold
    rcases hreach with rfl | hreach
    · exact .inr hnew
    · exact .inl hreach

end HeapStep

namespace Session

variable {A : Type} {s : Session A} {t : Thread} {env : Env}

/-! ### What an action works on -/

section Works

open Machine

variable {object target : Handle} {slot : Nat} {word : Word}

theorem mem_stackRoots_of_held (h : EnvsAgree s.ledger.envs s.calls) (hknown : env ∈ s.ledger.envs)
    {o : Handle} (hheld : o ∈ (s.machine.frame env).handles) : o ∈ s.calls.stackRoots env.stack :=
  CallStacks.mem_stackRoots_iff.2 ⟨env.frame, h.onStack env hknown (h.active_of_held hheld), hheld⟩

/-- What is read from a reference slot was in reach of the stack. -/
theorem reaches_gain_getReference (h : EnvsAgree s.ledger.envs s.calls)
    (hknown : env ∈ s.ledger.envs) :
    ∀ r ∈ Action.gain (.getReference env object slot) (s.machine.getReference t env object slot).1,
      s.machine.heap.Reaches (s.calls.stackRoots env.stack) r := by
  intro r hr
  rw [getReference_eq] at hr
  cases hcheck : s.machine.referenceAt env object slot with
  | error fault =>
    rw [hcheck] at hr
    cases hr
  | ok o =>
    obtain ⟨-, hheld, hlink⟩ := of_referenceAt_eq_ok hcheck
    rw [hcheck] at hr
    have hr : r ∈ if o = Handle.null then [] else [o] := hr
    split at hr
    · cases hr
    · rename_i h0
      obtain rfl := List.mem_singleton.1 hr
      exact .link (.root (mem_stackRoots_of_held h hknown hheld)) (hlink h0)

theorem heapStep_setReference (h : EnvsAgree s.ledger.envs s.calls)
    (hapart : Apart s.machine.heap s.calls) (hknown : env ∈ s.ledger.envs) :
    HeapStep s.ledger.envs env.stack s.machine.heap
      (s.machine.setReference t env object slot target).2.heap s.calls
      (s.machine.setReference t env object slot target).2.calls := by
  rw [setReference_eq]
  cases hcheck : s.machine.storableReference env object slot target with
  | error fault => exact .idle
  | ok word =>
    obtain ⟨-, hheld, htarget, hle, rfl⟩ := of_storableReference_eq_ok hcheck
    refine .of_write hapart .refl (.root (mem_stackRoots_of_held h hknown hheld)) fun k hk => ?_
    rw [Handle.target?_toWord hle] at hk
    split at hk
    · cases hk
    · rename_i h0
      obtain rfl := Option.some.inj hk
      exact .root (mem_stackRoots_of_held h hknown (htarget h0))

theorem heapStep_setData (h : EnvsAgree s.ledger.envs s.calls)
    (hapart : Apart s.machine.heap s.calls) (hknown : env ∈ s.ledger.envs) :
    HeapStep s.ledger.envs env.stack s.machine.heap
      (s.machine.setData t env object slot word).2.heap s.calls
      (s.machine.setData t env object slot word).2.calls := by
  rw [setData_eq]
  cases hcheck : s.machine.storableData env object slot word with
  | error fault => exact .idle
  | ok w =>
    obtain ⟨-, hheld, hneg, rfl⟩ := of_storableData_eq_ok hcheck
    refine .of_write hapart .refl (.root (mem_stackRoots_of_held h hknown hheld)) fun k hk => ?_
    rw [Word.target?_of_neg hneg] at hk
    cases hk

end Works

variable [Allocator A]

/-- An orderly action that does not ask the allocator works on one stack. -/
theorem heapStep_of_quiet (h : EnvsAgree s.ledger.envs s.calls) (hnested : s.ledger.Nested s.calls)
    (hapart : Apart s.machine.heap s.calls) {action : Action} (hpermits : s.ledger.permits action)
    (horderly : action.orderly = true) (hquiet : action.allocates = false) :
    HeapStep s.ledger.envs (action.stack s.calls) s.machine.heap (s.after t action).machine.heap
      s.calls (s.after t action).calls := by
  have htables := tablesStep (t := t) h hnested hpermits
  -- but for the two that write, an action leaves the cells alone
  have hsame : ∀ {heap : Heap}, heap = s.machine.heap →
      (∀ r ∈ action.gain (s.reply t action),
        s.machine.heap.Reaches (s.calls.stackRoots (action.stack s.calls)) r) →
      HeapStep s.ledger.envs (action.stack s.calls) s.machine.heap heap s.calls
        (s.after t action).calls := by
    rintro heap rfl hgain
    exact .of_same htables hgain
  cases action with
  | setReference env object slot target => exact heapStep_setReference h hapart hpermits
  | setData env object slot word => exact heapStep_setData h hapart hpermits
  | getReference env object slot =>
    exact hsame Machine.SameArena.getReference.heap (reaches_gain_getReference h hpermits)
  | getData env object slot => exact hsame Machine.SameArena.getData.heap fun _ => (nomatch ·)
  | release env object => exact hsame Machine.SameArena.release.heap fun _ => (nomatch ·)
  | beginCall caller name args => exact hsame Machine.SameArena.beginCall.heap fun _ => (nomatch ·)
  | endCall caller callee outcome =>
    exact hsame Machine.SameArena.endCall.heap fun _ => (nomatch ·)
  | beginRun name args => exact hsame Machine.SameArena.beginRun.heap fun _ => (nomatch ·)
  | endRun entry outcome => exact hsame Machine.SameArena.endRun.heap fun _ => (nomatch ·)
  | newObject env => cases hquiet
  | collect => cases hquiet
  | stop => cases horderly
  | resume => cases horderly
  | cell o command => cases horderly
  | abandonRun entry => cases horderly
  | _ => exact hsame rfl fun _ => (nomatch ·)

variable [LawfulCollector A]

/-- What a stack reaches the roots reach. -/
theorem Sound.reaches_of_stack (hs : s.Sound) {h : Handle} {k : StackRef}
    (hh : s.machine.heap.Reaches (s.calls.stackRoots k) h) :
    s.machine.heap.Reaches s.calls.roots h := by
  refine hh.mono fun r hr => ?_
  obtain ⟨f, -, hmem⟩ := CallStacks.mem_stackRoots_iff.1 hr
  exact hs.mem_roots hmem

/-- Every orderly action works on one stack. -/
theorem Sound.heapStep (hs : s.Sound) (hapart : Apart s.machine.heap s.calls) {action : Action}
    (hpermits : s.ledger.permits action) (horderly : action.orderly = true) :
    HeapStep s.ledger.envs (action.stack s.calls) s.machine.heap (s.after t action).machine.heap
      s.calls (s.after t action).calls := by
  cases hquiet : action.allocates with
  | false =>
    exact heapStep_of_quiet hs.tallies.toEnvsAgree hs.tallies.nested hapart hpermits horderly hquiet
  | true =>
    cases action with
    | newObject env =>
      have hcreation := hs.newObject t env
      have htables : TablesStep s.ledger.envs env.stack
          (Action.gain (.newObject env) (s.machine.newObject t env).1) s.calls
          (s.machine.newObject t env).2.calls :=
        tablesStep_newObject hs.tallies.toEnvsAgree hpermits
      show HeapStep _ env.stack _ (s.machine.newObject t env).2.heap _
        (s.machine.newObject t env).2.calls
      generalize s.machine.newObject t env = created at hcreation htables
      cases hcreation with
      | refused inactive => exact .idle
      | exhausted active calls config heap ready =>
        rw [heap]
        exact .of_same htables fun _ => (nomatch ·)
      | made active cell unreached calls config heap ready =>
        rw [heap]
        exact .of_new htables fun k hk => unreached (hs.reaches_of_stack hk)
    | collect =>
      have hheap : (s.after t .collect).machine.heap = s.machine.heap := hs.collect.2
      rw [hheap]
      exact .idle
    | _ => cases hquiet

/-! ### Sessions -/

def reach (s : Session A) (k : StackRef) : Set Handle :=
  {h | s.machine.heap.Reaches (s.calls.stackRoots k) h}

theorem Ran.apart {first : Thread} {heap : Heap} {allocator : A} {config : MachineConfig}
    {start : Machine A} {past : List Move}
    (hbuild : Machine.build first heap allocator config = .ok start) (hran : Ran start past s)
    (horderly : Orderly past) : Apart s.machine.heap s.calls := by
  induction hran with
  | opening =>
    intro j k _ h hj
    have hcalls : (Session.opening start).calls = .empty := calls_of_build hbuild
    refine absurd (hj.mono fun r hr => ?_) (Heap.not_reaches_empty (h := h))
    rw [hcalls] at hr
    cases hr
  | move ran t action permitted ih =>
    have hpast : Orderly _ := fun move hmove => horderly move (List.mem_cons_of_mem _ hmove)
    have hs := ran.sound hbuild hpast
    exact (hs.heapStep (ih hpast) permitted (horderly _ List.mem_cons_self)).apart
      hs.tallies.toEnvsAgree (ih hpast)

theorem OrderlyOver.apart {allocator : A} {config : MachineConfig} {width : Nat}
    (hs : s.OrderlyOver allocator config width) : Apart s.machine.heap s.calls := by
  obtain ⟨⟨hbuild, -⟩, hran, horderly⟩ := hs
  exact hran.apart hbuild horderly

/-- In every session of orderly moves, over mark and sweep and over a counter, what one stack
reaches no other does. -/
theorem disjoint_of_orderly :
    (∀ (t : Thread) (heap : Heap) (allocator : MarkSweep) (config : MachineConfig)
      (start : Machine MarkSweep) (past : List Move) (s : Session MarkSweep),
      Machine.build t heap allocator config = .ok start → Ran start past s → Orderly past →
        ∀ j k, j ≠ k → Disjoint (s.reach j) (s.reach k)) ∧
    ∀ (t : Thread) (heap : Heap) (allocator : Bump) (config : MachineConfig)
      (start : Machine Bump) (past : List Move) (s : Session Bump),
      Machine.build t heap allocator config = .ok start → Ran start past s → Orderly past →
        ∀ j k, j ≠ k → Disjoint (s.reach j) (s.reach k) := by
  constructor
  · intro t heap allocator config start past s hbuild hran horderly j k hne
    exact Set.disjoint_left.2 fun h => hran.apart hbuild horderly j k hne h
  · intro t heap allocator config start past s hbuild hran horderly j k hne
    exact Set.disjoint_left.2 fun h => hran.apart hbuild horderly j k hne h

/-- Two runs take turns, each makes an object, and the second makes another that only the first one
of it names. -/
def turns : List (Thread × Action) :=
  [(0, .beginRun "left" []), (1, .beginRun "right" []), (0, .newObject ⟨0, 0⟩),
    (1, .newObject ⟨1, 1⟩), (1, .newObject ⟨1, 1⟩), (1, .setReference ⟨1, 1⟩ 2 0 3),
    (1, .release ⟨1, 1⟩ 3)]

/-- What there is to see of two stacks and of the slot of one cell. -/
def sights {A : Type} (s : Session A) : List StackRef × List Handle × List Handle × List Handle :=
  (s.calls.registered, s.calls.stackRoots 0, s.calls.stackRoots 1, s.machine.heap.references 2)

theorem reach_of_sights {A : Type} {s : Session A} (hsights : s.sights = ([0, 1], [1], [2], [3])) :
    1 ∈ s.reach 0 ∧ 2 ∈ s.reach 1 ∧ 3 ∈ s.reach 1 := by
  obtain ⟨-, hleft, hright, hlink⟩ := by simpa only [sights, Prod.mk.injEq] using hsights
  have htwo : s.machine.heap.Reaches (s.calls.stackRoots 1) 2 :=
    .root (hright ▸ List.mem_singleton.2 rfl)
  exact ⟨.root (hleft ▸ List.mem_singleton.2 rfl), htwo,
    .link htwo (hlink ▸ List.mem_singleton.2 rfl)⟩

/-- What is said of all sessions, said of one in which both stacks have objects of their own. -/
theorem disjoint_of_turns :
    (∃ (start : Machine MarkSweep) (past : List Move) (s : Session MarkSweep),
      Machine.build Thread.first (.ofSize 5 1) (MarkSweep.fresh .zero) .standard = .ok start ∧
        Ran start past s ∧ s.sights = ([0, 1], [1], [2], [3]) ∧
        (1 ∈ s.reach 0 ∧ 2 ∈ s.reach 1 ∧ 3 ∈ s.reach 1) ∧ Disjoint (s.reach 0) (s.reach 1)) ∧
    ∃ (start : Machine Bump) (past : List Move) (s : Session Bump),
      Machine.build Thread.first (.ofSize 5 1) Bump.fresh .standard = .ok start ∧
        Ran start past s ∧ s.sights = ([0, 1], [1], [2], [3]) ∧
        (1 ∈ s.reach 0 ∧ 2 ∈ s.reach 1 ∧ 3 ∈ s.reach 1) ∧ Disjoint (s.reach 0) (s.reach 1) := by
  constructor
  · have hseen : observed (.ofSize 5 1) (MarkSweep.fresh .zero) turns (fun _ => sights) =
        some ([0, 1], [1], [2], [3]) := by decide +kernel
    obtain ⟨start, past, s, hbuild, hran, hpast, hsights⟩ := exists_ran_of_observed hseen
    exact ⟨start, past, s, hbuild, hran, hsights, reach_of_sights hsights,
      disjoint_of_orderly.1 _ _ _ _ _ _ _ hbuild hran (orderly_of_script hpast (by decide)) _ _
        (by decide)⟩
  · have hseen : observed (.ofSize 5 1) Bump.fresh turns (fun _ => sights) =
        some ([0, 1], [1], [2], [3]) := by decide +kernel
    obtain ⟨start, past, s, hbuild, hran, hpast, hsights⟩ := exists_ran_of_observed hseen
    exact ⟨start, past, s, hbuild, hran, hsights, reach_of_sights hsights,
      disjoint_of_orderly.2 _ _ _ _ _ _ _ hbuild hran (orderly_of_script hpast (by decide)) _ _
        (by decide)⟩

end Session

end RootedHeap
