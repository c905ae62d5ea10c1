import Mathlib.Data.List.Count
import RootedHeap.Proofs.Gatehouse

/-!
The law of the gate. What happened at a gate is a list of passages, the latest first, and everything
that the gate tells can be read off it: who holds the stop and how often, how many scopes each
thread has open, how many pauses are over. `Gatehouse.Told` says that both agree after every
section, and `Gatehouse.Lawful` what a thread may rely on while its stop is in force.
-/

namespace RootedHeap

namespace Gatehouse

/-! ### What the gate knows of what happened -/

/-- How many stops of a thread are not yet matched by a resume. A resume that finds none to match
is forgotten. -/
def unresumed (t : Thread) : List Passage → Nat
  | [] => 0
  | .stopped u :: past => unresumed t past + if u = t then 1 else 0
  | .resumed u :: past => unresumed t past - if u = t then 1 else 0
  | _ :: past => unresumed t past

/-- Whether a stop of a thread has returned whose outermost resume has not come. -/
def inForce (t : Thread) : List Passage → Bool
  | [] => false
  | .returned u :: past => u = t || inForce t past
  | .resumed u :: past => inForce t past && (u ≠ t || 1 < unresumed t past)
  | _ :: past => inForce t past

/-- How many outermost stops were matched by their resume. -/
def brackets : List Passage → Nat
  | [] => 0
  | .resumed t :: past => brackets past + if unresumed t past = 1 then 1 else 0
  | _ :: past => brackets past

/-- The open scopes as a table with a count for each thread, kept entry by entry: a thread that
opens its first scope gets an entry, and one whose count falls to zero loses it. -/
def book : List Passage → Thread → Option Nat
  | [] => fun _ => none
  | .entered t :: past => Function.update (book past) t (some ((book past t).getD 0 + 1))
  | .left t :: past =>
    match book past t with
    | none => book past
    | some n => Function.update (book past) t (if n - 1 = 0 then none else some (n - 1))
  | _ :: past => book past

/-- What sections led to, with what happened on the way, the latest first. A scope is dropped once,
by whoever has it. -/
inductive Ran : List Passage → Gatehouse → Prop
  | fresh : Ran [] .fresh
  | step {past events : List Passage} {w w' : Gatehouse} (ran : Ran past w)
      (step : w.Step events w')
      (owed : ∀ t, .left t ∈ events → past.count (.left t) < past.count (.entered t)) :
    Ran (events ++ past) w'

/-- The gate and what happened agree. -/
structure Told (past : List Passage) (w : Gatehouse) : Prop extends w.Inv where
  unresumed_eq : ∀ t, unresumed t past = if w.gate.holder = some t then w.gate.stops else 0
  inForce_iff : ∀ t, inForce t past = true ↔ w.gate.holder = some t ∧ w.wait t ≠ .silence
  count_eq : ∀ t, w.gate.scopes.count t + past.count (.left t) = past.count (.entered t)
  book_eq : ∀ t, book past t =
    if w.gate.scopes.count t = 0 then none else some (w.gate.scopes.count t)
  pauses_eq : w.gate.pauses = brackets past

namespace Told

variable {w w' : Gatehouse} {t : Thread} {past events : List Passage}

theorem of_fresh : Told [] fresh where
  toInv := .of_fresh
  unresumed_eq _ := by simp [unresumed, fresh, Gate.fresh]
  inForce_iff _ := by simp [inForce, fresh, Gate.fresh]
  count_eq _ := by simp [fresh, Gate.fresh]
  book_eq _ := by simp [book, fresh, Gate.fresh]
  pauses_eq := rfl

/-- Waiting for something else is no passage, unless a thread gives up silence or takes it up. -/
theorem turn (h : Told past w) {wait : Wait} (hinv : (w.turn t wait).Inv)
    (hwait : wait ≠ .silence) (hold : w.wait t ≠ .silence) : Told past (w.turn t wait) where
  toInv := hinv
  unresumed_eq := h.unresumed_eq
  inForce_iff u := by
    rw [h.inForce_iff]
    by_cases hne : u = t
    · subst hne
      simp [Gatehouse.turn, hwait, hold]
    · simp [Gatehouse.turn, hne]
  count_eq := h.count_eq
  book_eq := h.book_eq
  pauses_eq := h.pauses_eq

theorem fallAsleep (h : Told past w) (hinv : (w.fallAsleep t).Inv) : Told past (w.fallAsleep t) :=
  ⟨hinv, h.unresumed_eq, h.inForce_iff, h.count_eq, h.book_eq, h.pauses_eq⟩

theorem enter (h : Told past w) (hinv : ({ w with gate := w.gate.enter t }.turn t .nothing).Inv)
    (hasked : w.wait t = .scope) :
    Told (.entered t :: past) ({ w with gate := w.gate.enter t }.turn t .nothing) where
  toInv := hinv
  unresumed_eq := h.unresumed_eq
  inForce_iff u := by
    simp only [inForce, h.inForce_iff]
    by_cases hne : u = t
    · subst hne
      simp [Gatehouse.turn, hasked]
    · simp [Gatehouse.turn, hne]
  count_eq u := by
    have hcount := h.count_eq u
    by_cases hne : u = t
    · subst hne
      simp [Gatehouse.turn]
      omega
    · simpa [Gatehouse.turn, List.count_cons, Ne.symm hne] using hcount
  book_eq u := by
    rw [book]
    by_cases hne : u = t
    · subst hne
      have hbook := h.book_eq u
      by_cases hzero : w.gate.scopes.count u = 0
      · simp [Gatehouse.turn, hbook, hzero]
      · simp [Gatehouse.turn, hbook, hzero]
    · simpa [Gatehouse.turn, List.count_cons, hne, Ne.symm hne] using h.book_eq u
  pauses_eq := h.pauses_eq

/-- A stop comes into force on an open gate or is stacked on one of the same thread. -/
theorem unresumed_close (h : Told past w) (hlets : w.gate.lets t = true) (u : Thread) :
    unresumed u (.stopped t :: past) =
      if (w.gate.close t).holder = some u then (w.gate.close t).stops else 0 := by
  rw [unresumed, h.unresumed_eq, Gate.holder_close hlets]
  cases hholder : w.gate.holder with
  | none =>
    rw [Gate.stops_close_of_open hholder]
    by_cases hne : u = t
    · simp [hne]
    · simp [Ne.symm hne]
  | some v =>
    obtain rfl := Inv.eq_of_lets hlets hholder
    rw [Gate.stops_close_of_held hholder]
    by_cases hne : u = v
    · simp [hne]
    · simp [Ne.symm hne]

theorem close (h : Told past w) (hinv : ({ w with gate := w.gate.close t }.turn t .nothing).Inv)
    (hlets : w.gate.lets t = true) :
    Told (.returned t :: .stopped t :: past)
      ({ w with gate := w.gate.close t }.turn t .nothing) where
  toInv := hinv
  unresumed_eq u := h.unresumed_close hlets u
  inForce_iff u := by
    simp only [inForce, h.inForce_iff, Gatehouse.turn, Gate.holder_close hlets, Bool.or_eq_true,
      decide_eq_true_eq]
    by_cases hne : u = t
    · subst hne
      simp
    · have hnot : w.gate.holder ≠ some u := fun hholder => hne (Inv.eq_of_lets hlets hholder)
      simp [hnot, Ne.symm hne]
  count_eq u := by simpa [Gatehouse.turn, List.count_cons] using h.count_eq u
  book_eq u := by simpa [Gatehouse.turn, book] using h.book_eq u
  pauses_eq := Gate.pauses_close.trans h.pauses_eq

theorem claim (h : Told past w)
    (hinv : (({ w with gate := w.gate.close t }.turn t .silence).fallAsleep t).Inv)
    (hopen : w.gate.holder = none) :
    Told (.stopped t :: past)
      (({ w with gate := w.gate.close t }.turn t .silence).fallAsleep t) where
  toInv := hinv
  unresumed_eq u := h.unresumed_close (by simp [Gate.lets, hopen]) u
  inForce_iff u := by
    have hlets : w.gate.lets t = true := by simp [Gate.lets, hopen]
    simp only [inForce, h.inForce_iff, Gatehouse.turn, Gatehouse.fallAsleep,
      Gate.holder_close hlets, hopen]
    by_cases hne : u = t
    · simp [hne]
    · simp [Ne.symm hne]
  count_eq u := by simpa [Gatehouse.turn, Gatehouse.fallAsleep, List.count_cons] using h.count_eq u
  book_eq u := by simpa [Gatehouse.turn, Gatehouse.fallAsleep, book] using h.book_eq u
  pauses_eq := Gate.pauses_close.trans h.pauses_eq

theorem drained (h : Told past w) (hinv : (w.turn t .nothing).Inv) (hasked : w.wait t = .silence) :
    Told (.returned t :: past) (w.turn t .nothing) where
  toInv := hinv
  unresumed_eq := h.unresumed_eq
  inForce_iff u := by
    simp only [inForce, h.inForce_iff, Gatehouse.turn, Bool.or_eq_true, decide_eq_true_eq]
    by_cases hne : u = t
    · subst hne
      simp [h.claimed u hasked]
    · simp [hne, Ne.symm hne]
  count_eq u := by simpa [Gatehouse.turn, List.count_cons] using h.count_eq u
  book_eq := h.book_eq
  pauses_eq := h.pauses_eq

theorem leave (h : Told past w) (hinv : (w.drop t).Inv)
    (howed : past.count (.left t) < past.count (.entered t)) :
    Told (.left t :: past) (w.drop t) where
  toInv := hinv
  unresumed_eq := h.unresumed_eq
  inForce_iff := h.inForce_iff
  count_eq u := by
    have hcount := h.count_eq u
    by_cases hne : u = t
    · subst hne
      simp [Gatehouse.drop, Gatehouse.notifyAll]
      omega
    · simpa [Gatehouse.drop, Gatehouse.notifyAll, List.count_cons, List.count_erase_of_ne hne,
        Ne.symm hne] using hcount
  book_eq u := by
    have hcount := h.count_eq t
    have hopen : w.gate.scopes.count t ≠ 0 := by omega
    have hbook : book (.left t :: past) = Function.update (book past) t
        (if w.gate.scopes.count t - 1 = 0 then none else some (w.gate.scopes.count t - 1)) := by
      have hentry := h.book_eq t
      rw [if_neg hopen] at hentry
      simp only [book, hentry]
    rw [hbook]
    by_cases hne : u = t
    · subst hne
      simp [Gatehouse.drop, Gatehouse.notifyAll]
    · simpa [Gatehouse.drop, Gatehouse.notifyAll, List.count_erase_of_ne hne, hne] using h.book_eq u
  pauses_eq := h.pauses_eq

theorem resume (h : Told past w) (hinv : (w.resume t).Inv) (hfree : w.wait t = .nothing) :
    Told (.resumed t :: past) (w.resume t) := by
  by_cases hheld : w.gate.heldBy t = true
  · have hholder : w.gate.holder = some t := Gate.heldBy_iff.1 hheld
    have hstops : unresumed t past = w.gate.stops := by simp [h.unresumed_eq, hholder]
    have hpos : w.gate.stops ≠ 0 := fun hzero => by simp [h.counted.2 hzero] at hholder
    rw [resume_of_held hheld] at hinv ⊢
    refine ⟨hinv, fun u => ?_, fun u => ?_, fun u => ?_, fun u => ?_, ?_⟩
    · simp only [unresumed, h.unresumed_eq, notifyAll, Gate.holder_reopen, Gate.stops_reopen,
        hholder]
      by_cases hne : u = t
      · subst hne
        simp
        omega
      · simp [Ne.symm hne]
    · simp only [inForce, h.inForce_iff, notifyAll, Gate.holder_reopen, Bool.and_eq_true,
        Bool.or_eq_true, decide_eq_true_eq]
      by_cases hne : u = t
      · subst hne
        rw [hstops]
        split
        · rename_i hlast
          simp [Nat.not_lt.2 hlast]
        · rename_i hmore
          simp [hfree, hholder, Nat.lt_of_not_le hmore]
      · split <;> simp [hholder, Ne.symm hne]
    · simpa [notifyAll, List.count_cons] using h.count_eq u
    · simpa [notifyAll, book] using h.book_eq u
    · simp only [brackets, hstops, notifyAll, Gate.pauses_reopen, ← h.pauses_eq]
      by_cases hlast : w.gate.stops = 1
      · simp [hlast]
      · have hmore : ¬ w.gate.stops ≤ 1 := by omega
        simp [hlast, hmore]
  · have hunheld : w.gate.holder ≠ some t := fun hholder => hheld (Gate.heldBy_iff.2 hholder)
    have hnone : unresumed t past = 0 := by simp [h.unresumed_eq, hunheld]
    rw [resume_of_unheld (by simpa using hheld)] at hinv ⊢
    refine ⟨hinv, fun u => ?_, fun u => ?_, fun u => ?_, h.book_eq, ?_⟩
    · rw [unresumed, ← h.unresumed_eq]
      by_cases hne : u = t
      · subst hne
        simp [hnone]
      · simp [Ne.symm hne]
    · simp only [inForce, h.inForce_iff, Bool.and_eq_true, Bool.or_eq_true, decide_eq_true_eq]
      by_cases hne : u = t
      · subst hne
        simp [hunheld]
      · simp [Ne.symm hne]
    · simpa [List.count_cons] using h.count_eq u
    · simp [brackets, hnone, h.pauses_eq]

/-- Every section keeps the gate and the story together. -/
theorem step (h : Told past w) (hstep : w.Step events w')
    (howed : ∀ t, .left t ∈ events → past.count (.left t) < past.count (.entered t)) :
    Told (events ++ past) w' := by
  have hinv : w'.Inv := h.toInv.step hstep
  cases hstep with
  | call free called =>
    exact h.turn hinv (by rcases called with rfl | rfl <;> simp) (by simp [free])
  | sleep awake barred => exact h.fallAsleep hinv
  | enter asked awake admitted => exact h.enter hinv asked
  | close asked awake admitted still => exact h.close hinv admitted
  | claim asked awake unheld loud => exact h.claim hinv unheld
  | drained asked awake still => exact h.drained hinv asked
  | leave t => exact h.leave hinv (howed t List.mem_cons_self)
  | resume free => exact h.resume hinv free

end Told

theorem Ran.told {past : List Passage} {w : Gatehouse} (hran : Ran past w) : Told past w := by
  induction hran with
  | fresh => exact .of_fresh
  | step _ hstep howed ih => exact ih.step hstep howed

/-! ### The law of the gate -/

/-- The gate is a stop-the-world lock. -/
structure Lawful (past : List Passage) (w : Gatehouse) : Prop where
  held_iff : (∃ t, w.gate.holder = some t) ↔ 1 ≤ w.gate.stops
  /-- They are the holder's own that no resume has matched. -/
  stops_eq : ∀ t, w.gate.holder = some t → w.gate.stops = unresumed t past
  unresumed_eq : ∀ t, w.gate.holder ≠ some t → unresumed t past = 0
  count_eq : ∀ t, w.gate.scopes.count t + past.count (.left t) = past.count (.entered t)
  /-- In a table of open scopes no entry is zero. -/
  book_iff : ∀ t n, book past t = some n ↔ n = w.gate.scopes.count t ∧ n ≠ 0
  /-- While a stop of a thread is in force it alone has scopes, and no other thread gets one or
  another stop. -/
  exclusive : ∀ t, inForce t past = true → (∀ u ∈ w.gate.scopes, u = t) ∧
    ∀ events w', w.Step events w' → ∀ u, .entered u ∈ events ∨ .returned u ∈ events → u = t
  unhindered : ∀ t, inForce t past = true → w.asleep t = false ∧
    (w.wait t = .scope → ∃ w', w.Step [.entered t] w' ∧ w'.wait t = .nothing) ∧
    (w.wait t = .stop → ∃ w', w.Step [.returned t, .stopped t] w' ∧ w'.wait t = .nothing)
  ignored : ∀ t, w.gate.holder ≠ some t → w.resume t = w ∧ w.gate.resume t = w.gate
  pauses_eq : w.gate.pauses = brackets past

namespace Told

variable {w : Gatehouse} {past : List Passage} {t : Thread}

/-- A thread whose stop is in force is let through, and waits for no silence. -/
theorem lets (h : Told past w) (hforce : inForce t past = true) : w.gate.lets t = true := by
  obtain ⟨hholder, -⟩ := (h.inForce_iff t).1 hforce
  exact Gate.lets_iff.2 fun u hu => Option.some.inj (hu.symm.trans hholder)

theorem awake (h : Told past w) (hforce : inForce t past = true) : w.asleep t = false := by
  rw [← Bool.not_eq_true]
  intro hasleep
  have hbarred := h.barred t hasleep
  have hlets := h.lets hforce
  obtain ⟨-, hsilence⟩ := (h.inForce_iff t).1 hforce
  cases hwait : w.wait t <;> simp_all [Gate.admits]

/-- What goes through at the gate while a stop is in force is its holder's. -/
theorem eq_of_passage (h : Told past w) (hforce : inForce t past = true) {w' : Gatehouse}
    {events : List Passage} (hstep : w.Step events w') {u : Thread}
    (hu : .entered u ∈ events ∨ .returned u ∈ events) : u = t := by
  obtain ⟨hholder, -⟩ := (h.inForce_iff t).1 hforce
  cases hstep with
  | call free called => simp at hu
  | sleep awake barred => simp at hu
  | enter asked awake admitted =>
    obtain rfl : u = _ := by simpa using hu
    exact (Inv.eq_of_lets admitted hholder).symm
  | close asked awake admitted still =>
    obtain rfl : u = _ := by simpa using hu
    exact (Inv.eq_of_lets admitted hholder).symm
  | claim asked awake unheld loud => simp at hu
  | drained asked awake still =>
    obtain rfl : u = _ := by simpa using hu
    exact Option.some.inj ((h.claimed _ asked).symm.trans hholder)
  | leave v => simp at hu
  | resume free => simp at hu

theorem law (h : Told past w) : Lawful past w where
  held_iff := by
    rw [← Gate.isClosed_iff, Nat.one_le_iff_ne_zero, Ne, ← h.counted, Gate.isClosed]
    exact Option.isSome_iff_ne_none
  stops_eq t hholder := by simp [h.unresumed_eq, hholder]
  unresumed_eq t hunheld := by simp [h.unresumed_eq, hunheld]
  count_eq := h.count_eq
  book_iff t n := by
    rw [h.book_eq]
    split
    · rename_i hzero
      simp [hzero]
    · rename_i hsome
      constructor
      · intro hn
        obtain rfl := Option.some.inj hn
        exact ⟨rfl, hsome⟩
      · rintro ⟨rfl, -⟩
        rfl
  exclusive t hforce := by
    obtain ⟨hholder, hsilence⟩ := (h.inForce_iff t).1 hforce
    exact ⟨Gate.quiet_iff.1 (h.silent t hholder hsilence),
      fun events w' hstep u hu => h.eq_of_passage hforce hstep hu⟩
  unhindered t hforce := by
    obtain ⟨hholder, -⟩ := (h.inForce_iff t).1 hforce
    have hawake := h.awake hforce
    have hlets := h.lets hforce
    refine ⟨hawake, fun hasked => ⟨_, .enter hasked hawake hlets, ?_⟩,
      fun hasked => ⟨_, .close hasked hawake hlets (.inl (Gate.heldBy_iff.2 hholder)), ?_⟩⟩
    · simp [Gatehouse.turn]
    · simp [Gatehouse.turn]
  ignored t hunheld := by
    have hheld : w.gate.heldBy t = false := by simpa [Gate.heldBy] using hunheld
    exact ⟨resume_of_unheld hheld, by simp [Gate.resume, Gate.resume?, hheld]⟩
  pauses_eq := h.pauses_eq

end Told

/-- Whatever threads ask of the gate, in whatever order, it is a stop-the-world lock. -/
theorem Ran.lawful {past : List Passage} {w : Gatehouse} (hran : Ran past w) : Lawful past w :=
  hran.told.law

/-- Thread 1 opens a scope, thread 0 closes the gate and waits, and goes on when thread 1 has left;
the law holds of the stop that is then in force. -/
theorem lawful_of_awaited_stop :
    ∃ past w, Ran past w ∧ past.length = 4 ∧ inForce 0 past = true ∧ Lawful past w := by
  have h₁ : Ran [.entered 1] _ :=
    (Ran.fresh.step (.call (t := 1) rfl (.inl rfl)) (by simp)).step
      (.enter (t := 1) rfl rfl rfl) (by simp)
  have h₂ : Ran [.stopped 0, .entered 1] _ :=
    (h₁.step (.call (t := 0) rfl (.inr rfl)) (by simp)).step
      (.claim (t := 0) rfl rfl rfl rfl) (by simp)
  have h₃ : Ran [.returned 0, .left 1, .stopped 0, .entered 1] _ :=
    (h₂.step (.leave 1) (by simp)).step (.drained (t := 0) rfl rfl rfl) (by simp)
  exact ⟨_, _, h₃, rfl, rfl, h₃.lawful⟩

end Gatehouse

end RootedHeap
