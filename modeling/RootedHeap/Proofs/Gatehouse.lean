import Mathlib.Logic.Function.Basic
import RootedHeap.Roots.Gate

/-!
The gate and the threads in front of it. A thread that calls `enter` or `stop` tests a condition
under the gate's lock; while it does not hold the thread sleeps, until somebody notifies all
sleepers. `Gatehouse.Step` has one rule for each section under the lock, for any thread, so that its
runs are all orders of calls of any number of threads.

A stop has two phases: the flag is claimed at once, but the stop returns only when no other thread
has a scope open. `Gatehouse.Inv` covers the time in between: a thread that waits for silence holds
the stop, and a holder that does not wait has silence.
-/

namespace RootedHeap

/-! ### Sections under the gate's lock -/

namespace Gate

variable {g : Gate} {t u : Thread}

theorem lets_iff : g.lets t = true ↔ ∀ u, g.holder = some u → u = t := by
  unfold lets
  cases g.holder <;> simp

theorem heldBy_iff : g.heldBy t = true ↔ g.holder = some t := by simp [heldBy]

theorem quiet_iff : g.quiet t = true ↔ ∀ u ∈ g.scopes, u = t := by simp [quiet]

theorem isClosed_iff : g.isClosed = true ↔ ∃ t, g.holder = some t := Option.isSome_iff_exists

@[simp] theorem holder_enter : (g.enter t).holder = g.holder := rfl

@[simp] theorem stops_enter : (g.enter t).stops = g.stops := rfl

@[simp] theorem pauses_enter : (g.enter t).pauses = g.pauses := rfl

@[simp] theorem scopes_enter : (g.enter t).scopes = t :: g.scopes := rfl

@[simp] theorem holder_leave : (g.leave t).holder = g.holder := rfl

@[simp] theorem stops_leave : (g.leave t).stops = g.stops := rfl

@[simp] theorem pauses_leave : (g.leave t).pauses = g.pauses := rfl

@[simp] theorem scopes_leave : (g.leave t).scopes = g.scopes.erase t := rfl

@[simp] theorem scopes_close : (g.close t).scopes = g.scopes := by
  unfold close
  split <;> rfl

@[simp] theorem pauses_close : (g.close t).pauses = g.pauses := by
  unfold close
  split <;> rfl

@[simp] theorem scopes_reopen : g.reopen.scopes = g.scopes := by
  unfold reopen
  split <;> rfl

theorem holder_reopen : g.reopen.holder = if g.stops ≤ 1 then none else g.holder := by
  unfold reopen
  split <;> rfl

@[simp] theorem stops_reopen : g.reopen.stops = g.stops - 1 := by
  unfold reopen
  split
  · dsimp only
    omega
  · rfl

theorem pauses_reopen : g.reopen.pauses = if g.stops ≤ 1 then g.pauses + 1 else g.pauses := by
  unfold reopen
  split <;> rfl

@[simp] theorem scopes_resume : (g.resume t).scopes = g.scopes := by
  unfold resume resume?
  split
  · exact scopes_reopen
  · rfl

/-- A thread that is let through holds the stop after closing the gate. -/
theorem holder_close (hlets : g.lets t = true) : (g.close t).holder = some t := by
  cases hholder : g.holder with
  | none => simp [close, hholder]
  | some u => simp [close, hholder, lets_iff.1 hlets u hholder]

theorem stops_close_of_open (hopen : g.holder = none) : (g.close t).stops = 1 := by
  simp [close, hopen]

theorem stops_close_of_held (hheld : g.holder = some u) : (g.close t).stops = g.stops + 1 := by
  simp [close, hheld]

@[simp] theorem quiet_close : (g.close t).quiet u = g.quiet u := by
  unfold quiet
  rw [scopes_close]

@[simp] theorem quiet_reopen : g.reopen.quiet u = g.quiet u := by
  unfold quiet
  rw [scopes_reopen]

/-- A scope that is left makes no noise. -/
theorem quiet_leave (hquiet : g.quiet t = true) : (g.leave u).quiet t = true :=
  quiet_iff.2 fun v hv => quiet_iff.1 hquiet v (List.mem_of_mem_erase hv)

end Gate

/-- What a thread is waiting for at the gate. -/
inductive Wait where
  | nothing
  | scope
  | stop
  | silence
  deriving DecidableEq

/-- Whether what a thread waits for has come. -/
def Gate.admits (g : Gate) (t : Thread) : Wait → Bool
  | .nothing => true
  | .scope | .stop => g.lets t
  | .silence => g.quiet t

/-- What can happen at the gate. -/
inductive Passage where
  | entered (t : Thread)
  | left (t : Thread)
  /-- A stop came into force or was stacked on one; it may still wait for scopes. -/
  | stopped (t : Thread)
  | returned (t : Thread)
  | resumed (t : Thread)
  deriving DecidableEq

/-- The gate, and the threads that wait in front of it. -/
structure Gatehouse where
  gate : Gate
  wait : Thread → Wait
  asleep : Thread → Bool

namespace Gatehouse

def fresh : Gatehouse := ⟨.fresh, fun _ => .nothing, fun _ => false⟩

def turn (w : Gatehouse) (t : Thread) (wait : Wait) : Gatehouse :=
  { w with wait := Function.update w.wait t wait }

def fallAsleep (w : Gatehouse) (t : Thread) : Gatehouse :=
  { w with asleep := Function.update w.asleep t true }

/-- All sleepers are notified, if there is reason to. -/
def notifyAll (w : Gatehouse) (reason : Bool) : Gatehouse :=
  { w with asleep := if reason then fun _ => false else w.asleep }

def drop (w : Gatehouse) (t : Thread) : Gatehouse :=
  { w with gate := w.gate.leave t }.notifyAll w.gate.isClosed

/-- Thread `t` calls for a resume, which does nothing if it does not hold the stop. -/
def resume (w : Gatehouse) (t : Thread) : Gatehouse :=
  match w.gate.resume? t with
  | some gate => { w with gate }.notifyAll !gate.isClosed
  | none => w

/-- One section under the gate's lock, or a call that is about to enter one. -/
inductive Step (w : Gatehouse) : List Passage → Gatehouse → Prop
  | call {t : Thread} {wait : Wait} (free : w.wait t = .nothing)
      (called : wait = .scope ∨ wait = .stop) : Step w [] (w.turn t wait)
  | sleep {t : Thread} (awake : w.asleep t = false)
      (barred : w.gate.admits t (w.wait t) = false) : Step w [] (w.fallAsleep t)
  | enter {t : Thread} (asked : w.wait t = .scope) (awake : w.asleep t = false)
      (admitted : w.gate.lets t = true) :
    Step w [.entered t] ({ w with gate := w.gate.enter t }.turn t .nothing)
  | close {t : Thread} (asked : w.wait t = .stop) (awake : w.asleep t = false)
      (admitted : w.gate.lets t = true)
      (still : w.gate.heldBy t = true ∨ w.gate.quiet t = true) :
    Step w [.returned t, .stopped t] ({ w with gate := w.gate.close t }.turn t .nothing)
  | claim {t : Thread} (asked : w.wait t = .stop) (awake : w.asleep t = false)
      (unheld : w.gate.holder = none) (loud : w.gate.quiet t = false) :
    Step w [.stopped t] (({ w with gate := w.gate.close t }.turn t .silence).fallAsleep t)
  | drained {t : Thread} (asked : w.wait t = .silence) (awake : w.asleep t = false)
      (still : w.gate.quiet t = true) : Step w [.returned t] (w.turn t .nothing)
  /-- Whoever has a scope may drop it, whatever the thread that opened it is doing. -/
  | leave (t : Thread) : Step w [.left t] (w.drop t)
  | resume {t : Thread} (free : w.wait t = .nothing) : Step w [.resumed t] (w.resume t)

/-- What holds of the gate and its threads whatever happened: who sleeps has reason to, a thread
that waits for silence holds the stop, and a holder that does not wait has silence. -/
structure Inv (w : Gatehouse) : Prop where
  barred : ∀ t, w.asleep t = true → w.gate.admits t (w.wait t) = false
  claimed : ∀ t, w.wait t = .silence → w.gate.holder = some t
  silent : ∀ t, w.gate.holder = some t → w.wait t ≠ .silence → w.gate.quiet t = true
  counted : w.gate.holder = none ↔ w.gate.stops = 0

/-! ### Who is barred -/

section Bars

variable {g : Gate} {t u : Thread} {wait : Wait}

/-- A scope more lets nobody through who was barred. -/
theorem admits_enter (hbarred : g.admits u wait = false) : (g.enter t).admits u wait = false := by
  cases wait with
  | nothing => exact hbarred
  | scope => exact hbarred
  | stop => exact hbarred
  | silence =>
    rw [Gate.admits, ← Bool.not_eq_true, Gate.quiet_iff] at hbarred ⊢
    exact fun hall => hbarred fun v hv => hall v (List.mem_cons_of_mem _ hv)

/-- A gate that is closed, or closed once more, lets nobody else through who was barred. -/
theorem admits_close (hlets : g.lets t = true) (hu : u ≠ t) (hbarred : g.admits u wait = false) :
    (g.close t).admits u wait = false := by
  have hshut : (g.close t).lets u = false := by
    rw [← Bool.not_eq_true, Gate.lets_iff]
    exact fun hall => hu (hall t (Gate.holder_close hlets)).symm
  cases wait with
  | nothing => exact hbarred
  | scope => exact hshut
  | stop => exact hshut
  | silence => rwa [Gate.admits, Gate.quiet_close]

/-- A gate that stays closed after a resume bars whom it barred. -/
theorem admits_reopen (hclosed : g.reopen.isClosed = true) (hbarred : g.admits u wait = false) :
    g.reopen.admits u wait = false := by
  have hholder : g.reopen.holder = g.holder := by
    rw [Gate.isClosed, Gate.holder_reopen] at hclosed
    rw [Gate.holder_reopen]
    split
    · rename_i hlast
      simp [hlast] at hclosed
    · rfl
  cases wait with
  | nothing => exact hbarred
  | scope => rwa [Gate.admits, Gate.lets, hholder]
  | stop => rwa [Gate.admits, Gate.lets, hholder]
  | silence => rwa [Gate.admits, Gate.quiet_reopen]

end Bars

/-- A thread that goes on to wait for what it waited for changes nothing. -/
theorem turn_eq {w : Gatehouse} {t : Thread} {wait : Wait} (hwait : w.wait t = wait) :
    w.turn t wait = w := by
  rw [turn, ← hwait, Function.update_eq_self]

/-- Opening the gate rouses everybody, a resume of an inner stop nobody. -/
theorem resume_of_held {w : Gatehouse} {t : Thread} (hheld : w.gate.heldBy t = true) :
    w.resume t = { w with gate := w.gate.reopen }.notifyAll !w.gate.reopen.isClosed := by
  simp [resume, Gate.resume?, hheld]

/-- A resume by a thread that does not hold the stop changes nothing. -/
theorem resume_of_unheld {w : Gatehouse} {t : Thread} (hunheld : w.gate.heldBy t = false) :
    w.resume t = w := by
  simp [resume, Gate.resume?, hunheld]

/-- A resume sends nobody on. -/
theorem wait_resume {w : Gatehouse} {t : Thread} : (w.resume t).wait = w.wait := by
  unfold resume
  split <;> rfl

namespace Inv

variable {w w' : Gatehouse} {t u : Thread} {events : List Passage}

theorem of_fresh : fresh.Inv := by
  constructor <;> simp [fresh, Gate.fresh]

/-- A thread that waits for nothing is awake. -/
theorem awake_of_nothing (h : w.Inv) (hfree : w.wait t = .nothing) : w.asleep t = false := by
  rw [← Bool.not_eq_true]
  intro hasleep
  have hbarred := h.barred t hasleep
  rw [hfree] at hbarred
  cases hbarred

/-- At an open gate nobody sleeps. -/
theorem awake_of_open (h : w.Inv) (hopen : w.gate.holder = none) (t : Thread) :
    w.asleep t = false := by
  rw [← Bool.not_eq_true]
  intro hasleep
  have hbarred := h.barred t hasleep
  have hlets : w.gate.lets t = true := by simp [Gate.lets, hopen]
  cases hwait : w.wait t with
  | nothing => rw [hwait] at hbarred; cases hbarred
  | scope => rw [hwait, Gate.admits, hlets] at hbarred; cases hbarred
  | stop => rw [hwait, Gate.admits, hlets] at hbarred; cases hbarred
  | silence => rw [h.claimed t hwait] at hopen; cases hopen

/-- Who is let through a closed gate is its holder. -/
theorem eq_of_lets (hlets : w.gate.lets t = true) (hholder : w.gate.holder = some u) : u = t :=
  Gate.lets_iff.1 hlets u hholder

theorem call (h : w.Inv) {wait : Wait} (hfree : w.wait t = .nothing) (hwait : wait ≠ .silence) :
    (w.turn t wait).Inv where
  barred u hu := by
    have hne : u ≠ t := by
      rintro rfl
      exact absurd hu (by simp [turn, h.awake_of_nothing hfree])
    simpa [turn, hne] using h.barred u hu
  claimed u hu := by
    by_cases hne : u = t
    · subst hne
      exact absurd (by simpa [turn] using hu) hwait
    · exact h.claimed u (by simpa [turn, hne] using hu)
  silent u hholder hu := by
    refine h.silent u hholder fun hsilence => ?_
    by_cases hne : u = t
    · subst hne
      rw [hfree] at hsilence
      cases hsilence
    · exact hu (by simpa [turn, hne] using hsilence)
  counted := h.counted

theorem sleep (h : w.Inv) (hbarred : w.gate.admits t (w.wait t) = false) :
    (w.fallAsleep t).Inv where
  barred u hu := by
    by_cases hne : u = t
    · subst hne
      exact hbarred
    · exact h.barred u (by simpa [fallAsleep, hne] using hu)
  claimed := h.claimed
  silent := h.silent
  counted := h.counted

theorem enter (h : w.Inv) (hasked : w.wait t = .scope) (hawake : w.asleep t = false)
    (hlets : w.gate.lets t = true) :
    ({ w with gate := w.gate.enter t }.turn t .nothing).Inv where
  barred u hu := by
    have hne : u ≠ t := by
      rintro rfl
      exact absurd hu (by simp [turn, hawake])
    simpa [turn, hne] using admits_enter (h.barred u hu)
  claimed u hu := by
    by_cases hne : u = t
    · subst hne
      exact absurd hu (by simp [turn])
    · exact h.claimed u (by simpa [turn, hne] using hu)
  silent u hholder _ := by
    obtain rfl := eq_of_lets hlets hholder
    have hquiet := h.silent u hholder (by simp [hasked])
    exact Gate.quiet_iff.2 (List.forall_mem_cons.2 ⟨rfl, Gate.quiet_iff.1 hquiet⟩)
  counted := h.counted

theorem close (h : w.Inv) (hasked : w.wait t = .stop) (hawake : w.asleep t = false)
    (hlets : w.gate.lets t = true) (hstill : w.gate.heldBy t = true ∨ w.gate.quiet t = true) :
    ({ w with gate := w.gate.close t }.turn t .nothing).Inv where
  barred u hu := by
    have hne : u ≠ t := by
      rintro rfl
      exact absurd hu (by simp [turn, hawake])
    simpa [turn, hne] using admits_close hlets hne (h.barred u hu)
  claimed u hu := by
    by_cases hne : u = t
    · subst hne
      exact absurd hu (by simp [turn])
    · have hholder := h.claimed u (by simpa [turn, hne] using hu)
      exact absurd (eq_of_lets hlets hholder) hne
  silent u hholder _ := by
    obtain rfl : t = u := Option.some.inj ((Gate.holder_close hlets).symm.trans hholder)
    rcases hstill with hheld | hquiet
    · exact Gate.quiet_close.trans (h.silent t (Gate.heldBy_iff.1 hheld) (by simp [hasked]))
    · exact Gate.quiet_close.trans hquiet
  counted := by
    have hholder : (w.gate.close t).holder = some t := Gate.holder_close hlets
    have hstops : (w.gate.close t).stops ≠ 0 := by
      cases hopen : w.gate.holder with
      | none => simp [Gate.stops_close_of_open hopen]
      | some u => simp [Gate.stops_close_of_held hopen]
    simp [turn, hholder, hstops]

theorem claim (h : w.Inv) (hopen : w.gate.holder = none) (hloud : w.gate.quiet t = false) :
    (({ w with gate := w.gate.close t }.turn t .silence).fallAsleep t).Inv where
  barred u hu := by
    by_cases hne : u = t
    · subst hne
      simpa [turn, fallAsleep, Gate.admits] using hloud
    · have hsleep : w.asleep u = true := by simpa [turn, fallAsleep, hne] using hu
      rw [h.awake_of_open hopen u] at hsleep
      cases hsleep
  claimed u hu := by
    have hholder : (w.gate.close t).holder = some t :=
      Gate.holder_close (by simp [Gate.lets, hopen])
    by_cases hne : u = t
    · subst hne
      exact hholder
    · have hclaimed := h.claimed u (by simpa [turn, fallAsleep, hne] using hu)
      rw [hopen] at hclaimed
      cases hclaimed
  silent u hholder hu := by
    obtain rfl : t = u := Option.some.inj
      ((Gate.holder_close (by simp [Gate.lets, hopen])).symm.trans hholder)
    exact absurd (by simp [turn, fallAsleep]) hu
  counted := by simp [turn, fallAsleep, Gate.close, hopen]

theorem drained (h : w.Inv) (hawake : w.asleep t = false) (hquiet : w.gate.quiet t = true) :
    (w.turn t .nothing).Inv where
  barred u hu := by
    have hne : u ≠ t := by
      rintro rfl
      exact absurd hu (by simp [turn, hawake])
    simpa [turn, hne] using h.barred u hu
  claimed u hu := by
    by_cases hne : u = t
    · subst hne
      exact absurd hu (by simp [turn])
    · exact h.claimed u (by simpa [turn, hne] using hu)
  silent u hholder hu := by
    by_cases hne : u = t
    · subst hne
      exact hquiet
    · exact h.silent u hholder (by simpa [turn, hne] using hu)
  counted := h.counted

theorem leave (h : w.Inv) (t : Thread) : (w.drop t).Inv where
  barred u hu := by
    cases hclosed : w.gate.isClosed with
    | true => simp [drop, notifyAll, hclosed] at hu
    | false =>
      have hopen : w.gate.holder = none := by simpa [Gate.isClosed] using hclosed
      have hsleep : w.asleep u = true := by simpa [drop, notifyAll, hclosed] using hu
      rw [h.awake_of_open hopen u] at hsleep
      cases hsleep
  claimed := h.claimed
  silent u hholder hu := Gate.quiet_leave (h.silent u hholder hu)
  counted := h.counted

theorem resume (h : w.Inv) (hfree : w.wait t = .nothing) : (w.resume t).Inv := by
  by_cases hheld : w.gate.heldBy t = true
  · have hholder : w.gate.holder = some t := Gate.heldBy_iff.1 hheld
    rw [resume_of_held hheld]
    have hstays : ∀ u, w.gate.reopen.holder = some u → u = t := by
      intro u hu
      rw [Gate.holder_reopen] at hu
      split at hu
      · cases hu
      · exact Option.some.inj (hu.symm.trans hholder)
    refine ⟨fun u hu => ?_, fun u hu => ?_, fun u hu hwait => ?_, ?_⟩
    · cases hclosed : w.gate.reopen.isClosed with
      | false => simp [notifyAll, hclosed] at hu
      | true => exact admits_reopen hclosed (h.barred u (by simpa [notifyAll, hclosed] using hu))
    · obtain rfl := Option.some.inj ((h.claimed u hu).symm.trans hholder)
      have hsilence : w.wait u = .silence := hu
      rw [hfree] at hsilence
      cases hsilence
    · obtain rfl := hstays u hu
      exact Gate.quiet_reopen.trans (h.silent u hholder hwait)
    · show w.gate.reopen.holder = none ↔ w.gate.reopen.stops = 0
      rw [Gate.holder_reopen, Gate.stops_reopen]
      split
      · rename_i hlast
        simp
        omega
      · rename_i hmore
        simp [hholder]
        omega
  · rwa [resume_of_unheld (by simpa using hheld)]

/-- Every section keeps the invariant. -/
theorem step (h : w.Inv) (hstep : w.Step events w') : w'.Inv := by
  cases hstep with
  | call free called => exact h.call free (by rcases called with rfl | rfl <;> simp)
  | sleep awake barred => exact h.sleep barred
  | enter asked awake admitted => exact h.enter asked awake admitted
  | close asked awake admitted still => exact h.close asked awake admitted still
  | claim asked awake unheld loud => exact h.claim unheld loud
  | drained asked awake still => exact h.drained awake still
  | leave t => exact h.leave t
  | resume free => exact h.resume free

end Inv

end Gatehouse

end RootedHeap
