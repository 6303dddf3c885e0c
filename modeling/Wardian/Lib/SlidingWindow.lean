/-
A limit on the admissions in a sliding window.

An ideal gate remembers every admission.  A request is refused while the gate is locked; it is refused,
and locks the gate for the length of the window, when the window that ends with it already has as many
admissions as are allowed; otherwise it is admitted.  A probe asks the same and admits nothing.

Main results:

* `SlidingWindow.Gate.Within.request`, `SlidingWindow.Gate.within_run` — the limit is kept;
* `SlidingWindow.Gate.ask_admits` — an open gate admits.
-/

import Mathlib.Algebra.Order.Group.Defs
import Mathlib.Data.List.Basic

set_option autoImplicit false

namespace SlidingWindow

open List

variable {τ : Type} [AddCommGroup τ] [LinearOrder τ]

structure Gate (τ : Type) where
  admitted : List τ
  lockedUntil : Option τ

namespace Gate

/-- A gate that nobody has asked. -/
def fresh : Gate τ := { admitted := [], lockedUntil := none }

/-- The admissions in the window that ends at a time. -/
def recent (window now : τ) (gate : Gate τ) : List τ :=
  gate.admitted.filter fun time => decide (now < time + window)

def locked (now : τ) (gate : Gate τ) : Bool := gate.lockedUntil.any fun time => decide (now < time)

def request (maxAttempts : Nat) (window now : τ) (gate : Gate τ) : Bool × Gate τ :=
  if gate.locked now then (false, gate)
  else if maxAttempts ≤ (gate.recent window now).length then
    (false, { gate with lockedUntil := some (now + window) })
  else (true, { gate with admitted := gate.admitted ++ [now] })

def probe (maxAttempts : Nat) (window now : τ) (gate : Gate τ) : Bool × Gate τ :=
  if gate.locked now then (false, gate)
  else if maxAttempts ≤ (gate.recent window now).length then
    (false, { gate with lockedUntil := some (now + window) })
  else (true, gate)

/-- The admissions from a time on, for the length of the window. -/
def during (window start : τ) (gate : Gate τ) : List τ :=
  gate.admitted.filter fun time => decide (start ≤ time ∧ time < start + window)

/-- Every window has at most the allowed number of admissions. -/
def Within (maxAttempts : Nat) (window : τ) (gate : Gate τ) : Prop :=
  ∀ start, (gate.during window start).length ≤ maxAttempts

variable {maxAttempts : Nat} {window now : τ} {gate : Gate τ}

theorem request_admits (hlckd : gate.locked now = false)
    (hrct : (gate.recent window now).length < maxAttempts) :
    (gate.request maxAttempts window now).1 = true := by
  unfold request
  rw [hlckd, if_neg (by simp), if_neg (by omega)]

theorem within_fresh (maxAttempts : Nat) (window : τ) :
    (fresh : Gate τ).Within maxAttempts window := fun _ => Nat.zero_le _

theorem Within.probe (h : gate.Within maxAttempts window) :
    (gate.probe maxAttempts window now).2.Within maxAttempts window := by
  unfold Gate.probe
  split
  · exact h
  · split <;> exact h

/-- What is asked of a gate. -/
inductive Ask (τ : Type)
  | request (now : τ)
  | probe (now : τ)

def Ask.time : Ask τ → τ
  | .request now => now
  | .probe now => now

def ask (maxAttempts : Nat) (window : τ) (gate : Gate τ) : Ask τ → Bool × Gate τ
  | .request now => gate.request maxAttempts window now
  | .probe now => gate.probe maxAttempts window now

theorem probe_admits (hlckd : gate.locked now = false)
    (hrct : (gate.recent window now).length < maxAttempts) :
    (gate.probe maxAttempts window now).1 = true := by
  unfold probe
  rw [hlckd, if_neg (by simp), if_neg (by omega)]

theorem ask_admits {ask : Ask τ} (hlckd : gate.locked ask.time = false)
    (hrct : (gate.recent window ask.time).length < maxAttempts) :
    (gate.ask maxAttempts window ask).1 = true := by
  cases ask with
  | request now => exact request_admits hlckd hrct
  | probe now => exact probe_admits hlckd hrct

/-- The gate after a run of requests and probes. -/
def run (maxAttempts : Nat) (window : τ) (gate : Gate τ) (asks : List (Ask τ)) : Gate τ :=
  asks.foldl (fun gate ask => (gate.ask maxAttempts window ask).2) gate

/-- The answers of a run. -/
def answers (maxAttempts : Nat) (window : τ) : Gate τ → List (Ask τ) → List Bool
  | _, [] => []
  | gate, ask :: asks =>
    (gate.ask maxAttempts window ask).1 ::
      answers maxAttempts window (gate.ask maxAttempts window ask).2 asks

theorem admitted_request : (gate.request maxAttempts window now).2.admitted =
    if (gate.request maxAttempts window now).1 then gate.admitted ++ [now] else gate.admitted := by
  unfold request
  by_cases hlckd : gate.locked now = true
  · rw [if_pos hlckd]
    rfl
  · rw [if_neg hlckd]
    by_cases hfull : maxAttempts ≤ (gate.recent window now).length
    · rw [if_pos hfull]
      rfl
    · rw [if_neg hfull]
      rfl

theorem admitted_probe : (gate.probe maxAttempts window now).2.admitted = gate.admitted := by
  unfold probe
  by_cases hlckd : gate.locked now = true
  · rw [if_pos hlckd]
  · rw [if_neg hlckd]
    by_cases hfull : maxAttempts ≤ (gate.recent window now).length
    · rw [if_pos hfull]
    · rw [if_neg hfull]

theorem run_append (asks : List (Ask τ)) (ask : Ask τ) :
    gate.run maxAttempts window (asks ++ [ask]) =
      ((gate.run maxAttempts window asks).ask maxAttempts window ask).2 := by
  unfold run
  rw [foldl_append]
  rfl

theorem answers_append (asks : List (Ask τ)) (ask : Ask τ) :
    gate.answers maxAttempts window (asks ++ [ask]) =
      gate.answers maxAttempts window asks ++
        [((gate.run maxAttempts window asks).ask maxAttempts window ask).1] := by
  induction asks generalizing gate with
  | nil => rfl
  | cons first asks ih =>
    rw [cons_append]
    unfold answers
    rw [ih]
    rfl

variable [IsOrderedAddMonoid τ]

/-- The admissions of a window that has the new one are in the window that ends with it. -/
theorem length_during_le_recent (gate : Gate τ) {start : τ} (h : now < start + window) :
    (gate.during window start).length ≤ (gate.recent window now).length := by
  unfold during recent
  refine Sublist.length_le (monotone_filter_right _ ?_)
  intro time htime
  rw [decide_eq_true_eq] at htime ⊢
  exact lt_of_lt_of_le h (add_le_add_left htime.1 window)

theorem Within.request (h : gate.Within maxAttempts window) :
    (gate.request maxAttempts window now).2.Within maxAttempts window := by
  unfold Gate.request
  split
  · exact h
  · split
    · exact h
    · rename_i hfew
      intro start
      unfold during
      rw [filter_append, length_append]
      by_cases hin : start ≤ now ∧ now < start + window
      · have hle := length_during_le_recent gate hin.2
        unfold during at hle
        rw [filter_cons_of_pos (by simpa using hin), filter_nil, length_singleton]
        omega
      · rw [filter_cons_of_neg (by simpa using hin), filter_nil, length_nil]
        exact h start

theorem within_run (asks : List (Ask τ)) (h : gate.Within maxAttempts window) :
    (gate.run maxAttempts window asks).Within maxAttempts window := by
  induction asks generalizing gate with
  | nil => exact h
  | cons ask asks ih =>
    refine ih ?_
    cases ask with
    | request now => exact h.request
    | probe now => exact h.probe

end Gate

end SlidingWindow
