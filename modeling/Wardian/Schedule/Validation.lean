/-
The validation of schedules.

A schedule is checked before it is saved: by its type, whose fields it must have, and by its end
condition.  The first fault is reported.

Main results:

* `Schedule.validateTimeOfDay_ok` — a valid time of day is an hour and a minute;
* `Schedule.validateRule_time` — the types that run at a time of day have a valid one.
-/

import Wardian.Lib.Results
import Wardian.Schedule.Definition

set_option autoImplicit false

namespace Wardian.Schedule

open Results

def parseU32 (text : List Char) : Option Nat := (Text.parseU64 text).filter (· < 2 ^ 32)

/-- A value that has to be there. -/
def required {α : Type} (value : Option α) (error : String) : Except String α :=
  value.elim (.error error) .ok

def validateTimeOfDay (time : Option String) : Except String Unit := do
  let time ← required (time.filter fun value => !Text.isBlank value)
    "schedule requires a time_of_day value"
  let invalid := s!"invalid time_of_day `{time}`; expected HH:MM"
  let parts := Text.split ':' time.toList
  let hour ← required (parts[0]?.bind parseU32) invalid
  let minute ← required (parts[1]?.bind parseU32) invalid
  if parts[2]?.isSome || decide (23 < hour) || decide (59 < minute) then .error invalid
  else .ok ()

def weekdayNames : List String := ["mon", "tue", "wed", "thu", "fri", "sat", "sun"]

section

variable {D : Type} (cal : Calendar D)

/-- What a schedule needs by its type. -/
def validateRule (schedule : ScheduleDefinition) : Except String Unit :=
  match schedule.scheduleType with
  | "interval" =>
    if schedule.intervalMinutes.getD 0 = 0 then
      .error "interval schedules require --every greater than zero"
    else .ok ()
  | "daily" => validateTimeOfDay schedule.timeOfDay
  | "weekly" => do
      validateTimeOfDay schedule.timeOfDay
      let days ← required (schedule.daysOfWeek.filter (!·.isEmpty))
        "weekly schedules require at least one day"
      match days.find? fun day => !weekdayNames.contains day.toLower with
      | some day => .error s!"invalid weekly day `{day}`"
      | none =>
        if schedule.repeatEvery = 0 then
          .error "weekly schedules require repeat_every greater than zero"
        else if schedule.repeatEvery > maxWeeklyRepeatEvery then
          .error s!"weekly schedules require repeat_every no greater than {maxWeeklyRepeatEvery}"
        else .ok ()
  | "monthly" => do
      validateTimeOfDay schedule.timeOfDay
      let days ← required (schedule.daysOfMonth.filter (!·.isEmpty))
        "monthly schedules require at least one day"
      match days.find? fun day => day == 0 || decide (day > 31) with
      | some day => .error s!"invalid monthly day `{day}`; expected 1-31"
      | none => .ok ()
  | "specific_dates" => do
      validateTimeOfDay schedule.timeOfDay
      let dates ← required (schedule.specificDates.filter (!·.isEmpty))
        "specific_dates schedules require at least one date"
      match dates.find? fun date => (cal.parseDate date).isNone with
      | some date => .error s!"invalid specific date `{date}`; expected YYYY-MM-DD"
      | none => .ok ()
  | "one_time" => do
      let runAt ← required (schedule.runAt.filter fun value => !Text.isBlank value)
        "one_time schedules require a run_at value"
      if (cal.parseRfc3339 runAt).isNone && (cal.parseLocalMinute runAt).isNone then
        .error s!"invalid run_at `{runAt}`; expected RFC3339 or YYYY-MM-DDTHH:MM"
      else .ok ()
  | other => .error <| s!"unsupported schedule type `{other}`; expected interval, daily, weekly, " ++
      "monthly, specific_dates, or one_time"

/-- What a schedule needs by its end condition. -/
def validateEnd (schedule : ScheduleDefinition) : Except String Unit :=
  match schedule.endCondition with
  | "never" => .ok ()
  | "on_date" => do
      let endDate ← required (schedule.endDate.filter fun value => !Text.isBlank value)
        "on_date schedules require end_date"
      if (cal.parseDate endDate).isNone then
        .error s!"invalid end_date `{endDate}`; expected YYYY-MM-DD"
      else .ok ()
  | "after_occurrences" =>
    if schedule.maxOccurrences.getD 0 = 0 then
      .error "after_occurrences schedules require max_occurrences greater than zero"
    else .ok ()
  | other => .error
      s!"unsupported end condition `{other}`; expected never, on_date, or after_occurrences"

def validateScheduleDefinition (schedule : ScheduleDefinition) : Except String Unit := do
  validateRule cal schedule
  validateEnd cal schedule

end

/-! ### What validation ensures -/

theorem required_ok {α : Type} {value : Option α} {error : String} {a : α}
    (h : required value error = .ok a) : value = some a := by
  cases value with
  | none => cases h
  | some b => exact congrArg some (Except.ok.inj h)

/-- A valid time of day is an hour and a minute with a colon between them. -/
theorem validateTimeOfDay_ok {time : Option String} (h : validateTimeOfDay time = .ok ()) :
    ∃ hour minute, hourMinute time = some (hour, minute) ∧ looseHourMinute time = (hour, minute) ∧
      isTime hour minute = true := by
  unfold validateTimeOfDay at h
  obtain ⟨text, htext, h⟩ := bind_eq_ok.1 h
  obtain ⟨hour, hhour, h⟩ := bind_eq_ok.1 h
  obtain ⟨minute, hminute, h⟩ := bind_eq_ok.1 h
  obtain rfl := (Option.filter_eq_some_iff.mp (required_ok htext)).1
  have hhour := required_ok hhour
  have hminute := required_ok hminute
  unfold hourMinute looseHourMinute
  rw [Option.getD_some]
  generalize Text.split ':' text.toList = parts at *
  rcases parts with _ | ⟨first, _ | ⟨second, _ | ⟨third, rest⟩⟩⟩
  · cases hhour
  · cases hminute
  · have hfst : parseU32Or0 first = hour := congrArg (Option.getD · 0) hhour
    have hsec : parseU32Or0 second = minute := congrArg (Option.getD · 0) hminute
    refine ⟨hour, minute, ?_, ?_, ?_⟩
    · simp only [hfst, hsec]
    · simp only [List.getElem?_cons_zero, List.getElem?_cons_succ, Option.map_some, Option.getD_some,
        hfst, hsec]
    · split at h
      · cases h
      · rename_i hrange
        simp only [Bool.or_eq_true, decide_eq_true_eq, not_or, not_lt] at hrange
        unfold isTime
        rw [Bool.and_eq_true, decide_eq_true_iff, decide_eq_true_iff]
        omega
  · cases h

variable {D : Type} {cal : Calendar D} {schedule : ScheduleDefinition}

theorem validateRule_of_ok (h : validateScheduleDefinition cal schedule = .ok ()) :
    validateRule cal schedule = .ok () := by
  obtain ⟨_, hrule, -⟩ := bind_eq_ok.1 h
  exact hrule

theorem validateRule_time (h : validateRule cal schedule = .ok ())
    (htype : schedule.scheduleType = "daily" ∨ schedule.scheduleType = "weekly" ∨
      schedule.scheduleType = "monthly" ∨ schedule.scheduleType = "specific_dates") :
    validateTimeOfDay schedule.timeOfDay = .ok () := by
  unfold validateRule at h
  rcases htype with htype | htype | htype | htype <;> rw [htype] at h
  · exact h
  all_goals
    obtain ⟨_, htime, -⟩ := bind_eq_ok.1 h
    exact htime

/-- A weekly schedule repeats every week or every few weeks, within the bound. -/
theorem validateRule_weekly (h : validateRule cal schedule = .ok ())
    (htype : schedule.scheduleType = "weekly") :
    0 < schedule.repeatEvery.toNat ∧ schedule.repeatEvery ≤ maxWeeklyRepeatEvery := by
  unfold validateRule at h
  rw [htype] at h
  obtain ⟨_, -, h⟩ := bind_eq_ok.1 h
  obtain ⟨days, -, h⟩ := bind_eq_ok.1 h
  split at h
  · cases h
  · split at h
    · cases h
    · rename_i hzero
      split at h
      · cases h
      · rename_i hbnd
        refine ⟨Nat.pos_of_ne_zero ?_, UInt32.not_lt.mp hbnd⟩
        intro heq
        exact hzero (UInt32.toNat_inj.mp heq)

theorem validateRule_type (h : validateRule cal schedule = .ok ()) :
    schedule.scheduleType ∈ ["interval", "daily", "weekly", "monthly", "specific_dates", "one_time"] := by
  unfold validateRule at h
  split at h
  all_goals first
    | (rename_i htype; rw [htype]; decide)
    | cases h

end Wardian.Schedule
