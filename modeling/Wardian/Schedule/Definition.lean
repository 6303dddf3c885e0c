/-
Schedules of automations and their next run.

Dates and time zones belong to a calendar, which is a parameter: a record of the questions that
the scheduler asks about instants and local dates.  Instants are milliseconds since the epoch, as
unsigned 64-bit numbers where the scheduler stores them and as integers where the calendar does.
-/

import Wardian.Json
import Wardian.Lib.Table
import Wardian.Lib.Text

set_option autoImplicit false

namespace Wardian.Schedule

/-! ### What is persisted -/

inductive AgentConversationMode
  | current | freshBackground

inductive BusyPolicy
  | wait | queue | skip | fail

inductive AutomationRoleAssignment
  | agent (agentId : String) (conversation : AgentConversationMode) (busyPolicy : BusyPolicy)
  | temporaryProvider (provider : String) (workspace model effort : Option String)

structure ScheduleDefinition where
  scheduleType : String
  intervalMinutes : Option UInt32
  timeOfDay : Option String
  daysOfWeek : Option (List String)
  repeatEvery : UInt32
  daysOfMonth : Option (List UInt32)
  specificDates : Option (List String)
  runAt : Option String
  endCondition : String
  endDate : Option String
  maxOccurrences : Option UInt32
  occurrenceCount : UInt32
  active : Bool

structure AutomationSchedule where
  id : String
  blueprintId : String
  name : String
  provider : Option String
  workspace : Option String
  input : Value
  bindings : Table String
  assignments : Table AutomationRoleAssignment
  schedule : ScheduleDefinition
  nextRunEpochMs : Option UInt64
  pausedRemainingMs : Option UInt64
  isPaused : Bool
  lastRunStatus : Option String
  lastRunError : Option String
  lastRunEpochMs : Option UInt64

/-! ### The calendar -/

inductive Weekday
  | mon | tue | wed | thu | fri | sat | sun
deriving DecidableEq

/-- What the scheduler asks about local dates of the type `D`. -/
structure Calendar (D : Type) where
  /-- The local date of an instant, if the calendar reaches it. -/
  localDate : Int → Option D
  /-- The local date a number of days after an instant. -/
  addDays : Int → Nat → D
  weekday : D → Weekday
  /-- Whole weeks since Monday, 3 January 2000. -/
  weeksSinceEpoch : D → Int
  year : D → Int
  month : D → Nat
  fromYmd : Int → Nat → Nat → Option D
  /-- The earliest instant of an hour and a minute of a local date, if there is one. -/
  earliest : D → Nat → Nat → Option Int
  parseDate : String → Option D
  /-- The instant that an RFC 3339 text names. -/
  parseRfc3339 : String → Option Int
  /-- The date, the hour and the minute of a text of the form `YYYY-MM-DDTHH:MM`. -/
  parseLocalMinute : String → Option (D × Nat × Nat)

/-- An integer as an unsigned 64-bit number, wrapping around. -/
def asU64 (n : Int) : UInt64 := UInt64.ofNat (n % 2 ^ 64).toNat

/-- An unsigned 64-bit number as a signed one, wrapping around. -/
def asI64 (n : UInt64) : Int := if n.toNat < 2 ^ 63 then n.toNat else n.toNat - 2 ^ 64

/-- An unsigned 64-bit number as a signed one, if it fits. -/
def tryI64 (n : UInt64) : Option Int := if n.toNat < 2 ^ 63 then some n.toNat else none

variable {D : Type} (cal : Calendar D)

/-- The local date of a stored instant. -/
def localDatetimeAt (nowMs : UInt64) : Option (Int × D) := do
  let now ← tryI64 nowMs
  return (now, ← cal.localDate now)

/-! ### The next run -/

/-- A number of a time of day; what cannot be read counts as zero. -/
def parseU32Or0 (text : List Char) : Nat :=
  (((Text.parseU64 text).filter (· < 2 ^ 32)).getD 0)

/-- The hour and the minute of a time of day with exactly one colon. -/
def hourMinute (timeOfDay : Option String) : Option (Nat × Nat) :=
  match Text.split ':' (timeOfDay.getD "00:00").toList with
  | [hour, minute] => some (parseU32Or0 hour, parseU32Or0 minute)
  | _ => none

/-- The hour and the minute of a time of day, whatever its form. -/
def looseHourMinute (timeOfDay : Option String) : Nat × Nat :=
  let parts := Text.split ':' (timeOfDay.getD "00:00").toList
  ((parts[0]?.map parseU32Or0).getD 0, (parts[1]?.map parseU32Or0).getD 0)

/-- Whether there is such a time of day. -/
def isTime (hour minute : Nat) : Bool := decide (hour < 24) && decide (minute < 60)

def followsBoundary (inclusive : Bool) (nowMs candidateMs : UInt64) : Bool :=
  if inclusive then decide (nowMs ≤ candidateMs) else decide (nowMs < candidateMs)

/-- The earliest of some instants. -/
def minimum (candidates : List UInt64) : Option UInt64 :=
  candidates.foldl (fun best candidate => some (best.elim candidate fun b => min b candidate)) none

def dayMap (name : String) : Option Weekday :=
  match name.toLower with
  | "mon" => some .mon
  | "tue" => some .tue
  | "wed" => some .wed
  | "thu" => some .thu
  | "fri" => some .fri
  | "sat" => some .sat
  | "sun" => some .sun
  | _ => none

def maxWeeklyRepeatEvery : UInt32 := 520

/-- The instant of a date, if it follows the boundary. -/
def candidateAt (follows : UInt64 → Bool) (hour minute : Nat) (date : D) : Option UInt64 :=
  ((cal.earliest date hour minute).map asU64).filter follows

def nextDaily (schedule : ScheduleDefinition) (nowMs : UInt64) (inclusive : Bool) :
    Option UInt64 := do
  let (hour, minute) ← hourMinute schedule.timeOfDay
  let (_, today) ← localDatetimeAt cal nowMs
  if !isTime hour minute then none
  else
    let targetMs ← (cal.earliest today hour minute).map asU64
    if followsBoundary inclusive nowMs targetMs then some targetMs else some (targetMs + 86400000)

/-- Whether a weekly schedule runs on a date. -/
def runsOn (target : Weekday) (repeatWeeks : Nat) (date : D) : Bool :=
  cal.weekday date == target &&
    (decide (repeatWeeks ≤ 1) || cal.weeksSinceEpoch date % (repeatWeeks : Int) == 0)

def nextWeekly (schedule : ScheduleDefinition) (nowMs : UInt64) (inclusive : Bool) :
    Option UInt64 := do
  let (hour, minute) ← hourMinute schedule.timeOfDay
  let dayNames ← schedule.daysOfWeek.filter (!·.isEmpty)
  if schedule.repeatEvery > maxWeeklyRepeatEvery then none
  else
    let repeatWeeks := max schedule.repeatEvery.toNat 1
    let (now, _) ← localDatetimeAt cal nowMs
    let searchDays := repeatWeeks * 7 + 7
    if !isTime hour minute then none
    else
      minimum <| (dayNames.filterMap dayMap).filterMap fun target =>
        (List.range searchDays).findSome? fun offset =>
          let date := cal.addDays now offset
          if runsOn cal target repeatWeeks date then
            candidateAt cal (followsBoundary inclusive nowMs) hour minute date
          else none

def nextMonthly (schedule : ScheduleDefinition) (nowMs : UInt64) (inclusive : Bool) :
    Option UInt64 := do
  let (hour, minute) ← hourMinute schedule.timeOfDay
  let targetDays ← schedule.daysOfMonth.filter (!·.isEmpty)
  let (_, today) ← localDatetimeAt cal nowMs
  if !isTime hour minute then none
  else
    (List.range 3).findSome? fun monthOffset =>
      let candidateMonth := cal.month today + monthOffset
      let candidateYear := cal.year today + ((candidateMonth - 1) / 12 : Nat)
      let candidateMonthNorm := (candidateMonth - 1) % 12 + 1
      minimum <| targetDays.filterMap fun day =>
        (cal.fromYmd candidateYear candidateMonthNorm day.toNat).bind
          (candidateAt cal (followsBoundary inclusive nowMs) hour minute)

def nextSpecificDate (schedule : ScheduleDefinition) (nowMs : UInt64) (inclusive : Bool) :
    Option UInt64 := do
  let (hour, minute) := looseHourMinute schedule.timeOfDay
  let dates ← schedule.specificDates.filter (!·.isEmpty)
  if !isTime hour minute then none
  else
    minimum <| dates.filterMap fun text =>
      (cal.parseDate text).bind
        (candidateAt cal (followsBoundary inclusive nowMs) hour minute)

/-- The instant of a one-time schedule, if it lies ahead. -/
def nextOneTime (schedule : ScheduleDefinition) (nowMs : UInt64) : Option UInt64 :=
  let runAt := schedule.runAt.getD ""
  let ms := match cal.parseRfc3339 runAt with
    | some ms => some ms
    | none => (cal.parseLocalMinute runAt).bind fun (date, hour, minute) =>
      cal.earliest date hour minute
  (ms.map asU64).filter fun ms => nowMs < ms

def computeNextRunWithBoundary (schedule : ScheduleDefinition) (nowMs : UInt64)
    (inclusive : Bool) : Option UInt64 :=
  match schedule.scheduleType with
  | "interval" =>
    let mins := (schedule.intervalMinutes.getD 0).toUInt64
    if 0 < mins then some (nowMs + mins * 60000) else none
  | "daily" => nextDaily cal schedule nowMs inclusive
  | "weekly" => nextWeekly cal schedule nowMs inclusive
  | "monthly" => nextMonthly cal schedule nowMs inclusive
  | "specific_dates" => nextSpecificDate cal schedule nowMs inclusive
  | "one_time" => nextOneTime cal schedule nowMs
  | _ => none

/-- The next run after an instant; missed slots are skipped. -/
def computeNextRun (schedule : ScheduleDefinition) (nowMs : UInt64) : Option UInt64 :=
  computeNextRunWithBoundary cal schedule nowMs false

def computeNextRunAtOrAfter (schedule : ScheduleDefinition) (cutoffMs : UInt64) : Option UInt64 :=
  computeNextRunWithBoundary cal schedule cutoffMs true

end Wardian.Schedule
