/-
The scheduler's planners.

A tick goes through the schedules, emits a request for each one that is due, and advances it; the
startup reconciliation moves overdue schedules on without a request.  Both drop the schedules that
have expired.  The toggles of the operator are calls of their own on the same list.

Main results:

* `Schedule.planOne_cases` — what a tick does to one schedule;
* `Schedule.reconcileOne_same` — what a reconciliation leaves alone.
-/

import Wardian.Schedule.Definition

set_option autoImplicit false

namespace Wardian.Schedule

/-- What must be launched for a schedule that fires. -/
structure FireRequest where
  scheduleId : String
  blueprintId : String
  name : String
  provider : Option String
  workspace : Option String
  input : Value
  bindings : Table String
  assignments : Table AutomationRoleAssignment

variable {D : Type} [LT D] [LE D] [DecidableLT D] [DecidableLE D] (cal : Calendar D)

/-! ### The end of a schedule -/

/-- Whether a schedule has no runs left at an instant. -/
def isExpired (schedule : AutomationSchedule) (nowMs : UInt64) : Bool :=
  match schedule.schedule.endCondition with
  | "after_occurrences" =>
    schedule.schedule.maxOccurrences.any fun most => most ≤ schedule.schedule.occurrenceCount
  | "on_date" =>
    schedule.schedule.endDate.any fun date =>
      -- An instant beyond the calendar or an unreadable date never expires a schedule.
      match cal.localDate (asI64 nowMs), cal.parseDate date with
      | some today, some last => decide (last < today)
      | _, _ => false
  | _ => false

def candidateWithinEndCondition (schedule : ScheduleDefinition) (candidateMs : UInt64) : Bool :=
  if schedule.endCondition != "on_date" then true
  else
    match schedule.endDate.bind cal.parseDate, localDatetimeAt cal candidateMs with
    | some last, some (_, candidate) => decide (candidate ≤ last)
    | _, _ => false

def nextStartupOccurrence (schedule : ScheduleDefinition) (cutoffMs : UInt64) : Option UInt64 :=
  (computeNextRunAtOrAfter cal schedule cutoffMs).filter (candidateWithinEndCondition cal schedule)

def fireRequest (schedule : AutomationSchedule) : FireRequest where
  scheduleId := schedule.id
  blueprintId := schedule.blueprintId
  name := schedule.name
  provider := schedule.provider
  workspace := schedule.workspace
  input := schedule.input
  bindings := schedule.bindings
  assignments := schedule.assignments

/-- One more, up to the largest number. -/
def saturatingSucc (n : UInt32) : UInt32 := if n.toNat + 1 < 2 ^ 32 then n + 1 else n

/-- Count a fire, as the first thing that a fire does. -/
def countFire (schedule : AutomationSchedule) (nowMs : UInt64) : AutomationSchedule :=
  { schedule with
    schedule := { schedule.schedule with
      occurrenceCount := saturatingSucc schedule.schedule.occurrenceCount }
    lastRunStatus := some "running"
    lastRunError := none
    lastRunEpochMs := some nowMs }

/-- Advance a schedule that fires; whether it is to be removed. -/
def advanceAfterFire (schedule : AutomationSchedule) (nowMs : UInt64) :
    AutomationSchedule × Bool :=
  let schedule := countFire schedule nowMs
  if schedule.schedule.scheduleType = "one_time" || isExpired cal schedule nowMs then
    (schedule, true)
  else
    let nextRun := (computeNextRun cal schedule.schedule nowMs).filter
      (candidateWithinEndCondition cal schedule.schedule)
    ({ schedule with nextRunEpochMs := nextRun },
      nextRun.isNone && decide (schedule.schedule.scheduleType = "specific_dates"))

/-! ### The planners -/

/-- What a planner makes of one schedule. -/
structure Planned where
  schedule : AutomationSchedule
  request : Option FireRequest
  changed : Bool
  remove : Bool

/-- One pass of the loop of `planTick`. -/
def planOne (nowMs : UInt64) (schedule : AutomationSchedule) : Planned :=
  if !schedule.schedule.active || schedule.isPaused then ⟨schedule, none, false, false⟩
  else if isExpired cal schedule nowMs then ⟨schedule, none, false, true⟩
  else
    match schedule.nextRunEpochMs with
    | none =>
      let nextRun := (computeNextRun cal schedule.schedule nowMs).filter
        (candidateWithinEndCondition cal schedule.schedule)
      ⟨{ schedule with nextRunEpochMs := nextRun }, none, true, false⟩
    | some nextRun =>
      if nowMs < nextRun then ⟨schedule, none, false, false⟩
      else
        let (advanced, remove) := advanceAfterFire cal schedule nowMs
        ⟨advanced, some (fireRequest schedule), true, remove⟩

/-- Drop the schedules with the identifier of one that is to be removed. -/
def retainPlanned (planned : List Planned) : List AutomationSchedule :=
  let removeIds := (planned.filter Planned.remove).map fun p => p.schedule.id
  (planned.map Planned.schedule).filter fun schedule => !removeIds.contains schedule.id

/-- Advance one tick: the schedules afterwards and the requests that are due. -/
def planTick (schedules : List AutomationSchedule) (nowMs : UInt64) :
    List AutomationSchedule × List FireRequest :=
  let planned := schedules.map (planOne cal nowMs)
  (retainPlanned planned, planned.filterMap Planned.request)

/-- One pass of the loop of `reconcileStartupSchedules`. -/
def reconcileOne (cutoffMs : UInt64) (schedule : AutomationSchedule) : Planned :=
  if !schedule.schedule.active || schedule.isPaused then ⟨schedule, none, false, false⟩
  else if isExpired cal schedule cutoffMs then ⟨schedule, none, true, true⟩
  else
    match schedule.nextRunEpochMs with
    | none => ⟨schedule, none, false, false⟩
    | some nextRun =>
      if cutoffMs ≤ nextRun then ⟨schedule, none, false, false⟩
      else
        let oneTime := decide (schedule.schedule.scheduleType = "one_time")
        let next := if oneTime then none else nextStartupOccurrence cal schedule.schedule cutoffMs
        let missedOnce := oneTime ||
          (decide (schedule.schedule.scheduleType = "specific_dates") && next.isNone)
        let missed := missedOnce && schedule.lastRunStatus != some "missed"
        let status := if missed then some "missed" else schedule.lastRunStatus
        ⟨{ schedule with nextRunEpochMs := next, lastRunStatus := status }, none,
          schedule.nextRunEpochMs != next || missed, false⟩

/-- Move the schedules on that were due while the scheduler was not running; whether anything
changed. -/
def reconcileStartupSchedules (schedules : List AutomationSchedule) (startupCutoffMs : UInt64) :
    List AutomationSchedule × Bool :=
  let planned := schedules.map (reconcileOne cal startupCutoffMs)
  (retainPlanned planned, planned.any Planned.changed)

/-! ### The toggles of the operator -/

/-- Change the first schedule with an identifier. -/
def mutateSchedule (id : String) (f : AutomationSchedule → AutomationSchedule) :
    List AutomationSchedule → List AutomationSchedule
  | [] => []
  | schedule :: schedules =>
    if schedule.id = id then f schedule :: schedules
    else schedule :: mutateSchedule id f schedules

/-- The difference, or zero. -/
def saturatingSub (a b : UInt64) : UInt64 := if b ≤ a then a - b else 0

/-- The sum, or the largest number. -/
def saturatingAdd (a b : UInt64) : UInt64 :=
  if a.toNat + b.toNat < 2 ^ 64 then a + b else UInt64.ofNat (2 ^ 64 - 1)

def schedulePause (id : String) (now : UInt64) (schedules : List AutomationSchedule) :
    List AutomationSchedule :=
  mutateSchedule id (fun schedule =>
    { schedule with
      isPaused := true
      pausedRemainingMs := schedule.nextRunEpochMs.map fun nextRun => saturatingSub nextRun now
      nextRunEpochMs := none }) schedules

def scheduleResume (id : String) (now : UInt64) (schedules : List AutomationSchedule) :
    List AutomationSchedule :=
  mutateSchedule id (fun schedule =>
    { schedule with
      isPaused := false
      pausedRemainingMs := none
      nextRunEpochMs :=
        match schedule.pausedRemainingMs with
        | some remaining => some (saturatingAdd now remaining)
        | none => computeNextRun cal schedule.schedule now }) schedules

/-- Fire at the next tick. -/
def scheduleRunNow (id : String) (now : UInt64) (schedules : List AutomationSchedule) :
    List AutomationSchedule :=
  mutateSchedule id (fun schedule =>
    { schedule with isPaused := false, nextRunEpochMs := some now }) schedules

/-! ### What the planners do to one schedule -/

variable {cal} {schedule : AutomationSchedule} {nowMs : UInt64}

theorem saturatingSucc_toNat (n : UInt32) : (saturatingSucc n).toNat = min (n.toNat + 1) (2 ^ 32 - 1) := by
  have hn := n.toNat_lt
  unfold saturatingSucc
  split
  · rename_i hlt
    rw [UInt32.toNat_add, UInt32.toNat_one, Nat.mod_eq_of_lt hlt]
    omega
  · omega

@[simp] theorem advanceAfterFire_id : (advanceAfterFire cal schedule nowMs).1.id = schedule.id := by
  unfold advanceAfterFire
  dsimp only
  split <;> rfl

@[simp] theorem advanceAfterFire_schedule :
    (advanceAfterFire cal schedule nowMs).1.schedule = (countFire schedule nowMs).schedule := by
  unfold advanceAfterFire
  dsimp only
  split <;> rfl

theorem advanceAfterFire_oneTime (h : schedule.schedule.scheduleType = "one_time") :
    (advanceAfterFire cal schedule nowMs).2 = true := by
  unfold advanceAfterFire
  simp [countFire, h]

/-- A schedule fires at an instant. -/
def Fires (cal : Calendar D) (nowMs : UInt64) (schedule : AutomationSchedule) : Prop :=
  schedule.schedule.active = true ∧ schedule.isPaused = false ∧
    isExpired cal schedule nowMs = false ∧ ∃ nextRun ≤ nowMs, schedule.nextRunEpochMs = some nextRun

/-- A tick leaves a schedule with what it is and how often it has fired, unless it fires. -/
theorem planOne_cases (cal : Calendar D) (nowMs : UInt64) (schedule : AutomationSchedule) :
    ((planOne cal nowMs schedule).request = none ∧
      (planOne cal nowMs schedule).schedule.id = schedule.id ∧
      (planOne cal nowMs schedule).schedule.schedule = schedule.schedule) ∨
    ((planOne cal nowMs schedule).request = some (fireRequest schedule) ∧
      Fires cal nowMs schedule ∧
      (planOne cal nowMs schedule).schedule = (advanceAfterFire cal schedule nowMs).1 ∧
      (planOne cal nowMs schedule).remove = (advanceAfterFire cal schedule nowMs).2) := by
  unfold planOne
  split
  · exact .inl ⟨rfl, rfl, rfl⟩
  rename_i hlive
  split
  · exact .inl ⟨rfl, rfl, rfl⟩
  rename_i hexprd
  split
  · exact .inl ⟨rfl, rfl, rfl⟩
  rename_i nextRun hnext
  split
  · exact .inl ⟨rfl, rfl, rfl⟩
  rename_i hdue
  simp only [Bool.or_eq_true, Bool.not_eq_true', not_or, Bool.not_eq_false,
    Bool.not_eq_true] at hlive hexprd
  exact .inr ⟨rfl, ⟨hlive.1, hlive.2, hexprd, nextRun, by simpa using hdue, hnext⟩, rfl, rfl⟩

theorem planOne_id : (planOne cal nowMs schedule).schedule.id = schedule.id := by
  rcases planOne_cases cal nowMs schedule with ⟨-, hid, -⟩ | ⟨-, -, hsched, -⟩
  · exact hid
  · rw [hsched, advanceAfterFire_id]

/-- A reconciliation changes the next run and the status, and nothing else. -/
theorem reconcileOne_same (cal : Calendar D) (cutoffMs : UInt64) (schedule : AutomationSchedule) :
    ∃ nextRun status, (reconcileOne cal cutoffMs schedule).schedule =
      { schedule with nextRunEpochMs := nextRun, lastRunStatus := status } := by
  unfold reconcileOne
  split
  · exact ⟨_, _, rfl⟩
  split
  · exact ⟨_, _, rfl⟩
  split
  · exact ⟨_, _, rfl⟩
  dsimp only
  split
  · exact ⟨_, _, rfl⟩
  · exact ⟨_, _, rfl⟩

theorem reconcileOne_id : (reconcileOne cal nowMs schedule).schedule.id = schedule.id := by
  obtain ⟨nextRun, status, h⟩ := reconcileOne_same cal nowMs schedule
  rw [h]

end Wardian.Schedule
