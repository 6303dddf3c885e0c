/-
Accounting of fires over whole runs of the scheduler.

A run is any sequence of ticks, startup reconciliations and toggles, at times that never go back.
What a schedule has fired is read off the requests of the ticks; the count on the schedule itself
follows them up to the largest number it can hold.

Main results:

* `Schedule.Run.accounted` — **accounting** of one schedule over a run;
* `Schedule.count_saturates` — a count at the largest number no longer follows the fires.
-/

import Wardian.Schedule.Planner

set_option autoImplicit false

namespace Wardian.Schedule

open List

variable {D : Type} [LT D] [LE D] [DecidableLT D] [DecidableLE D]

/-! ### Runs -/

/-- A tick: when it ran, the schedules that it found, and the requests that it emitted. -/
structure Tick where
  now : UInt64
  before : List AutomationSchedule
  requests : List FireRequest

/-- From `start`, the scheduler reaches a list of schedules at a time, having made some ticks. -/
inductive Run (cal : Calendar D) (start : List AutomationSchedule) :
    UInt64 → List AutomationSchedule → List Tick → Prop
  | start (now : UInt64) : Run cal start now start []
  | tick {before now : UInt64} {schedules : List AutomationSchedule} {ticks : List Tick} :
      Run cal start before schedules ticks → before ≤ now →
      Run cal start now (planTick cal schedules now).1
        (ticks ++ [⟨now, schedules, (planTick cal schedules now).2⟩])
  | reconcile {before cutoff : UInt64} {schedules : List AutomationSchedule} {ticks : List Tick} :
      Run cal start before schedules ticks → before ≤ cutoff →
      Run cal start cutoff (reconcileStartupSchedules cal schedules cutoff).1 ticks
  | pause {before now : UInt64} {schedules : List AutomationSchedule} {ticks : List Tick}
      (id : String) :
      Run cal start before schedules ticks → before ≤ now →
      Run cal start now (schedulePause id now schedules) ticks
  | resume {before now : UInt64} {schedules : List AutomationSchedule} {ticks : List Tick}
      (id : String) :
      Run cal start before schedules ticks → before ≤ now →
      Run cal start now (scheduleResume cal id now schedules) ticks
  | runNow {before now : UInt64} {schedules : List AutomationSchedule} {ticks : List Tick}
      (id : String) :
      Run cal start before schedules ticks → before ≤ now →
      Run cal start now (scheduleRunNow id now schedules) ticks

/-- How often the requests name a schedule. -/
def requestsOf (id : String) (requests : List FireRequest) : Nat :=
  requests.countP fun request => request.scheduleId == id

/-- How often a schedule has fired in the ticks of a run. -/
def firesOf (id : String) (ticks : List Tick) : Nat :=
  (ticks.map fun tick => requestsOf id tick.requests).sum

/-! ### Identifiers -/

/-- The identifiers of some schedules. -/
def ids (schedules : List AutomationSchedule) : List String :=
  schedules.map AutomationSchedule.id

variable {cal : Calendar D} {schedules start final : List AutomationSchedule} {now : UInt64}
  {ticks : List Tick} {id : String} {schedule : AutomationSchedule}

variable {plan : AutomationSchedule → Planned}

/-- What a planner keeps comes from the schedules that it was given. -/
theorem mem_retainPlanned (hid : ∀ schedule, (plan schedule).schedule.id = schedule.id)
    (h : schedule ∈ retainPlanned (schedules.map plan)) :
    ∃ old ∈ schedules, (plan old).schedule = schedule ∧
      ∀ other ∈ schedules, other.id = old.id → (plan other).remove = false := by
  simp only [retainPlanned, mem_filter, mem_map, map_map] at h
  obtain ⟨⟨old, hold, rfl⟩, hkept⟩ := h
  refine ⟨old, hold, rfl, fun other hoth hsame => ?_⟩
  by_contra hremove
  simp only [contains_eq_mem, mem_map, mem_filter, Bool.not_eq_true',
    decide_eq_false_iff_not, not_exists, not_and] at hkept
  exact hkept (plan other) ⟨⟨other, hoth, rfl⟩, by simpa using hremove⟩
    (by rw [hid, hsame]; exact (hid old).symm)

theorem ids_retainPlanned (hid : ∀ schedule, (plan schedule).schedule.id = schedule.id) :
    (ids (retainPlanned (schedules.map plan))).Sublist (ids schedules) := by
  have hmap : ids ((schedules.map plan).map Planned.schedule) = ids schedules := by
    simp [ids, Function.comp_def, hid]
  rw [← hmap]
  exact (filter_sublist).map _

variable {f : AutomationSchedule → AutomationSchedule}

theorem ids_mutateSchedule (hid : ∀ schedule, (f schedule).id = schedule.id) :
    ids (mutateSchedule id f schedules) = ids schedules := by
  induction schedules with
  | nil => rfl
  | cons schedule schedules ih =>
    unfold mutateSchedule
    split
    · simp [ids, hid]
    · simpa [ids] using ih

theorem mem_mutateSchedule (h : schedule ∈ mutateSchedule id f schedules) :
    schedule ∈ schedules ∨ ∃ old ∈ schedules, f old = schedule := by
  induction schedules with
  | nil => exact .inl h
  | cons first schedules ih =>
    unfold mutateSchedule at h
    split at h
    · rcases mem_cons.1 h with rfl | h
      · exact .inr ⟨first, mem_cons_self, rfl⟩
      · exact .inl (mem_cons_of_mem _ h)
    · rcases mem_cons.1 h with rfl | h
      · exact .inl mem_cons_self
      · rcases ih h with h | ⟨old, hold, hf⟩
        · exact .inl (mem_cons_of_mem _ h)
        · exact .inr ⟨old, mem_cons_of_mem _ hold, hf⟩

/-- A toggle of the operator, on a list of schedules. -/
def IsToggle (id : String) (f : List AutomationSchedule → List AutomationSchedule) : Prop :=
  ∃ g : AutomationSchedule → AutomationSchedule,
    (∀ schedule, (g schedule).id = schedule.id ∧ (g schedule).schedule = schedule.schedule) ∧
      f = mutateSchedule id g

theorem isToggle_pause : IsToggle id (schedulePause id now) := by
  refine ⟨_, ?_, rfl⟩
  exact fun _ => ⟨rfl, rfl⟩

omit [LT D] [LE D] [DecidableLT D] [DecidableLE D] in
theorem isToggle_resume : IsToggle id (scheduleResume cal id now) := by
  refine ⟨_, ?_, rfl⟩
  exact fun _ => ⟨rfl, rfl⟩

theorem isToggle_runNow : IsToggle id (scheduleRunNow id now) := by
  refine ⟨_, ?_, rfl⟩
  exact fun _ => ⟨rfl, rfl⟩

theorem IsToggle.ids {f : List AutomationSchedule → List AutomationSchedule} (h : IsToggle id f) :
    ids (f schedules) = ids schedules := by
  obtain ⟨g, hg, rfl⟩ := h
  exact ids_mutateSchedule fun schedule => (hg schedule).1

/-- A toggle leaves what each schedule is and how often it has fired. -/
theorem IsToggle.mem {f : List AutomationSchedule → List AutomationSchedule} (h : IsToggle id f)
    (hmem : schedule ∈ f schedules) :
    ∃ old ∈ schedules, schedule.id = old.id ∧ schedule.schedule = old.schedule := by
  obtain ⟨g, hg, rfl⟩ := h
  rcases mem_mutateSchedule hmem with hold | ⟨old, hold, rfl⟩
  · exact ⟨schedule, hold, rfl, rfl⟩
  · exact ⟨old, hold, hg old⟩

theorem Run.nodup (hids : (ids start).Nodup) (h : Run cal start now schedules ticks) :
    (ids schedules).Nodup := by
  induction h with
  | start => exact hids
  | tick _ _ ih => exact ih.sublist (ids_retainPlanned fun _ => planOne_id)
  | reconcile _ _ ih => exact ih.sublist (ids_retainPlanned fun _ => reconcileOne_id)
  | pause id _ _ ih => exact isToggle_pause.ids.symm ▸ ih
  | @resume _ now _ _ id _ _ ih =>
    have htog : IsToggle id (scheduleResume cal id now) := isToggle_resume
    exact htog.ids.symm ▸ ih
  | runNow id _ _ ih => exact isToggle_runNow.ids.symm ▸ ih

/-! ### One tick -/

theorem ids_requests (cal : Calendar D) (schedules : List AutomationSchedule) (now : UInt64) :
    ((planTick cal schedules now).2.map FireRequest.scheduleId).Sublist (ids schedules) := by
  induction schedules with
  | nil => exact Sublist.refl _
  | cons schedule schedules ih =>
    simp only [planTick, map_cons, filterMap_cons] at ih ⊢
    rcases planOne_cases cal now schedule with ⟨hreq, -, -⟩ | ⟨hreq, -, -, -⟩
    · rw [hreq]
      exact ih.cons _
    · rw [hreq]
      exact ih.cons_cons _

theorem requestsOf_le_one (hids : (ids schedules).Nodup) :
    requestsOf id (planTick cal schedules now).2 ≤ 1 := by
  have hndp := hids.sublist (ids_requests cal schedules now)
  have hcnt : requestsOf id (planTick cal schedules now).2 =
      ((planTick cal schedules now).2.map FireRequest.scheduleId).count id := by
    rw [List.count, countP_map]
    rfl
  rw [hcnt]
  exact nodup_iff_count_le_one.1 hndp id

/-- The requests of a tick are those of the schedules that fire. -/
theorem mem_requests {request : FireRequest} (h : request ∈ (planTick cal schedules now).2) :
    ∃ schedule ∈ schedules, request = fireRequest schedule ∧ Fires cal now schedule ∧
      (planOne cal now schedule).request = some request := by
  simp only [planTick, mem_filterMap, mem_map] at h
  obtain ⟨_, ⟨schedule, hsched, rfl⟩, hreq⟩ := h
  rcases planOne_cases cal now schedule with ⟨hnone, -, -⟩ | ⟨hsome, hfires, -, -⟩
  · rw [hnone] at hreq
    cases hreq
  · rw [hsome, Option.some.injEq] at hreq
    exact ⟨schedule, hsched, hreq.symm, hfires, hreq ▸ hsome⟩

theorem eq_of_id (hids : (ids schedules).Nodup) {a b : AutomationSchedule} (ha : a ∈ schedules)
    (hb : b ∈ schedules) (hid : a.id = b.id) : a = b :=
  inj_on_of_nodup_map hids ha hb hid

/-- A schedule that has not fired in a tick is named by none of its requests. -/
theorem requestsOf_eq_zero (hids : (ids schedules).Nodup) (hmem : schedule ∈ schedules)
    (h : (planOne cal now schedule).request = none) :
    requestsOf schedule.id (planTick cal schedules now).2 = 0 := by
  refine countP_eq_zero.2 fun request hreq hname => ?_
  obtain ⟨other, hoth, heq, -, hsome⟩ := mem_requests hreq
  have hsame : other.id = schedule.id := by
    rw [heq] at hname
    simpa [fireRequest] using hname
  rw [eq_of_id hids hoth hmem hsame, h] at hsome
  cases hsome

theorem requestsOf_eq_one (hids : (ids schedules).Nodup) (hmem : schedule ∈ schedules)
    (h : (planOne cal now schedule).request = some (fireRequest schedule)) :
    requestsOf schedule.id (planTick cal schedules now).2 = 1 := by
  refine Nat.le_antisymm (requestsOf_le_one hids) (countP_pos_iff.2 ⟨fireRequest schedule, ?_, ?_⟩)
  · simp only [planTick, mem_filterMap, mem_map]
    exact ⟨_, ⟨schedule, hmem, rfl⟩, h⟩
  · simp [fireRequest]

@[simp] theorem firesOf_append {tick : Tick} :
    firesOf id (ticks ++ [tick]) = firesOf id ticks + requestsOf id tick.requests := by
  simp [firesOf]

/-- What a reconciliation keeps comes from the schedules that it was given, with another next run
and another status at most. -/
theorem mem_reconcile {cutoff : UInt64} (h : schedule ∈ (reconcileStartupSchedules cal schedules cutoff).1) :
    ∃ old ∈ schedules, ∃ nextRun status,
      schedule = { old with nextRunEpochMs := nextRun, lastRunStatus := status } := by
  obtain ⟨old, hold, rfl, -⟩ := mem_retainPlanned (fun _ => reconcileOne_id) h
  obtain ⟨nextRun, status, heq⟩ := reconcileOne_same cal cutoff old
  exact ⟨old, hold, nextRun, status, heq⟩

/-! ### One schedule over a run -/

/-- What a run knows of a schedule of its start: it is what it was but for its count, which has
followed the fires; and it has not fired more often than its end allows. -/
structure Accounted (first : AutomationSchedule) (schedules : List AutomationSchedule)
    (ticks : List Tick) : Prop where
  definition : ∀ schedule ∈ schedules, schedule.id = first.id →
    schedule.schedule =
      { first.schedule with occurrenceCount := schedule.schedule.occurrenceCount }
  count : ∀ schedule ∈ schedules, schedule.id = first.id →
    schedule.schedule.occurrenceCount.toNat =
      min (first.schedule.occurrenceCount.toNat + firesOf first.id ticks) (2 ^ 32 - 1)
  bounded : ∀ most, first.schedule.endCondition = "after_occurrences" →
    first.schedule.maxOccurrences = some most →
    firesOf first.id ticks ≤ most.toNat - first.schedule.occurrenceCount.toNat
  once : first.schedule.scheduleType = "one_time" → firesOf first.id ticks ≤ 1
  gone : first.schedule.scheduleType = "one_time" → 0 < firesOf first.id ticks →
    ∀ schedule ∈ schedules, schedule.id ≠ first.id

namespace Accounted

variable {first : AutomationSchedule} {schedules' : List AutomationSchedule}

theorem initial (hids : (ids start).Nodup) (hfst : first ∈ start) : Accounted first start [] where
  definition schedule hmem hid := by rw [eq_of_id hids hmem hfst hid]
  count schedule hmem hid := by
    have hlt := first.schedule.occurrenceCount.toNat_lt
    rw [eq_of_id hids hmem hfst hid]
    simp only [firesOf, map_nil, sum_nil]
    omega
  bounded _ _ _ := Nat.zero_le _
  once _ := Nat.zero_le _
  gone _ h := absurd h (Nat.lt_irrefl 0)

theorem quiet (h : Accounted first schedules ticks)
    (hsame : ∀ schedule ∈ schedules', ∃ old ∈ schedules, schedule.id = old.id ∧
      schedule.schedule = old.schedule) : Accounted first schedules' ticks where
  definition schedule hmem hid := by
    obtain ⟨old, hold, hidold, heq⟩ := hsame schedule hmem
    rw [heq]
    exact h.definition old hold (hidold.symm.trans hid)
  count schedule hmem hid := by
    obtain ⟨old, hold, hidold, heq⟩ := hsame schedule hmem
    rw [heq]
    exact h.count old hold (hidold.symm.trans hid)
  bounded := h.bounded
  once := h.once
  gone htype hfired schedule hmem hid := by
    obtain ⟨old, hold, hidold, -⟩ := hsame schedule hmem
    exact h.gone htype hfired old hold (hidold.symm.trans hid)

theorem exists_fires (hpos : 0 < requestsOf id (planTick cal schedules now).2) :
    ∃ schedule ∈ schedules, schedule.id = id ∧ Fires cal now schedule := by
  obtain ⟨request, hreq, hname⟩ := countP_pos_iff.1 hpos
  obtain ⟨schedule, hmem, rfl, hfires, -⟩ := mem_requests hreq
  exact ⟨schedule, hmem, by simpa [fireRequest] using hname, hfires⟩

omit [LE D] [DecidableLE D] in
/-- A schedule with a bound that fires has fired less often than the bound. -/
theorem lt_of_fires (h : Accounted first schedules ticks) {most : UInt32}
    (hend : first.schedule.endCondition = "after_occurrences")
    (hmost : first.schedule.maxOccurrences = some most) (hmem : schedule ∈ schedules)
    (hid : schedule.id = first.id) (hfires : Fires cal now schedule) :
    first.schedule.occurrenceCount.toNat + firesOf first.id ticks < most.toNat := by
  have hexprd := hfires.2.2.1
  have hcnt := h.count schedule hmem hid
  have hdef := h.definition schedule hmem hid
  have hlt : schedule.schedule.occurrenceCount < most := by
    have hend' : schedule.schedule.endCondition = "after_occurrences" := by rw [hdef]; exact hend
    have hmost' : schedule.schedule.maxOccurrences = some most := by rw [hdef]; exact hmost
    simpa [isExpired, hend', hmost'] using hexprd
  have hnat : schedule.schedule.occurrenceCount.toNat < most.toNat := UInt32.lt_iff_toNat_lt.1 hlt
  have hmax := most.toNat_lt
  omega

theorem tick (h : Accounted first schedules ticks) (hids : (ids schedules).Nodup) :
    Accounted first (planTick cal schedules now).1
      (ticks ++ [⟨now, schedules, (planTick cal schedules now).2⟩]) := by
  have hle : requestsOf first.id (planTick cal schedules now).2 ≤ 1 := requestsOf_le_one hids
  -- A schedule that is kept either did not fire, or fired and is not a one-time schedule.
  have hkept : ∀ schedule ∈ (planTick cal schedules now).1, schedule.id = first.id →
      ∃ old ∈ schedules, old.id = first.id ∧
        ((requestsOf first.id (planTick cal schedules now).2 = 0 ∧
            schedule.schedule = old.schedule) ∨
          (requestsOf first.id (planTick cal schedules now).2 = 1 ∧
            schedule.schedule = (countFire old now).schedule ∧
            old.schedule.scheduleType ≠ "one_time")) := by
    intro schedule hmem hid
    obtain ⟨old, hold, heq, hremove⟩ := mem_retainPlanned (fun _ => planOne_id) hmem
    have hidold : old.id = first.id := by rw [← hid, ← heq, planOne_id]
    refine ⟨old, hold, hidold, ?_⟩
    rw [← hidold]
    rcases planOne_cases cal now old with ⟨hnone, -, hsame⟩ | ⟨hsome, -, hadvd, hrem⟩
    · exact .inl ⟨requestsOf_eq_zero hids hold hnone, by rw [← heq, hsame]⟩
    · refine .inr ⟨requestsOf_eq_one hids hold hsome, ?_, fun htype => ?_⟩
      · rw [← heq, hadvd, advanceAfterFire_schedule]
      · have hkeeps := hremove old hold rfl
        rw [hrem, advanceAfterFire_oneTime htype] at hkeeps
        cases hkeeps
  refine ⟨fun schedule hmem hid => ?_, fun schedule hmem hid => ?_, fun most hend hmost => ?_,
    fun htype => ?_, fun htype hfired schedule hmem hid => ?_⟩
  · obtain ⟨old, hold, hidold, ⟨-, heq⟩ | ⟨-, heq, -⟩⟩ := hkept schedule hmem hid
    · rw [heq]
      exact h.definition old hold hidold
    · rw [heq, countFire, h.definition old hold hidold]
  · rw [firesOf_append]
    obtain ⟨old, hold, hidold, ⟨hzero, heq⟩ | ⟨hone, heq, -⟩⟩ := hkept schedule hmem hid
    · rw [heq, h.count old hold hidold, hzero, Nat.add_zero]
    · have hcnt := h.count old hold hidold
      rw [heq, countFire, hone]
      simp only [saturatingSucc_toNat]
      omega
  · rw [firesOf_append]
    by_cases hpos : 0 < requestsOf first.id (planTick cal schedules now).2
    · obtain ⟨schedule, hmem, hid, hfires⟩ := exists_fires hpos
      have hlt := h.lt_of_fires hend hmost hmem hid hfires
      dsimp only
      omega
    · have hbnd := h.bounded most hend hmost
      dsimp only
      omega
  · rw [firesOf_append]
    by_cases hpos : 0 < requestsOf first.id (planTick cal schedules now).2
    · obtain ⟨schedule, hmem, hid, -⟩ := exists_fires hpos
      have hnone : ¬0 < firesOf first.id ticks := fun hfired => h.gone htype hfired schedule hmem hid
      dsimp only
      omega
    · have hbnd := h.once htype
      dsimp only
      omega
  · obtain ⟨old, hold, hidold, ⟨hzero, -⟩ | ⟨-, -, hnot⟩⟩ := hkept schedule hmem hid
    · rw [firesOf_append] at hfired
      exact h.gone htype (by dsimp only at hfired; omega) old hold hidold
    · rw [h.definition old hold hidold] at hnot
      exact hnot htype

end Accounted

/-- **Accounting** of a schedule of the start over a whole run. -/
theorem Run.accounted {first : AutomationSchedule} (hids : (ids start).Nodup)
    (h : Run cal start now schedules ticks) (hfst : first ∈ start) : Accounted first schedules ticks := by
  induction h with
  | start => exact .initial hids hfst
  | tick hrun _ ih => exact ih.tick (hrun.nodup hids)
  | reconcile _ _ ih =>
    refine ih.quiet fun schedule hmem => ?_
    obtain ⟨old, hold, nextRun, status, rfl⟩ := mem_reconcile hmem
    exact ⟨old, hold, rfl, rfl⟩
  | pause id _ _ ih => exact ih.quiet fun _ hmem => isToggle_pause.mem hmem
  | resume id _ _ ih => exact ih.quiet fun _ hmem => isToggle_resume.mem hmem
  | runNow id _ _ ih => exact ih.quiet fun _ hmem => isToggle_runNow.mem hmem

/-- Every tick of a run emitted what the planner makes of the schedules that it found. -/
theorem Run.tick_mem (hids : (ids start).Nodup) (h : Run cal start now schedules ticks) {tick : Tick}
    (htick : tick ∈ ticks) :
    tick.requests = (planTick cal tick.before tick.now).2 ∧ (ids tick.before).Nodup := by
  induction h with
  | start => cases htick
  | tick hrun _ ih =>
    rcases mem_append.1 htick with hold | hlast
    · exact ih hold
    · rw [mem_singleton.1 hlast]
      exact ⟨rfl, hrun.nodup hids⟩
  | reconcile _ _ ih | pause _ _ _ ih | resume _ _ _ ih | runNow _ _ _ ih => exact ih htick

/-- The local date of an instant is after the end date of a schedule that ends on a date. -/
def AfterEndDate (cal : Calendar D) (schedule : ScheduleDefinition) (nowMs : UInt64) : Prop :=
  schedule.endCondition = "on_date" ∧ ∃ text last date, schedule.endDate = some text ∧
    cal.parseDate text = some last ∧ localDatetimeAt cal nowMs = some date ∧ last < date.2

omit [LE D] [DecidableLE D] in
theorem not_afterEndDate (h : Fires cal now schedule) : ¬AfterEndDate cal schedule.schedule now := by
  rintro ⟨hend, text, last, ⟨ms, date⟩, htext, hlast, hdate, hlt⟩
  -- Such an instant fits a signed number, so both conversions give the same one.
  obtain ⟨signed, hsigned, hlocal⟩ : ∃ signed, tryI64 now = some signed ∧
      cal.localDate signed = some date := by
    simp only [localDatetimeAt, Option.bind_eq_bind, Option.bind_eq_some_iff] at hdate
    obtain ⟨signed, hsigned, local', hlocal, heq⟩ := hdate
    simp only [Option.pure_def, Option.some.injEq, Prod.mk.injEq] at heq
    exact ⟨signed, hsigned, heq.2 ▸ hlocal⟩
  have hsame : asI64 now = signed := by
    unfold tryI64 at hsigned
    split at hsigned
    · rename_i hfits
      rw [asI64, if_pos hfits]
      exact Option.some.inj hsigned
    · cases hsigned
  have hexprd := h.2.2.1
  simp only [isExpired, hend, htext, Option.any_some, hsame, hlocal, hlast,
    decide_eq_false_iff_not] at hexprd
  exact hexprd hlt

/-- **Accounting over whole runs.**  A bounded schedule fires no more often than its bound leaves,
nothing fires while it is paused or inactive or after its end date, a tick emits at most one request
for a schedule, a one-time schedule fires at most once and is gone then, a count follows the fires
up to the largest number, and a reconciliation changes no count and no record of the last run. -/
theorem Run.fires_accounted (hids : (ids start).Nodup) (h : Run cal start now final ticks) :
    (∀ first ∈ start, ∀ most, first.schedule.endCondition = "after_occurrences" →
      first.schedule.maxOccurrences = some most →
      firesOf first.id ticks ≤ most.toNat - first.schedule.occurrenceCount.toNat) ∧
    (∀ tick ∈ ticks, ∀ request ∈ tick.requests, ∃ schedule ∈ tick.before,
      request = fireRequest schedule ∧ schedule.isPaused = false ∧
        schedule.schedule.active = true ∧ ¬AfterEndDate cal schedule.schedule tick.now) ∧
    (∀ tick ∈ ticks, ∀ id, requestsOf id tick.requests ≤ 1) ∧
    (∀ first ∈ start, first.schedule.scheduleType = "one_time" →
      firesOf first.id ticks ≤ 1 ∧
        (0 < firesOf first.id ticks → ∀ schedule ∈ final, schedule.id ≠ first.id)) ∧
    (∀ first ∈ start, ∀ schedule ∈ final, schedule.id = first.id →
      schedule.schedule.occurrenceCount.toNat =
        min (first.schedule.occurrenceCount.toNat + firesOf first.id ticks) (2 ^ 32 - 1)) ∧
    (∀ cutoff, ∀ schedule ∈ (reconcileStartupSchedules cal final cutoff).1, ∃ old ∈ final,
      schedule.id = old.id ∧
        schedule.schedule.occurrenceCount = old.schedule.occurrenceCount ∧
        schedule.lastRunError = old.lastRunError ∧
        schedule.lastRunEpochMs = old.lastRunEpochMs) := by
  refine ⟨fun first hfst => (h.accounted hids hfst).bounded, fun tick htick request hreq => ?_,
    fun tick htick id => ?_, fun first hfst htype => ?_,
    fun first hfst => (h.accounted hids hfst).count, fun cutoff schedule hmem => ?_⟩
  · rw [(h.tick_mem hids htick).1] at hreq
    obtain ⟨schedule, hmem, heq, hfires, -⟩ := mem_requests hreq
    exact ⟨schedule, hmem, heq, hfires.2.1, hfires.1, not_afterEndDate hfires⟩
  · obtain ⟨heq, hndp⟩ := h.tick_mem hids htick
    rw [heq]
    exact requestsOf_le_one hndp
  · have hacco := h.accounted hids hfst
    exact ⟨hacco.once htype, hacco.gone htype⟩
  · obtain ⟨old, hold, nextRun, status, rfl⟩ := mem_reconcile hmem
    exact ⟨old, hold, rfl, rfl, rfl, rfl⟩

/-! ### A count at the largest number -/

/-- A calendar that is never asked. -/
def noCalendar : Calendar Nat where
  localDate _ := none
  addDays _ _ := 0
  weekday _ := .mon
  weeksSinceEpoch _ := 0
  year _ := 0
  month _ := 1
  fromYmd _ _ _ := none
  earliest _ _ _ := none
  parseDate _ := none
  parseRfc3339 _ := none
  parseLocalMinute _ := none

/-- An hourly schedule that is due at instant 0 and has fired as often as a count can hold. -/
def wornSchedule : AutomationSchedule where
  id := "worn"
  blueprintId := "heartbeat"
  name := "Heartbeat"
  provider := none
  workspace := none
  input := .null
  bindings := ∅
  assignments := ∅
  schedule :=
    { scheduleType := "interval", intervalMinutes := some 60, timeOfDay := none,
      daysOfWeek := none, repeatEvery := 1, daysOfMonth := none, specificDates := none,
      runAt := none, endCondition := "never", endDate := none, maxOccurrences := none,
      occurrenceCount := 4294967295, active := true }
  nextRunEpochMs := some 0
  pausedRemainingMs := none
  isPaused := false
  lastRunStatus := none
  lastRunError := none
  lastRunEpochMs := none

/-- The ticks of a run of one tick. -/
def wornTicks : List Tick := [⟨0, [wornSchedule], (planTick noCalendar [wornSchedule] 0).2⟩]

theorem run_wornSchedule :
    Run noCalendar [wornSchedule] 0 (planTick noCalendar [wornSchedule] 0).1 wornTicks :=
  .tick (.start 0) (by decide)

/-- An hourly schedule that may fire twice, and one that fires once. -/
def boundedSchedules : List AutomationSchedule :=
  [{ wornSchedule with
      id := "hourly"
      schedule := { wornSchedule.schedule with
        endCondition := "after_occurrences", maxOccurrences := some 2, occurrenceCount := 0 } },
    { wornSchedule with
      id := "once"
      schedule := { wornSchedule.schedule with scheduleType := "one_time", occurrenceCount := 0 } }]

/-- Both fire at once.  Then the hourly one is paused for a tick, and resumed; it fires once more. -/
theorem fires_accounted_boundedSchedules : ∃ final ticks,
    Run noCalendar boundedSchedules 10900000 final ticks ∧
      firesOf "hourly" ticks = 2 ∧ firesOf "once" ticks = 1 ∧ firesOf "hourly" ticks ≤ 2 ∧
      ∀ schedule ∈ final, schedule.id ≠ "once" := by
  have hfrd : Run noCalendar boundedSchedules 0 _ _ := .tick (.start 0) (by decide)
  have hpsd : Run noCalendar boundedSchedules 1000 _ _ := .pause "hourly" hfrd (by decide)
  have hwait : Run noCalendar boundedSchedules 3600000 _ _ := .tick hpsd (by decide)
  have hrsmd : Run noCalendar boundedSchedules 3700000 _ _ := .resume "hourly" hwait (by decide)
  have hagain : Run noCalendar boundedSchedules 7299000 _ _ := .tick hrsmd (by decide)
  have hrun : Run noCalendar boundedSchedules 10900000 _ _ := .tick hagain (by decide)
  obtain ⟨hbnd, -, -, honce, -⟩ := hrun.fires_accounted (by decide)
  refine ⟨_, _, hrun, by decide, by decide, ?_, ?_⟩
  · exact hbnd _ mem_cons_self 2 rfl rfl
  · exact (honce _ (mem_cons_of_mem _ mem_cons_self) rfl).2 (by decide)

/-- **The saturated count.**  The schedule fires once, and its count stays. -/
theorem count_saturates :
    Run noCalendar [wornSchedule] 0 (planTick noCalendar [wornSchedule] 0).1 wornTicks ∧
      firesOf "worn" wornTicks = 1 ∧
      ((planTick noCalendar [wornSchedule] 0).1.map fun schedule =>
        (schedule.id, schedule.schedule.occurrenceCount)) = [("worn", 4294967295)] :=
  ⟨run_wornSchedule, by decide, by decide⟩

end Wardian.Schedule
