/-
The next run of a schedule as the next occurrence of its rule.

A rule names local dates and a time of day, in a zone whose clocks may change at any second.  What the
scheduler computes is the least of the instants that it looks at; it is the next occurrence exactly when
these are, near enough, the occurrences.

Main results:

* `Schedule.isNext_iff` — two sets of instants have the same least one;
* `Schedule.nextRun_isNext_iff` — the next run is the next occurrence exactly where the zone is regular.
-/

import Wardian.Lib.Civil
import Wardian.Schedule.Validation
import Mathlib.Tactic.IntervalCases

set_option autoImplicit false

namespace Wardian.Schedule

open Civil
open List

/-! ### The calendar of a zone -/

/-- The readers of texts with dates; an instant is a signed number of 64 bits. -/
structure Formats where
  parseDate : String → Option Int
  parseRfc3339 : String → Option Int
  parseLocalMinute : String → Option (Int × Nat × Nat)
  range : ∀ text ms, parseRfc3339 text = some ms → -2 ^ 63 ≤ ms ∧ ms < 2 ^ 63

def weekdayOf (date : Int) : Weekday :=
  match (Civil.weekday date).toNat with
  | 0 => .mon
  | 1 => .tue
  | 2 => .wed
  | 3 => .thu
  | 4 => .fri
  | 5 => .sat
  | _ => .sun

/-- The number of a day of the week, from Monday on. -/
def Weekday.index : Weekday → Nat
  | .mon => 0
  | .tue => 1
  | .wed => 2
  | .thu => 3
  | .fri => 4
  | .sat => 5
  | .sun => 6

theorem weekdayOf_index (date : Int) : ((weekdayOf date).index : Int) = Civil.weekday date := by
  have hlow : 0 ≤ Civil.weekday date := Int.emod_nonneg _ (by decide)
  have hhigh : Civil.weekday date < 7 := Int.emod_lt_of_pos _ (by decide)
  unfold weekdayOf
  generalize hn : (Civil.weekday date).toNat = n
  have heq : Civil.weekday date = n := by omega
  have hlt : n < 7 := by omega
  rw [heq]
  interval_cases n <;> rfl

/-- The number of 3 January 2000, a Monday. -/
def epochMonday : Int := 10959

/-- A time of a date, as the second at which universal time reads the same. -/
def clockAt (hour minute : Nat) (date : Int) : Int := date * 86400 + hour * 3600 + minute * 60

/-- The calendar of a zone; whole weeks are counted towards zero. -/
def localCalendar (formats : Formats) (zone : Zone) : Calendar Int where
  localDate := fun now => some (zone.dateOf now)
  addDays := fun now days => zone.dateOf (now + 86400000 * days)
  weekday := weekdayOf
  weeksSinceEpoch := fun date => (date - epochMonday).tdiv 7
  year := Civil.year
  month := Civil.month
  fromYmd := Civil.fromYmd
  earliest := fun date hour minute => zone.earliest (clockAt hour minute date)
  parseDate := formats.parseDate
  parseRfc3339 := formats.parseRfc3339
  parseLocalMinute := formats.parseLocalMinute

/-! ### The occurrences of a rule -/

section

variable (formats : Formats) (zone : Zone) (schedule : ScheduleDefinition)

/-- The instant of a date at the time of day of the schedule. -/
def instantOn (date : Int) : Option Int :=
  zone.earliest (clockAt (looseHourMinute schedule.timeOfDay).1 (looseHourMinute schedule.timeOfDay).2 date)

/-- The days that a weekly schedule is searched for. -/
def searchDays : Int := schedule.repeatEvery.toNat * 7 + 7

/-- A weekly schedule runs on a date: its day of the week is named, and its week, counted from 3 January
2000, is one of those that repeat. -/
def RunsWeekly (date : Int) : Prop :=
  (∃ names, schedule.daysOfWeek = some names ∧ ∃ name ∈ names, dayMap name = some (weekdayOf date)) ∧
    (date - epochMonday) / 7 % schedule.repeatEvery.toNat = 0

/-- A date of the month that is some months after that of another date. -/
def MonthDay (today : Int) (months : Nat) (date : Int) : Prop :=
  ∃ days, schedule.daysOfMonth = some days ∧ ∃ day ∈ days,
    Civil.fromYmd (Civil.year today + ((Civil.month today + months - 1) / 12 : Nat))
      ((Civil.month today + months - 1) % 12 + 1) day.toNat = some date

def SpecificDate (date : Int) : Prop :=
  ∃ texts, schedule.specificDates = some texts ∧ ∃ text ∈ texts, formats.parseDate text = some date

/-- The instant of a one-time schedule: that of its text, or the first one of the local time it names. -/
def runInstant : Option Int :=
  match formats.parseRfc3339 (schedule.runAt.getD "") with
  | some ms => some ms
  | none => (formats.parseLocalMinute (schedule.runAt.getD "")).bind fun (date, hour, minute) =>
    zone.earliest (clockAt hour minute date)

/-- The dates of a rule, from a date on and as far as the rule is searched. -/
def RuleDate (today date : Int) : Prop :=
  match schedule.scheduleType with
  | "daily" => today ≤ date
  | "weekly" => (today ≤ date ∧ date < today + searchDays schedule) ∧ RunsWeekly schedule date
  | "monthly" => ∃ months < 3, MonthDay schedule today months date
  | "specific_dates" => SpecificDate formats schedule date
  | _ => False

/-- An instant at which the schedule should run. -/
def Occurrence (nowMs : UInt64) (ms : Int) : Prop :=
  match schedule.scheduleType with
  | "one_time" => runInstant formats zone schedule = some ms
  | _ => ∃ date, RuleDate formats schedule (zone.dateOf nowMs.toNat) date ∧
      instantOn zone schedule date = some ms

end

/-- An instant that follows the boundary. -/
def Later (inclusive : Bool) (nowMs : UInt64) (ms : Int) : Prop :=
  if inclusive then nowMs.toNat ≤ ms else nowMs.toNat < ms

/-- The result is the least of some instants, if there is any. -/
def IsNext (instants : Set Int) (result : Option UInt64) : Prop :=
  (∀ ms, result = some ms → IsLeast instants ms.toNat) ∧ (result = none → instants = ∅)

/-- For every instant of the second set there is one of the first that does not come later. -/
def Covers (first second : Set Int) : Prop := ∀ x ∈ second, ∃ y ∈ first, y ≤ x

theorem isNext_some {instants : Set Int} {ms : UInt64} :
    IsNext instants (some ms) ↔ IsLeast instants ms.toNat := by
  constructor
  · intro h
    exact h.1 ms rfl
  · intro h
    refine ⟨?_, fun hnone => absurd hnone (Option.some_ne_none ms)⟩
    intro other hoth
    rw [← Option.some_inj.mp hoth]
    exact h

theorem isNext_none {instants : Set Int} : IsNext instants none ↔ instants = ∅ := by
  constructor
  · intro h
    exact h.2 rfl
  · intro h
    exact ⟨fun ms hms => absurd hms (Option.some_ne_none ms).symm, fun _ => h⟩

/-- Two sets have the same least instant where each covers the other. -/
theorem isNext_iff {first second : Set Int} {result : Option UInt64} (h : IsNext first result) :
    IsNext second result ↔ Covers first second ∧ Covers second first := by
  cases result with
  | none =>
    rw [isNext_none] at h
    rw [isNext_none]
    constructor
    · intro hemp
      rw [h, hemp]
      exact ⟨fun _ hx => absurd hx (Set.notMem_empty _), fun _ hx => absurd hx (Set.notMem_empty _)⟩
    · rintro ⟨hcovs, -⟩
      rw [Set.eq_empty_iff_forall_notMem]
      intro x hx
      obtain ⟨y, hy, -⟩ := hcovs x hx
      rw [h] at hy
      exact absurd hy (Set.notMem_empty y)
  | some ms =>
    rw [isNext_some] at h
    rw [isNext_some]
    constructor
    · intro hleast
      exact ⟨fun x hx => ⟨_, h.1, hleast.2 hx⟩, fun x hx => ⟨_, hleast.1, h.2 hx⟩⟩
    · rintro ⟨hcovs, hcovd⟩
      have hbnd : ∀ x ∈ second, (ms.toNat : Int) ≤ x := by
        intro x hx
        obtain ⟨y, hy, hle⟩ := hcovs x hx
        exact (h.2 hy).trans hle
      obtain ⟨x, hx, hle⟩ := hcovd _ h.1
      rw [← le_antisymm hle (hbnd x hx)]
      exact ⟨hx, fun z hz => hle.trans (hbnd z hz)⟩

/-! ### What the zone has to be like -/

section

variable (formats : Formats) (zone : Zone) (schedule : ScheduleDefinition) (nowMs : UInt64)
  (inclusive : Bool)

/-- The schedule has a time on a date, and it lies ahead. -/
def LaterOn (date ms : Int) : Prop := instantOn zone schedule date = some ms ∧ Later inclusive nowMs ms

/-- The present local date. -/
def today : Int := zone.dateOf nowMs.toNat

/-- The time of day comes today, and before those of later dates as long as it is ahead; once it has
passed, the next one is exactly a day of 24 hours after it. -/
structure DailyRegular : Prop where
  missing : instantOn zone schedule (today zone nowMs) = none → ∀ date > today zone nowMs, ∀ ms,
    ¬ LaterOn zone schedule nowMs inclusive date ms
  ahead : ∀ ms, LaterOn zone schedule nowMs inclusive (today zone nowMs) ms →
    ∀ date > today zone nowMs, ∀ other, LaterOn zone schedule nowMs inclusive date other → ms ≤ other
  passed : ∀ ms, instantOn zone schedule (today zone nowMs) = some ms → ¬ Later inclusive nowMs ms →
    IsLeast {other | ∃ date > today zone nowMs, LaterOn zone schedule nowMs inclusive date other}
      (ms + 86400000)

/-- A date that is met in steps of 24 hours from the present on. -/
def Visited (date : Int) : Prop :=
  ∃ step : Nat, step < searchDays schedule ∧ zone.dateOf (nowMs.toNat + 86400000 * step) = date

/-- The dates from the present one on, as far as a weekly rule is searched. -/
def InSearch (date : Int) : Prop :=
  today zone nowMs ≤ date ∧ date < today zone nowMs + searchDays schedule

/-- No date that the steps of 24 hours miss has the first occurrence, and none that they meet beyond the
searched dates comes before it. -/
structure WeeklyRegular : Prop where
  missed : ∀ date, InSearch zone schedule nowMs date → RunsWeekly schedule date →
    ¬ Visited zone schedule nowMs date → ∀ ms, LaterOn zone schedule nowMs inclusive date ms →
    ∃ other, Visited zone schedule nowMs other ∧ RunsWeekly schedule other ∧
      ∃ earlier ≤ ms, LaterOn zone schedule nowMs inclusive other earlier
  stray : ∀ date, Visited zone schedule nowMs date → RunsWeekly schedule date →
    ¬ InSearch zone schedule nowMs date → ∀ ms, LaterOn zone schedule nowMs inclusive date ms →
    ∃ other, InSearch zone schedule nowMs other ∧ RunsWeekly schedule other ∧
      ∃ earlier ≤ ms, LaterOn zone schedule nowMs inclusive other earlier

/-- An occurrence ahead, in the month that is some months after the present one. -/
def LaterInMonth (months : Nat) (ms : Int) : Prop :=
  ∃ date, MonthDay schedule (today zone nowMs) months date ∧ LaterOn zone schedule nowMs inclusive date ms

/-- No occurrence of a later month comes before all of those in the first month that has any. -/
def MonthlyRegular : Prop :=
  ∀ first second, first < second → second < 3 →
    (∀ month < first, ∀ ms, ¬ LaterInMonth zone schedule nowMs inclusive month ms) →
    (∃ ms, LaterInMonth zone schedule nowMs inclusive first ms) →
    ∀ ms, LaterInMonth zone schedule nowMs inclusive second ms →
      ∃ earlier ≤ ms, LaterInMonth zone schedule nowMs inclusive first earlier

/-- Some date is ahead, or none lies before 1970, whose instants become unsigned numbers far ahead. -/
def SpecificRegular : Prop :=
  (∃ date ms, SpecificDate formats schedule date ∧ LaterOn zone schedule nowMs inclusive date ms) ∨
    ∀ date ms, SpecificDate formats schedule date → instantOn zone schedule date = some ms → ms < 0 →
      ¬ Later inclusive nowMs (asU64 ms).toNat

/-- The instant is not before 1970, nor is it the boundary where that is included. -/
def OneTimeRegular : Prop :=
  ∀ ms, runInstant formats zone schedule = some ms →
    (ms < 0 → ¬ (nowMs.toNat : Int) < (asU64 ms).toNat) ∧ (inclusive = true → ms ≠ nowMs.toNat)

/-- Where the scheduler finds the next occurrence; an instant is below `2 ^ 63`. -/
def Regular : Prop :=
  match schedule.scheduleType with
  | "daily" => nowMs.toNat < 2 ^ 63 → DailyRegular zone schedule nowMs inclusive
  | "weekly" => nowMs.toNat < 2 ^ 63 → WeeklyRegular zone schedule nowMs inclusive
  | "monthly" => nowMs.toNat < 2 ^ 63 → MonthlyRegular zone schedule nowMs inclusive
  | "specific_dates" => SpecificRegular formats zone schedule nowMs inclusive
  | "one_time" => OneTimeRegular formats zone schedule nowMs inclusive
  | _ => True

/-- The occurrences that lie ahead. -/
def laterOccurrences : Set Int :=
  {ms | Occurrence formats zone schedule nowMs ms ∧ Later inclusive nowMs ms}

end

/-! ### Instants as unsigned numbers -/

theorem asU64_toNat {ms : Int} (hpos : 0 ≤ ms) (hlt : ms < 2 ^ 63) : ((asU64 ms).toNat : Int) = ms := by
  unfold asU64
  rw [Int.emod_eq_of_lt hpos (by omega), UInt64.toNat_ofNat', Nat.mod_eq_of_lt (by omega)]
  omega

theorem asU64_toNat_of_neg {ms : Int} (hlow : -2 ^ 63 ≤ ms) (hneg : ms < 0) :
    ((asU64 ms).toNat : Int) = 2 ^ 64 + ms := by
  have hmod : ms % 2 ^ 64 = 2 ^ 64 + ms := by omega
  unfold asU64
  rw [hmod, UInt64.toNat_ofNat', Nat.mod_eq_of_lt (by omega)]
  omega

theorem followsBoundary_iff {inclusive : Bool} {nowMs ms : UInt64} :
    followsBoundary inclusive nowMs ms = true ↔ Later inclusive nowMs ms.toNat := by
  unfold followsBoundary Later
  cases inclusive with
  | true =>
    rw [if_pos rfl, if_pos rfl, decide_eq_true_iff, UInt64.le_iff_toNat_le]
    omega
  | false =>
    rw [if_neg Bool.false_ne_true, if_neg Bool.false_ne_true, decide_eq_true_iff,
      UInt64.lt_iff_toNat_lt]
    omega

/-! ### The searches of the scheduler -/

theorem foldl_minimum (best : UInt64) (candidates : List UInt64) :
    ∃ least, candidates.foldl (fun best candidate => some (best.elim candidate fun b => min b candidate))
        (some best) = some least ∧ (least = best ∨ least ∈ candidates) ∧ least ≤ best ∧
      ∀ c ∈ candidates, least ≤ c := by
  induction candidates generalizing best with
  | nil => exact ⟨best, rfl, .inl rfl, UInt64.le_refl best, fun _ hc => absurd hc not_mem_nil⟩
  | cons c cs ih =>
    obtain ⟨least, hfold, hmem, hle, hall⟩ := ih (min best c)
    have hmin : min best c = if best ≤ c then best else c := rfl
    have hbest : min best c ≤ best ∧ min best c ≤ c ∧ (min best c = best ∨ min best c = c) := by
      rw [hmin]
      split
      · exact ⟨UInt64.le_refl best, ‹_›, .inl rfl⟩
      · exact ⟨UInt64.le_of_lt (UInt64.not_le.mp ‹_›), UInt64.le_refl c, .inr rfl⟩
    refine ⟨least, hfold, ?_, UInt64.le_trans hle hbest.1, ?_⟩
    · rcases hmem with rfl | hmem
      · rcases hbest.2.2 with heq | heq
        · exact .inl heq
        · exact .inr (mem_cons.mpr (.inl heq))
      · exact .inr (mem_cons_of_mem c hmem)
    · intro d hd
      rcases mem_cons.mp hd with rfl | hd
      · exact UInt64.le_trans hle hbest.2.1
      · exact hall d hd

theorem minimum_isNext (candidates : List UInt64) :
    IsNext {ms | ∃ c ∈ candidates, (c.toNat : Int) = ms} (minimum candidates) := by
  cases candidates with
  | nil =>
    rw [minimum, foldl_nil, isNext_none, Set.eq_empty_iff_forall_notMem]
    rintro ms ⟨c, hc, -⟩
    exact absurd hc not_mem_nil
  | cons c cs =>
    obtain ⟨least, hfold, hmem, hle, hall⟩ := foldl_minimum c cs
    have hmini : minimum (c :: cs) = some least := hfold
    rw [hmini, isNext_some]
    refine ⟨⟨least, ?_, rfl⟩, ?_⟩
    · rcases hmem with rfl | hmem
      · exact mem_cons_self
      · exact mem_cons_of_mem c hmem
    · rintro ms ⟨d, hd, rfl⟩
      have hled : least ≤ d := by
        rcases mem_cons.mp hd with rfl | hd
        · exact hle
        · exact hall d hd
      exact Int.ofNat_le.mpr (UInt64.le_iff_toNat_le.mp hled)

/-- The first number below a bound at which a search succeeds. -/
theorem findSome?_range_eq_some {α : Type} {f : Nat → Option α} {n : Nat} {a : α} :
    (List.range n).findSome? f = some a ↔ ∃ k < n, f k = some a ∧ ∀ j < k, f j = none := by
  induction n with
  | zero =>
    constructor
    · intro h
      cases h
    · rintro ⟨k, hk, -⟩
      exact absurd hk (Nat.not_lt_zero k)
  | succ n ih =>
    rw [range_succ, findSome?_append, Option.or_eq_some_iff, ih, findSome?_eq_none_iff]
    simp only [mem_range]
    constructor
    · rintro (⟨k, hk, hfnd, hbef⟩ | ⟨hbef, hlast⟩)
      · exact ⟨k, hk.trans (Nat.lt_succ_self n), hfnd, hbef⟩
      · refine ⟨n, Nat.lt_succ_self n, ?_, hbef⟩
        rw [findSome?_cons] at hlast
        cases hn : f n with
        | none =>
          rw [hn] at hlast
          cases hlast
        | some b =>
          rw [hn] at hlast
          exact hlast
    · rintro ⟨k, hk, hfnd, hbef⟩
      rcases Nat.lt_succ_iff_lt_or_eq.mp hk with hlt | rfl
      · exact .inl ⟨k, hlt, hfnd, hbef⟩
      · refine .inr ⟨hbef, ?_⟩
        rw [findSome?_cons, hfnd]

section

variable {formats : Formats} {zone : Zone} {schedule : ScheduleDefinition} {nowMs : UInt64}
  {inclusive : Bool} {hour minute : Nat} {date ms : Int}

theorem not_later_of_range (hnow : ¬ nowMs.toNat < 2 ^ 63) (hms : ms < 2 ^ 63) :
    ¬ Later inclusive nowMs ms := by
  unfold Later
  split <;> omega

theorem instantOn_nonneg (hdate : 1 ≤ date) (h : instantOn zone schedule date = some ms) : 0 ≤ ms := by
  have hnear := (zone.earliest_near h).1
  unfold clockAt at hnear
  omega

theorem instantOn_lt (h : instantOn zone schedule date = some ms) : ms < 2 ^ 63 :=
  (zone.earliest_range h).2

theorem instantOn_lt_instantOn {date' ms' : Int} (h : instantOn zone schedule date = some ms)
    (h' : instantOn zone schedule date' = some ms') (hdates : date + 2 ≤ date') : ms < ms' := by
  have hnear := (zone.earliest_near h).2
  have hnear' := (zone.earliest_near h').1
  unfold clockAt at hnear hnear'
  omega

variable {c : UInt64}

theorem candidateAt_eq_some (htime : looseHourMinute schedule.timeOfDay = (hour, minute)) :
    candidateAt (localCalendar formats zone) (followsBoundary inclusive nowMs) hour minute date = some c ↔
      ∃ ms, instantOn zone schedule date = some ms ∧ asU64 ms = c ∧ Later inclusive nowMs c.toNat := by
  have hinst : (localCalendar formats zone).earliest date hour minute = instantOn zone schedule date := by
    rw [instantOn, htime, localCalendar]
  unfold candidateAt
  rw [hinst, Option.filter_eq_some_iff, Option.map_eq_some_iff, followsBoundary_iff]
  constructor
  · rintro ⟨⟨ms, hms, hc⟩, hltr⟩
    exact ⟨ms, hms, hc, hltr⟩
  · rintro ⟨ms, hms, hc, hltr⟩
    exact ⟨⟨ms, hms, hc⟩, hltr⟩

theorem candidateAt_later (htime : looseHourMinute schedule.timeOfDay = (hour, minute)) (hdate : 1 ≤ date) :
    candidateAt (localCalendar formats zone) (followsBoundary inclusive nowMs) hour minute date = some c ↔
      LaterOn zone schedule nowMs inclusive date c.toNat := by
  rw [candidateAt_eq_some htime]
  constructor
  · rintro ⟨ms, hms, rfl, hltr⟩
    refine ⟨?_, hltr⟩
    rw [asU64_toNat (instantOn_nonneg hdate hms) (instantOn_lt hms)]
    exact hms
  · rintro ⟨hms, hltr⟩
    refine ⟨_, hms, UInt64.toNat_inj.mp ?_, hltr⟩
    have htoNat := asU64_toNat (Int.natCast_nonneg c.toNat) (instantOn_lt hms)
    omega

/-! ### One-time schedules and dates -/

theorem nextOneTime_eq : nextOneTime (localCalendar formats zone) schedule nowMs =
    ((runInstant formats zone schedule).map asU64).filter fun ms => nowMs < ms := by
  unfold nextOneTime runInstant
  cases hpar : formats.parseRfc3339 (schedule.runAt.getD "") with
  | none => simp only [localCalendar, hpar]
  | some ms => simp only [localCalendar, hpar]

theorem runInstant_range (h : runInstant formats zone schedule = some ms) : -2 ^ 63 ≤ ms ∧ ms < 2 ^ 63 := by
  unfold runInstant at h
  split at h
  · rename_i hpar
    rw [← Option.some_inj.mp h]
    exact formats.range _ _ hpar
  · obtain ⟨parts, -, hprs⟩ := Option.bind_eq_some_iff.mp h
    exact zone.earliest_range hprs

theorem nextOneTime_isNext_iff (htype : schedule.scheduleType = "one_time") :
    IsNext (laterOccurrences formats zone schedule nowMs inclusive)
        (nextOneTime (localCalendar formats zone) schedule nowMs) ↔
      OneTimeRegular formats zone schedule nowMs inclusive := by
  have hset : laterOccurrences formats zone schedule nowMs inclusive =
      {ms | runInstant formats zone schedule = some ms ∧ Later inclusive nowMs ms} := by
    unfold laterOccurrences Occurrence
    simp only [htype]
  rw [hset, nextOneTime_eq]
  unfold OneTimeRegular
  cases hinst : runInstant formats zone schedule with
  | none =>
    refine iff_of_true ?_ fun ms hms => absurd hms (Option.some_ne_none ms).symm
    rw [Option.map_none, Option.filter_none, isNext_none, Set.eq_empty_iff_forall_notMem]
    rintro ms ⟨hms, -⟩
    exact absurd hms (Option.some_ne_none ms).symm
  | some instant =>
    have hrange := runInstant_range hinst
    have hwhl : {ms | some instant = some ms ∧ Later inclusive nowMs ms} =
        {ms | ms = instant ∧ Later inclusive nowMs ms} := by
      ext ms
      exact and_congr (Option.some_inj.trans eq_comm) Iff.rfl
    have haft : nowMs < asU64 instant ↔ (nowMs.toNat : Int) < (asU64 instant).toNat := by
      rw [UInt64.lt_iff_toNat_lt]
      omega
    rw [hwhl, Option.map_some, Option.filter_some]
    simp only [Option.some_inj, forall_eq', haft, decide_eq_true_iff]
    by_cases hneg : instant < 0
    · -- before 1970, the instant is never ahead, but its unsigned number may be
      have hnot : ¬ Later inclusive nowMs instant := by
        unfold Later
        split <;> omega
      have hemp : {ms | ms = instant ∧ Later inclusive nowMs ms} = ∅ := by
        rw [Set.eq_empty_iff_forall_notMem]
        rintro ms ⟨rfl, hltr⟩
        exact hnot hltr
      rw [hemp]
      split
      · rename_i hlt
        refine iff_of_false ?_ fun h => h.1 hneg hlt
        rw [isNext_some]
        rintro ⟨hmem, -⟩
        exact Set.notMem_empty _ hmem
      · rename_i hlt
        exact iff_of_true (isNext_none.mpr rfl) ⟨fun _ => hlt, fun _ => by omega⟩
    · have htoNat := asU64_toNat (not_lt.mp hneg) hrange.2
      rw [htoNat]
      split
      · rename_i hlt
        have hltr : Later inclusive nowMs instant := by
          unfold Later
          split <;> omega
        refine iff_of_true ?_ ⟨fun h => absurd h hneg, fun _ => hlt.ne'⟩
        rw [isNext_some, htoNat]
        exact ⟨⟨rfl, hltr⟩, fun ms hms => hms.1.ge⟩
      · rename_i hlt
        rw [isNext_none, Set.eq_empty_iff_forall_notMem]
        constructor
        · intro hnone
          refine ⟨fun h => absurd h hneg, fun hincl heq => hnone instant ⟨rfl, ?_⟩⟩
          unfold Later
          rw [if_pos hincl]
          exact heq.ge
        · rintro hrgl ms ⟨rfl, hltr⟩
          unfold Later at hltr
          split at hltr
          · exact hrgl.2 ‹_› (by omega)
          · exact hlt hltr

theorem mem_laterOccurrences (htype : schedule.scheduleType ≠ "one_time") :
    ms ∈ laterOccurrences formats zone schedule nowMs inclusive ↔
      ∃ date, RuleDate formats schedule (today zone nowMs) date ∧
        LaterOn zone schedule nowMs inclusive date ms := by
  have hoccu : Occurrence formats zone schedule nowMs ms ↔
      ∃ date, RuleDate formats schedule (today zone nowMs) date ∧ instantOn zone schedule date = some ms := by
    unfold Occurrence
    split
    · exact absurd ‹_› htype
    · exact Iff.rfl
  constructor
  · rintro ⟨hoccurs, hltr⟩
    obtain ⟨date, hrule, hinst⟩ := hoccu.mp hoccurs
    exact ⟨date, hrule, hinst, hltr⟩
  · rintro ⟨date, hrule, hinst, hltr⟩
    exact ⟨hoccu.mpr ⟨date, hrule, hinst⟩, hltr⟩

theorem nextSpecificDate_isNext (htime : looseHourMinute schedule.timeOfDay = (hour, minute))
    (hisTime : isTime hour minute = true) :
    IsNext {x | ∃ date ms, SpecificDate formats schedule date ∧ instantOn zone schedule date = some ms ∧
        ((asU64 ms).toNat : Int) = x ∧ Later inclusive nowMs x}
      (nextSpecificDate (localCalendar formats zone) schedule nowMs inclusive) := by
  unfold nextSpecificDate
  rw [htime]
  by_cases hdates : ∃ texts, schedule.specificDates = some texts ∧ texts ≠ []
  · obtain ⟨texts, htexts, hne⟩ := hdates
    have hsome : schedule.specificDates.filter (!·.isEmpty) = some texts := by
      rw [htexts, Option.filter_some, isEmpty_eq_false_iff.mpr hne]
      rfl
    simp only [hsome, hisTime, Option.bind_eq_bind, Option.bind_some, Bool.not_true, Bool.false_eq_true,
      if_false]
    convert minimum_isNext _ using 1
    ext x
    constructor
    · rintro ⟨date, ms, ⟨texts', htexts', text, htext, hpar⟩, hms, hx, hltr⟩
      obtain rfl := Option.some_inj.mp (htexts.symm.trans htexts')
      refine ⟨asU64 ms, mem_filterMap.mpr ⟨text, htext, ?_⟩, hx⟩
      refine Option.bind_eq_some_iff.mpr ⟨date, hpar, ?_⟩
      exact (candidateAt_eq_some htime).mpr ⟨ms, hms, rfl, hx ▸ hltr⟩
    · rintro ⟨c, hc, rfl⟩
      obtain ⟨text, htext, hcand⟩ := mem_filterMap.mp hc
      obtain ⟨date, hpar, hcand⟩ := Option.bind_eq_some_iff.mp hcand
      obtain ⟨ms, hms, rfl, hltr⟩ := (candidateAt_eq_some htime).mp hcand
      exact ⟨date, ms, ⟨texts, htexts, text, htext, hpar⟩, hms, rfl, hltr⟩
  · have hnone : schedule.specificDates.filter (!·.isEmpty) = none := by
      rw [Option.filter_eq_none_iff]
      intro texts htexts hnonem
      refine hdates ⟨texts, htexts, ?_⟩
      rintro rfl
      exact absurd hnonem (by decide)
    simp only [hnone, Option.bind_eq_bind, Option.bind_none]
    refine isNext_none.mpr (Set.eq_empty_iff_forall_notMem.mpr ?_)
    rintro x ⟨date, ms, ⟨texts, htexts, text, htext, -⟩, -⟩
    exact hdates ⟨texts, htexts, ne_nil_of_mem htext⟩

theorem nextSpecificDate_isNext_iff (htype : schedule.scheduleType = "specific_dates")
    (htime : looseHourMinute schedule.timeOfDay = (hour, minute)) (hisTime : isTime hour minute = true) :
    IsNext (laterOccurrences formats zone schedule nowMs inclusive)
        (nextSpecificDate (localCalendar formats zone) schedule nowMs inclusive) ↔
      SpecificRegular formats zone schedule nowMs inclusive := by
  have hmem : ∀ ms, ms ∈ laterOccurrences formats zone schedule nowMs inclusive ↔
      ∃ date, SpecificDate formats schedule date ∧ LaterOn zone schedule nowMs inclusive date ms := by
    intro ms
    rw [mem_laterOccurrences (htype ▸ by decide)]
    simp only [RuleDate, htype]
  have hah : ∀ {ms}, Later inclusive nowMs ms → 0 ≤ ms := by
    intro ms hltr
    unfold Later at hltr
    split at hltr <;> omega
  rw [isNext_iff (nextSpecificDate_isNext htime hisTime)]
  constructor
  · rintro ⟨-, hcovs⟩
    by_cases hsome : ∃ date ms, SpecificDate formats schedule date ∧
        LaterOn zone schedule nowMs inclusive date ms
    · exact .inl hsome
    · refine .inr fun date ms hdate hms _ hltr => hsome ?_
      obtain ⟨other, hoth, -⟩ := hcovs _ ⟨date, ms, hdate, hms, rfl, hltr⟩
      obtain ⟨date', hdate', hltr'⟩ := (hmem other).mp hoth
      exact ⟨date', other, hdate', hltr'⟩
  · intro hrgl
    constructor
    · intro ms hms
      obtain ⟨date, hdate, hinst, hltr⟩ := (hmem ms).mp hms
      have htoNat := asU64_toNat (hah hltr) (instantOn_lt hinst)
      exact ⟨ms, ⟨date, ms, hdate, hinst, htoNat, hltr⟩, le_refl ms⟩
    · rintro x ⟨date, ms, hdate, hinst, rfl, hltr⟩
      by_cases hneg : ms < 0
      · -- an instant before 1970 is a number behind all that may be ahead
        rcases hrgl with ⟨date', ms', hdate', hltr'⟩ | hrgl
        · have hlow := (zone.earliest_range hinst).1
          have htoNat := asU64_toNat_of_neg hlow hneg
          have hhigh := instantOn_lt hltr'.1
          exact ⟨ms', (hmem ms').mpr ⟨date', hdate', hltr'⟩, by omega⟩
        · exact absurd hltr (hrgl date ms hdate hinst hneg)
      · have htoNat := asU64_toNat (not_lt.mp hneg) (instantOn_lt hinst)
        rw [htoNat] at hltr ⊢
        exact ⟨ms, (hmem ms).mpr ⟨date, hdate, hinst, hltr⟩, le_refl ms⟩

/-! ### Daily schedules -/

theorem localDatetimeAt_eq (hnow : nowMs.toNat < 2 ^ 63) :
    localDatetimeAt (localCalendar formats zone) nowMs = some ((nowMs.toNat : Int), today zone nowMs) := by
  unfold localDatetimeAt tryI64
  rw [if_pos hnow]
  rfl

theorem localDatetimeAt_eq_none (hnow : ¬ nowMs.toNat < 2 ^ 63) :
    localDatetimeAt (localCalendar formats zone) nowMs = none := by
  unfold localDatetimeAt tryI64
  rw [if_neg hnow]
  rfl

theorem laterOccurrences_eq_empty (htype : schedule.scheduleType ≠ "one_time")
    (hnow : ¬ nowMs.toNat < 2 ^ 63) : laterOccurrences formats zone schedule nowMs inclusive = ∅ := by
  rw [Set.eq_empty_iff_forall_notMem]
  intro ms hms
  obtain ⟨date, -, hinst, hltr⟩ := (mem_laterOccurrences htype).mp hms
  exact not_later_of_range hnow (instantOn_lt hinst) hltr

theorem nextDaily_eq (hlse : looseHourMinute schedule.timeOfDay = (hour, minute))
    (htime : hourMinute schedule.timeOfDay = some (hour, minute)) (hisTime : isTime hour minute = true)
    (hnow : nowMs.toNat < 2 ^ 63) :
    nextDaily (localCalendar formats zone) schedule nowMs inclusive =
      (instantOn zone schedule (today zone nowMs)).bind fun ms =>
        if followsBoundary inclusive nowMs (asU64 ms) then some (asU64 ms)
        else some (asU64 ms + 86400000) := by
  have hinst : (localCalendar formats zone).earliest (today zone nowMs) hour minute =
      instantOn zone schedule (today zone nowMs) := by
    rw [instantOn, hlse, localCalendar]
  unfold nextDaily
  simp only [htime, localDatetimeAt_eq hnow, hisTime, hinst, Option.bind_eq_bind, Option.bind_some,
    Bool.not_true, Bool.false_eq_true, if_false]
  cases instantOn zone schedule (today zone nowMs) <;> rfl

/-- The present local date, not long after 3 January 2000 at the earliest. -/
theorem epochMonday_le_today (hnow : 946944000000 ≤ nowMs.toNat) : epochMonday ≤ today zone nowMs := by
  have hnear := (zone.dateOf_near nowMs.toNat).1
  unfold today epochMonday
  omega

theorem nextDaily_isNext_iff (htype : schedule.scheduleType = "daily")
    (hlse : looseHourMinute schedule.timeOfDay = (hour, minute))
    (htime : hourMinute schedule.timeOfDay = some (hour, minute)) (hisTime : isTime hour minute = true)
    (haft : 946944000000 ≤ nowMs.toNat) (hnow : nowMs.toNat < 2 ^ 63) :
    IsNext (laterOccurrences formats zone schedule nowMs inclusive)
        (nextDaily (localCalendar formats zone) schedule nowMs inclusive) ↔
      DailyRegular zone schedule nowMs inclusive := by
  have htoday : (1 : Int) ≤ today zone nowMs := le_trans (by decide) (epochMonday_le_today haft)
  have hmem : ∀ ms, ms ∈ laterOccurrences formats zone schedule nowMs inclusive ↔
      LaterOn zone schedule nowMs inclusive (today zone nowMs) ms ∨
        ∃ date > today zone nowMs, LaterOn zone schedule nowMs inclusive date ms := by
    intro ms
    rw [mem_laterOccurrences (htype ▸ by decide)]
    simp only [RuleDate, htype]
    constructor
    · rintro ⟨date, hdate, hltr⟩
      rcases hdate.eq_or_lt with rfl | hlt
      · exact .inl hltr
      · exact .inr ⟨date, hlt, hltr⟩
    · rintro (hltr | ⟨date, hdate, hltr⟩)
      · exact ⟨_, le_refl _, hltr⟩
      · exact ⟨date, hdate.le, hltr⟩
  rw [nextDaily_eq hlse htime hisTime hnow]
  cases hinst : instantOn zone schedule (today zone nowMs) with
  | none =>
    rw [Option.bind_none, isNext_none, Set.eq_empty_iff_forall_notMem]
    constructor
    · intro hnone
      refine ⟨fun _ date hdate ms hltr => hnone ms ((hmem ms).mpr (.inr ⟨date, hdate, hltr⟩)), ?_, ?_⟩
      · intro ms hltr
        exact absurd (hinst.symm.trans hltr.1) (Option.some_ne_none ms).symm
      · intro ms hms
        exact absurd (hinst.symm.trans hms) (Option.some_ne_none ms).symm
    · intro hrgl ms hms
      rcases (hmem ms).mp hms with hltr | ⟨date, hdate, hltr⟩
      · exact absurd (hinst.symm.trans hltr.1) (Option.some_ne_none ms).symm
      · exact hrgl.missing hinst date hdate ms hltr
  | some first =>
    have htoNat := asU64_toNat (instantOn_nonneg htoday hinst) (instantOn_lt hinst)
    have honly : ∀ {ms}, LaterOn zone schedule nowMs inclusive (today zone nowMs) ms → ms = first :=
      fun hltr => Option.some_inj.mp (hltr.1.symm.trans hinst)
    rw [Option.bind_some]
    by_cases hah : Later inclusive nowMs first
    · rw [if_pos (followsBoundary_iff.mpr (htoNat.symm ▸ hah)), isNext_some, htoNat]
      constructor
      · intro hleast
        refine ⟨?_, ?_, ?_⟩
        · intro hnone
          exact absurd (hinst.symm.trans hnone) (Option.some_ne_none first)
        · intro ms hltr date hdate other hoth
          rw [honly hltr]
          exact hleast.2 ((hmem other).mpr (.inr ⟨date, hdate, hoth⟩))
        · intro ms hms hnot
          rw [Option.some_inj.mp (hms.symm.trans hinst)] at hnot
          exact absurd hah hnot
      · intro hrgl
        refine ⟨(hmem first).mpr (.inl ⟨hinst, hah⟩), ?_⟩
        intro other hoth
        rcases (hmem other).mp hoth with hltr | ⟨date, hdate, hltr⟩
        · exact (honly hltr).ge
        · exact hrgl.ahead first ⟨hinst, hah⟩ date hdate other hltr
    · have hpsd : ∀ {ms}, ¬ LaterOn zone schedule nowMs inclusive (today zone nowMs) ms :=
        fun hltr => hah (honly hltr ▸ hltr.2)
      have hset : laterOccurrences formats zone schedule nowMs inclusive =
          {other | ∃ date > today zone nowMs, LaterOn zone schedule nowMs inclusive date other} := by
        ext ms
        exact (hmem ms).trans (or_iff_right hpsd)
      have hsum : ((asU64 first + 86400000).toNat : Int) = first + 86400000 := by
        have hlt := instantOn_lt hinst
        rw [UInt64.toNat_add, Nat.mod_eq_of_lt]
        · push_cast
          rw [htoNat]
        · have hday : (86400000 : UInt64).toNat = 86400000 := rfl
          omega
      rw [if_neg fun h => hah (htoNat ▸ followsBoundary_iff.mp h), isNext_some, hsum, hset]
      constructor
      · intro hleast
        refine ⟨?_, fun ms hltr => absurd hltr hpsd, ?_⟩
        · intro hnone
          exact absurd (hinst.symm.trans hnone) (Option.some_ne_none first)
        · intro ms hms _
          rw [Option.some_inj.mp (hms.symm.trans hinst)]
          exact hleast
      · intro hrgl
        exact hrgl.passed first hinst hah

/-! ### Weekly schedules -/

/-- Two dates on the same day of the week are whole weeks apart. -/
theorem weekdayOf_eq {date' : Int} (h : weekdayOf date = weekdayOf date') : (date' - date) % 7 = 0 := by
  have hidx := weekdayOf_index date
  rw [h, weekdayOf_index] at hidx
  unfold Civil.weekday at hidx
  omega

variable {target : Weekday}

theorem runsOn_iff {repeatWeeks : Nat} (hpos : 0 < repeatWeeks) (hdate : epochMonday ≤ date) :
    runsOn (localCalendar formats zone) target repeatWeeks date = true ↔
      weekdayOf date = target ∧ (date - epochMonday) / 7 % (repeatWeeks : Int) = 0 := by
  have hweeks : (date - epochMonday).tdiv 7 = (date - epochMonday) / 7 :=
    Int.tdiv_eq_ediv_of_nonneg (by omega)
  unfold runsOn localCalendar
  simp only [hweeks, Bool.and_eq_true, beq_iff_eq, Bool.or_eq_true, decide_eq_true_iff]
  refine and_congr Iff.rfl ?_
  constructor
  · rintro (hone | hmod)
    · have hrpt : repeatWeeks = 1 := by omega
      rw [hrpt]
      omega
    · exact hmod
  · exact .inr

theorem visited_step (zone : Zone) (nowMs : UInt64) {step step' : Nat} (hlt : step' < step) :
    zone.dateOf (nowMs.toNat + 86400000 * step') ≤ zone.dateOf (nowMs.toNat + 86400000 * step) + 1 := by
  have hnear := (zone.dateOf_near (nowMs.toNat + 86400000 * step)).1
  have hnear' := (zone.dateOf_near (nowMs.toNat + 86400000 * step')).2
  omega

theorem epochMonday_le_visited (haft : 946944000000 ≤ nowMs.toNat) (step : Nat) :
    epochMonday ≤ zone.dateOf (nowMs.toNat + 86400000 * step) := by
  have hnear := (zone.dateOf_near (nowMs.toNat + 86400000 * step)).1
  unfold epochMonday
  omega

/-- The candidate of a date for a day of the week. -/
def weeklyCandidate (formats : Formats) (zone : Zone) (schedule : ScheduleDefinition)
    (nowMs : UInt64) (inclusive : Bool) (hour minute : Nat) (target : Weekday) (date : Int) :
    Option UInt64 :=
  if runsOn (localCalendar formats zone) target schedule.repeatEvery.toNat date then
    candidateAt (localCalendar formats zone) (followsBoundary inclusive nowMs) hour minute date
  else none

/-- What a weekly search finds for a day of the week. -/
def weeklySearch (formats : Formats) (zone : Zone) (schedule : ScheduleDefinition) (nowMs : UInt64)
    (inclusive : Bool) (hour minute : Nat) (target : Weekday) : Option UInt64 :=
  (List.range (schedule.repeatEvery.toNat * 7 + 7)).findSome? fun (step : Nat) =>
    weeklyCandidate formats zone schedule nowMs inclusive hour minute target
      (zone.dateOf (nowMs.toNat + 86400000 * step))

/-- A date of the search for a day of the week. -/
structure Matches (schedule : ScheduleDefinition) (target : Weekday) (date : Int) : Prop where
  day : weekdayOf date = target
  week : (date - epochMonday) / 7 % (schedule.repeatEvery.toNat : Int) = 0

theorem weeklyCandidate_eq_some (hlse : looseHourMinute schedule.timeOfDay = (hour, minute))
    (hrpt : 0 < schedule.repeatEvery.toNat) (hdate : epochMonday ≤ date) :
    weeklyCandidate formats zone schedule nowMs inclusive hour minute target date = some c ↔
      Matches schedule target date ∧ LaterOn zone schedule nowMs inclusive date c.toNat := by
  have hcand : candidateAt (localCalendar formats zone) (followsBoundary inclusive nowMs) hour minute date =
      some c ↔ LaterOn zone schedule nowMs inclusive date c.toNat :=
    candidateAt_later hlse (le_trans (by decide) hdate)
  rw [← hcand]
  unfold weeklyCandidate
  have hruns : runsOn (localCalendar formats zone) target schedule.repeatEvery.toNat date = true ↔
      weekdayOf date = target ∧ (date - epochMonday) / 7 % (schedule.repeatEvery.toNat : Int) = 0 :=
    runsOn_iff hrpt hdate
  split
  · rename_i htrue
    have hmat := hruns.mp htrue
    exact ⟨fun hc => ⟨⟨hmat.1, hmat.2⟩, hc⟩, And.right⟩
  · rename_i hfls
    constructor
    · intro hc
      cases hc
    · rintro ⟨hmat, -⟩
      exact absurd (hruns.mpr ⟨hmat.day, hmat.week⟩) hfls

theorem weeklySearch_sound (hlse : looseHourMinute schedule.timeOfDay = (hour, minute))
    (hrpt : 0 < schedule.repeatEvery.toNat) (haft : 946944000000 ≤ nowMs.toNat)
    (h : weeklySearch formats zone schedule nowMs inclusive hour minute target = some c) :
    ∃ date, Visited zone schedule nowMs date ∧ Matches schedule target date ∧
      LaterOn zone schedule nowMs inclusive date c.toNat := by
  obtain ⟨step, hstep, hfnd, -⟩ := findSome?_range_eq_some.mp h
  have hepo : epochMonday ≤ zone.dateOf (nowMs.toNat + 86400000 * step) := epochMonday_le_visited haft step
  obtain ⟨hmat, hltr⟩ := (weeklyCandidate_eq_some hlse hrpt hepo).mp hfnd
  refine ⟨_, ⟨step, ?_, rfl⟩, hmat, hltr⟩
  unfold searchDays
  omega

/-- A search stops at the first date that it finds, and no later one of the same day of the week comes
before that. -/
theorem weeklySearch_complete (hlse : looseHourMinute schedule.timeOfDay = (hour, minute))
    (hrpt : 0 < schedule.repeatEvery.toNat) (haft : 946944000000 ≤ nowMs.toNat)
    (hvis : Visited zone schedule nowMs date) (hdate : Matches schedule target date)
    (hltr : LaterOn zone schedule nowMs inclusive date ms) :
    ∃ c, weeklySearch formats zone schedule nowMs inclusive hour minute target = some c ∧
      (c.toNat : Int) ≤ ms := by
  obtain ⟨step, hstep, rfl⟩ := hvis
  have hepo : epochMonday ≤ zone.dateOf (nowMs.toNat + 86400000 * step) := epochMonday_le_visited haft step
  have hposi : (1 : Int) ≤ zone.dateOf (nowMs.toNat + 86400000 * step) := le_trans (by decide) hepo
  have htoNat := asU64_toNat (instantOn_nonneg hposi hltr.1) (instantOn_lt hltr.1)
  have hvisit : weeklyCandidate formats zone schedule nowMs inclusive hour minute target
      (zone.dateOf (nowMs.toNat + 86400000 * step)) = some (asU64 ms) :=
    (weeklyCandidate_eq_some hlse hrpt hepo).mpr ⟨hdate, htoNat.symm ▸ hltr⟩
  have hmem : step < schedule.repeatEvery.toNat * 7 + 7 := by
    unfold searchDays at hstep
    omega
  cases hsrch : weeklySearch formats zone schedule nowMs inclusive hour minute target with
  | none =>
    have hnever := findSome?_eq_none_iff.mp hsrch step (mem_range.mpr hmem)
    exact absurd (hvisit.symm.trans hnever) (Option.some_ne_none _)
  | some c =>
    refine ⟨c, rfl, ?_⟩
    obtain ⟨first, hfst, hfnd, hbef⟩ := findSome?_range_eq_some.mp hsrch
    have hepo' : epochMonday ≤ zone.dateOf (nowMs.toNat + 86400000 * first) :=
      epochMonday_le_visited haft first
    obtain ⟨hmat, hltr'⟩ := (weeklyCandidate_eq_some hlse hrpt hepo').mp hfnd
    rcases Nat.lt_trichotomy first step with hlt | rfl | hgt
    · have hweeks := weekdayOf_eq (hmat.day.trans hdate.day.symm)
      have hstepp := visited_step zone nowMs hlt
      rcases Int.lt_trichotomy (zone.dateOf (nowMs.toNat + 86400000 * first))
        (zone.dateOf (nowMs.toNat + 86400000 * step)) with hless | heq | hmore
      · exact (instantOn_lt_instantOn hltr'.1 hltr.1 (by omega)).le
      · rw [heq] at hltr'
        exact (Option.some_inj.mp (hltr'.1.symm.trans hltr.1)).le
      · omega
    · exact (Option.some_inj.mp (hltr'.1.symm.trans hltr.1)).le
    · exact absurd (hvisit.symm.trans (hbef step hgt)) (Option.some_ne_none _)

theorem nextWeekly_isNext (hlse : looseHourMinute schedule.timeOfDay = (hour, minute))
    (htime : hourMinute schedule.timeOfDay = some (hour, minute)) (hisTime : isTime hour minute = true)
    (hrpt : 0 < schedule.repeatEvery.toNat) (hbnd : schedule.repeatEvery ≤ maxWeeklyRepeatEvery)
    (haft : 946944000000 ≤ nowMs.toNat) (hnow : nowMs.toNat < 2 ^ 63) :
    IsNext {ms | ∃ date, Visited zone schedule nowMs date ∧ RunsWeekly schedule date ∧
        LaterOn zone schedule nowMs inclusive date ms}
      (nextWeekly (localCalendar formats zone) schedule nowMs inclusive) := by
  have hmax : max schedule.repeatEvery.toNat 1 = schedule.repeatEvery.toNat := max_eq_left hrpt
  unfold nextWeekly
  simp only [htime, localDatetimeAt_eq hnow, hisTime, hmax, if_neg (UInt32.not_lt.mpr hbnd),
    Option.bind_eq_bind, Option.bind_some, Bool.not_true, Bool.false_eq_true, if_false]
  by_cases hnms : ∃ names, schedule.daysOfWeek = some names ∧ names ≠ []
  · obtain ⟨names, hnms, hne⟩ := hnms
    have hsome : schedule.daysOfWeek.filter (!·.isEmpty) = some names := by
      rw [hnms, Option.filter_some, isEmpty_eq_false_iff.mpr hne]
      rfl
    have hsrch := minimum_isNext ((names.filterMap dayMap).filterMap
      (weeklySearch formats zone schedule nowMs inclusive hour minute))
    rw [hsome, Option.bind_some]
    refine (isNext_iff hsrch).mpr ⟨?_, ?_⟩
    · rintro ms ⟨date, hvis, ⟨⟨names', hnms', name, hname, hday⟩, hweek⟩, hltr⟩
      obtain rfl := Option.some_inj.mp (hnms.symm.trans hnms')
      obtain ⟨c, hc, hle⟩ : ∃ c, weeklySearch formats zone schedule nowMs inclusive hour minute (weekdayOf date) =
          some c ∧ (c.toNat : Int) ≤ ms :=
        weeklySearch_complete hlse hrpt haft hvis ⟨rfl, hweek⟩ hltr
      refine ⟨c.toNat, ⟨c, mem_filterMap.mpr ⟨weekdayOf date, ?_, hc⟩, rfl⟩, hle⟩
      exact mem_filterMap.mpr ⟨name, hname, hday⟩
    · rintro ms ⟨c, hc, rfl⟩
      obtain ⟨target, htgt, hc⟩ := mem_filterMap.mp hc
      obtain ⟨name, hname, hday⟩ := mem_filterMap.mp htgt
      obtain ⟨date, hvis, hmat, hltr⟩ := weeklySearch_sound hlse hrpt haft hc
      refine ⟨c.toNat, ⟨date, hvis, ⟨⟨names, hnms, name, hname, ?_⟩, hmat.week⟩, hltr⟩, le_refl _⟩
      rw [hday, hmat.day]
  · have hnone : schedule.daysOfWeek.filter (!·.isEmpty) = none := by
      rw [Option.filter_eq_none_iff]
      intro names hsome hnonem
      refine hnms ⟨names, hsome, ?_⟩
      rintro rfl
      exact absurd hnonem (by decide)
    rw [hnone, Option.bind_none, isNext_none, Set.eq_empty_iff_forall_notMem]
    rintro ms ⟨date, -, ⟨⟨names, hsome, name, hname, -⟩, -⟩, -⟩
    exact hnms ⟨names, hsome, ne_nil_of_mem hname⟩

theorem nextWeekly_isNext_iff (htype : schedule.scheduleType = "weekly")
    (hlse : looseHourMinute schedule.timeOfDay = (hour, minute))
    (htime : hourMinute schedule.timeOfDay = some (hour, minute)) (hisTime : isTime hour minute = true)
    (hrpt : 0 < schedule.repeatEvery.toNat) (hbnd : schedule.repeatEvery ≤ maxWeeklyRepeatEvery)
    (haft : 946944000000 ≤ nowMs.toNat) (hnow : nowMs.toNat < 2 ^ 63) :
    IsNext (laterOccurrences formats zone schedule nowMs inclusive)
        (nextWeekly (localCalendar formats zone) schedule nowMs inclusive) ↔
      WeeklyRegular zone schedule nowMs inclusive := by
  have hmem : ∀ ms, ms ∈ laterOccurrences formats zone schedule nowMs inclusive ↔
      ∃ date, InSearch zone schedule nowMs date ∧ RunsWeekly schedule date ∧
        LaterOn zone schedule nowMs inclusive date ms := by
    intro ms
    rw [mem_laterOccurrences (htype ▸ by decide)]
    simp only [RuleDate, htype, and_assoc, InSearch]
  rw [isNext_iff (nextWeekly_isNext hlse htime hisTime hrpt hbnd haft hnow)]
  constructor
  · rintro ⟨hcovs, hcovd⟩
    refine ⟨?_, ?_⟩
    · intro date hsrch hruns _ ms hltr
      obtain ⟨earlier, ⟨other, hvis, hruns', hltr'⟩, hle⟩ :=
        hcovs ms ((hmem ms).mpr ⟨date, hsrch, hruns, hltr⟩)
      exact ⟨other, hvis, hruns', earlier, hle, hltr'⟩
    · intro date hvis hruns _ ms hltr
      obtain ⟨earlier, hearl, hle⟩ := hcovd ms ⟨date, hvis, hruns, hltr⟩
      obtain ⟨other, hsrch, hruns', hltr'⟩ := (hmem earlier).mp hearl
      exact ⟨other, hsrch, hruns', earlier, hle, hltr'⟩
  · intro hrgl
    constructor
    · intro ms hms
      obtain ⟨date, hsrch, hruns, hltr⟩ := (hmem ms).mp hms
      by_cases hvis : Visited zone schedule nowMs date
      · exact ⟨ms, ⟨date, hvis, hruns, hltr⟩, le_refl ms⟩
      · obtain ⟨other, hvis', hruns', earlier, hle, hltr'⟩ :=
          hrgl.missed date hsrch hruns hvis ms hltr
        exact ⟨earlier, ⟨other, hvis', hruns', hltr'⟩, hle⟩
    · rintro ms ⟨date, hvis, hruns, hltr⟩
      by_cases hsrch : InSearch zone schedule nowMs date
      · exact ⟨ms, (hmem ms).mpr ⟨date, hsrch, hruns, hltr⟩, le_refl ms⟩
      · obtain ⟨other, hsrch', hruns', earlier, hle, hltr'⟩ :=
          hrgl.stray date hvis hruns hsrch ms hltr
        exact ⟨earlier, (hmem earlier).mpr ⟨other, hsrch', hruns', hltr'⟩, hle⟩

/-! ### Monthly schedules -/

/-- A date of a month from the present one on is later than 1970. -/
theorem monthDay_pos (haft : 946944000000 ≤ nowMs.toNat) {months : Nat}
    (h : MonthDay schedule (today zone nowMs) months date) : 1 ≤ date := by
  obtain ⟨days, -, day, -, hdate⟩ := h
  have hyear : 2000 ≤ Civil.year (today zone nowMs) := by
    refine le_year ?_
    have hepo : epochMonday ≤ today zone nowMs := epochMonday_le_today haft
    have hstart : yearStart 2000 = 10957 := by decide
    unfold epochMonday at hepo
    omega
  have hstart := yearStart_le_fromYmd hdate
  have hmono := yearStart_mono (y := 2000)
    (z := Civil.year (today zone nowMs) + ((Civil.month (today zone nowMs) + months - 1) / 12 : Nat))
    (by omega)
  have hfst : yearStart 2000 = 10957 := by decide
  omega

/-- What a monthly search finds in a month. -/
def monthlySearch (formats : Formats) (zone : Zone) (days : List UInt32) (nowMs : UInt64)
    (inclusive : Bool) (hour minute months : Nat) : Option UInt64 :=
  minimum <| days.filterMap fun day =>
    (Civil.fromYmd
        (Civil.year (today zone nowMs) + ((Civil.month (today zone nowMs) + months - 1) / 12 : Nat))
        ((Civil.month (today zone nowMs) + months - 1) % 12 + 1) day.toNat).bind
      (candidateAt (localCalendar formats zone) (followsBoundary inclusive nowMs) hour minute)

theorem monthlySearch_isNext (hlse : looseHourMinute schedule.timeOfDay = (hour, minute))
    (haft : 946944000000 ≤ nowMs.toNat) {days : List UInt32} (hdays : schedule.daysOfMonth = some days)
    (months : Nat) :
    IsNext {ms | LaterInMonth zone schedule nowMs inclusive months ms}
      (monthlySearch formats zone days nowMs inclusive hour minute months) := by
  have hset : {ms | LaterInMonth zone schedule nowMs inclusive months ms} =
      {ms | ∃ c ∈ days.filterMap fun day => (Civil.fromYmd
          (Civil.year (today zone nowMs) + ((Civil.month (today zone nowMs) + months - 1) / 12 : Nat))
          ((Civil.month (today zone nowMs) + months - 1) % 12 + 1) day.toNat).bind
        (candidateAt (localCalendar formats zone) (followsBoundary inclusive nowMs) hour minute),
        (c.toNat : Int) = ms} := by
    ext ms
    constructor
    · rintro ⟨date, hmonth, hltr⟩
      have hposi := monthDay_pos haft hmonth
      have htoNat := asU64_toNat (instantOn_nonneg hposi hltr.1) (instantOn_lt hltr.1)
      obtain ⟨days', hdays', day, hday, hdate⟩ := hmonth
      obtain rfl := Option.some_inj.mp (hdays.symm.trans hdays')
      refine ⟨asU64 ms, mem_filterMap.mpr ⟨day, hday, ?_⟩, htoNat⟩
      refine Option.bind_eq_some_iff.mpr ⟨date, hdate, ?_⟩
      exact (candidateAt_later hlse hposi).mpr (htoNat.symm ▸ hltr)
    · rintro ⟨c, hc, rfl⟩
      obtain ⟨day, hday, hc⟩ := mem_filterMap.mp hc
      obtain ⟨date, hdate, hc⟩ := Option.bind_eq_some_iff.mp hc
      have hmonth : MonthDay schedule (today zone nowMs) months date := ⟨days, hdays, day, hday, hdate⟩
      exact ⟨date, hmonth, (candidateAt_later hlse (monthDay_pos haft hmonth)).mp hc⟩
  rw [hset]
  exact minimum_isNext _

/-- The search ends with the first month in which there is an occurrence ahead. -/
theorem nextMonthly_isNext (hlse : looseHourMinute schedule.timeOfDay = (hour, minute))
    (htime : hourMinute schedule.timeOfDay = some (hour, minute)) (hisTime : isTime hour minute = true)
    (haft : 946944000000 ≤ nowMs.toNat) (hnow : nowMs.toNat < 2 ^ 63) :
    IsNext {ms | ∃ months < 3, (∀ month < months, ∀ x, ¬ LaterInMonth zone schedule nowMs inclusive month x) ∧
        LaterInMonth zone schedule nowMs inclusive months ms}
      (nextMonthly (localCalendar formats zone) schedule nowMs inclusive) := by
  unfold nextMonthly
  simp only [htime, localDatetimeAt_eq hnow, hisTime, Option.bind_eq_bind, Option.bind_some, Bool.not_true,
    Bool.false_eq_true, if_false]
  by_cases hdays : ∃ days, schedule.daysOfMonth = some days ∧ days ≠ []
  · obtain ⟨days, hdays, hne⟩ := hdays
    have hsome : schedule.daysOfMonth.filter (!·.isEmpty) = some days := by
      rw [hdays, Option.filter_some, isEmpty_eq_false_iff.mpr hne]
      rfl
    have hmonth : ∀ months, IsNext {ms | LaterInMonth zone schedule nowMs inclusive months ms}
        (monthlySearch formats zone days nowMs inclusive hour minute months) :=
      monthlySearch_isNext hlse haft hdays
    have hemp : ∀ {months}, monthlySearch formats zone days nowMs inclusive hour minute months = none →
        ∀ x, ¬ LaterInMonth zone schedule nowMs inclusive months x := by
      intro months hnone
      exact Set.eq_empty_iff_forall_notMem.mp ((hmonth months).2 hnone)
    have hsrch : IsNext {ms | ∃ months < 3,
        (∀ month < months, ∀ x, ¬ LaterInMonth zone schedule nowMs inclusive month x) ∧
          LaterInMonth zone schedule nowMs inclusive months ms}
        ((List.range 3).findSome? (monthlySearch formats zone days nowMs inclusive hour minute)) := by
      cases hfnd : (List.range 3).findSome? (monthlySearch formats zone days nowMs inclusive hour minute) with
      | none =>
        rw [isNext_none, Set.eq_empty_iff_forall_notMem]
        rintro ms ⟨months, hmths, -, hltr⟩
        exact hemp (findSome?_eq_none_iff.mp hfnd months (mem_range.mpr hmths)) ms hltr
      | some c =>
        obtain ⟨months, hmths, hc, hbef⟩ := findSome?_range_eq_some.mp hfnd
        have hleast := (hmonth months).1 c hc
        rw [isNext_some]
        refine ⟨⟨months, hmths, fun month hlt => hemp (hbef month hlt), hleast.1⟩, ?_⟩
        rintro ms ⟨months', -, hfst, hltr⟩
        rcases Nat.lt_trichotomy months months' with hlt | rfl | hgt
        · exact absurd hleast.1 (hfst months hlt _)
        · exact hleast.2 hltr
        · exact absurd hltr (hemp (hbef months' hgt) ms)
    rw [hsome, Option.bind_some]
    exact hsrch
  · have hnone : schedule.daysOfMonth.filter (!·.isEmpty) = none := by
      rw [Option.filter_eq_none_iff]
      intro days hsome hnonem
      refine hdays ⟨days, hsome, ?_⟩
      rintro rfl
      exact absurd hnonem (by decide)
    rw [hnone, Option.bind_none, isNext_none, Set.eq_empty_iff_forall_notMem]
    rintro ms ⟨months, -, -, date, ⟨days, hsome, day, hday, -⟩, -⟩
    exact hdays ⟨days, hsome, ne_nil_of_mem hday⟩

theorem nextMonthly_isNext_iff (htype : schedule.scheduleType = "monthly")
    (hlse : looseHourMinute schedule.timeOfDay = (hour, minute))
    (htime : hourMinute schedule.timeOfDay = some (hour, minute)) (hisTime : isTime hour minute = true)
    (haft : 946944000000 ≤ nowMs.toNat) (hnow : nowMs.toNat < 2 ^ 63) :
    IsNext (laterOccurrences formats zone schedule nowMs inclusive)
        (nextMonthly (localCalendar formats zone) schedule nowMs inclusive) ↔
      MonthlyRegular zone schedule nowMs inclusive := by
  have hmem : ∀ ms, ms ∈ laterOccurrences formats zone schedule nowMs inclusive ↔
      ∃ months < 3, LaterInMonth zone schedule nowMs inclusive months ms := by
    intro ms
    rw [mem_laterOccurrences (htype ▸ by decide)]
    simp only [RuleDate, htype]
    constructor
    · rintro ⟨date, ⟨months, hmths, hdate⟩, hltr⟩
      exact ⟨months, hmths, date, hdate, hltr⟩
    · rintro ⟨months, hmths, date, hdate, hltr⟩
      exact ⟨date, ⟨months, hmths, hdate⟩, hltr⟩
  rw [isNext_iff (nextMonthly_isNext hlse htime hisTime haft hnow)]
  constructor
  · rintro ⟨hcovs, -⟩ first second hlt hsec hbef ⟨some, hsome⟩ ms hms
    obtain ⟨earlier, ⟨months, hmths, hfst, hltr⟩, hle⟩ := hcovs ms ((hmem ms).mpr ⟨second, hsec, hms⟩)
    rcases Nat.lt_trichotomy months first with hless | rfl | hmore
    · exact absurd hltr (hbef months hless earlier)
    · exact ⟨earlier, hle, hltr⟩
    · exact absurd hsome (hfst first hmore some)
  · intro hrgl
    constructor
    · intro ms hms
      obtain ⟨months, hmths, hltr⟩ := (hmem ms).mp hms
      -- the first month with an occurrence ahead is this one or one before it
      classical
      have hexists : ∃ month, ∃ x, LaterInMonth zone schedule nowMs inclusive month x := ⟨months, ms, hltr⟩
      have hfst := Nat.find_spec hexists
      have hbef : ∀ month < Nat.find hexists, ∀ x,
          ¬ LaterInMonth zone schedule nowMs inclusive month x :=
        fun month hlt x hx => Nat.find_min hexists hlt ⟨x, hx⟩
      rcases (Nat.find_min' hexists ⟨ms, hltr⟩).eq_or_lt with heq | hlt
      · exact ⟨ms, ⟨months, hmths, heq ▸ hbef, hltr⟩, le_refl ms⟩
      · obtain ⟨earlier, hle, hearl⟩ := hrgl _ months hlt hmths hbef hfst ms hltr
        exact ⟨earlier, ⟨_, hlt.trans hmths, hbef, hearl⟩, hle⟩
    · rintro ms ⟨months, hmths, -, hltr⟩
      exact ⟨ms, (hmem ms).mpr ⟨months, hmths, hltr⟩, le_refl ms⟩

/-! ### All types -/

theorem nextDaily_eq_none (hnow : ¬ nowMs.toNat < 2 ^ 63) :
    nextDaily (localCalendar formats zone) schedule nowMs inclusive = none := by
  unfold nextDaily
  cases hourMinute schedule.timeOfDay with
  | none => rfl
  | some time =>
    simp only [localDatetimeAt_eq_none hnow, Option.bind_eq_bind, Option.bind_some, Option.bind_none]

theorem nextWeekly_eq_none (hnow : ¬ nowMs.toNat < 2 ^ 63) :
    nextWeekly (localCalendar formats zone) schedule nowMs inclusive = none := by
  unfold nextWeekly
  cases hourMinute schedule.timeOfDay with
  | none => rfl
  | some time =>
    cases schedule.daysOfWeek.filter (!·.isEmpty) with
    | none => rfl
    | some names =>
      simp only [localDatetimeAt_eq_none hnow, Option.bind_eq_bind, Option.bind_some, Option.bind_none,
        ite_self]

theorem nextMonthly_eq_none (hnow : ¬ nowMs.toNat < 2 ^ 63) :
    nextMonthly (localCalendar formats zone) schedule nowMs inclusive = none := by
  unfold nextMonthly
  cases hourMinute schedule.timeOfDay with
  | none => rfl
  | some time =>
    cases schedule.daysOfMonth.filter (!·.isEmpty) with
    | none => rfl
    | some days =>
      simp only [localDatetimeAt_eq_none hnow, Option.bind_eq_bind, Option.bind_some, Option.bind_none]

/-- Where the present is no instant, there is no next run and nothing ahead. -/
theorem isNext_of_range {result : Option UInt64} (htype : schedule.scheduleType ≠ "one_time")
    (hnow : ¬ nowMs.toNat < 2 ^ 63) (hnone : result = none) (regular : Prop) :
    IsNext (laterOccurrences formats zone schedule nowMs inclusive) result ↔
      (nowMs.toNat < 2 ^ 63 → regular) := by
  refine iff_of_true ?_ fun h => absurd h hnow
  rw [hnone, isNext_none]
  exact laterOccurrences_eq_empty htype hnow

end

/-- For every valid schedule with dates of its own and every zone, from 4 January 2000 on, the next run
is the next occurrence exactly where the zone is regular. -/
theorem nextRun_isNext_iff (formats : Formats) (zone : Zone) {schedule : ScheduleDefinition}
    {nowMs : UInt64} (inclusive : Bool)
    (hval : validateScheduleDefinition (localCalendar formats zone) schedule = .ok ())
    (htype : schedule.scheduleType ≠ "interval") (haft : 946944000000 ≤ nowMs.toNat) :
    IsNext (laterOccurrences formats zone schedule nowMs inclusive)
        (computeNextRunWithBoundary (localCalendar formats zone) schedule nowMs inclusive) ↔
      Regular formats zone schedule nowMs inclusive := by
  have hrule := validateRule_of_ok hval
  have htypes := validateRule_type hrule
  simp only [mem_cons, not_mem_nil, or_false] at htypes
  unfold computeNextRunWithBoundary Regular
  rcases htypes with h | h | h | h | h | h
  · exact absurd h htype
  · obtain ⟨hour, minute, htime, hlse, hisTime⟩ := validateTimeOfDay_ok (validateRule_time hrule (.inl h))
    simp only [h]
    by_cases hnow : nowMs.toNat < 2 ^ 63
    · rw [nextDaily_isNext_iff h hlse htime hisTime haft hnow]
      exact (imp_iff_right hnow).symm
    · exact isNext_of_range (h ▸ by decide) hnow (nextDaily_eq_none hnow) _
  · obtain ⟨hour, minute, htime, hlse, hisTime⟩ :=
      validateTimeOfDay_ok (validateRule_time hrule (.inr (.inl h)))
    obtain ⟨hrpt, hbnd⟩ := validateRule_weekly hrule h
    simp only [h]
    by_cases hnow : nowMs.toNat < 2 ^ 63
    · rw [nextWeekly_isNext_iff h hlse htime hisTime hrpt hbnd haft hnow]
      exact (imp_iff_right hnow).symm
    · exact isNext_of_range (h ▸ by decide) hnow (nextWeekly_eq_none hnow) _
  · obtain ⟨hour, minute, htime, hlse, hisTime⟩ :=
      validateTimeOfDay_ok (validateRule_time hrule (.inr (.inr (.inl h))))
    simp only [h]
    by_cases hnow : nowMs.toNat < 2 ^ 63
    · rw [nextMonthly_isNext_iff h hlse htime hisTime haft hnow]
      exact (imp_iff_right hnow).symm
    · exact isNext_of_range (h ▸ by decide) hnow (nextMonthly_eq_none hnow) _
  · obtain ⟨hour, minute, htime, hlse, hisTime⟩ :=
      validateTimeOfDay_ok (validateRule_time hrule (.inr (.inr (.inr h))))
    simp only [h]
    exact nextSpecificDate_isNext_iff h hlse hisTime
  · simp only [h]
    exact nextOneTime_isNext_iff h

/-! ### A date before 1970 -/

/-- A reader of instants that accepts no text. -/
def noInstant (_ : String) : Option Int := none

theorem noInstant_range (text : String) (ms : Int) (h : noInstant text = some ms) :
    -2 ^ 63 ≤ ms ∧ ms < 2 ^ 63 :=
  absurd h (Option.some_ne_none ms).symm

/-- Readers that know two dates. -/
def sampleFormats : Formats where
  parseDate := fun text =>
    if text = "1969-12-31" then some (-1) else if text = "2030-01-01" then some 21915 else none
  parseRfc3339 := noInstant
  parseLocalMinute := fun _ => none
  range := noInstant_range

theorem zero_small : -86400 < (0 : Int) ∧ (0 : Int) < 86400 := by decide

def universalTime : Zone := Zone.fixed 0 zero_small

/-- The last day of 1969, at midnight. -/
def pastSchedule : ScheduleDefinition where
  scheduleType := "specific_dates"
  intervalMinutes := none
  timeOfDay := some "00:00"
  daysOfWeek := none
  repeatEvery := 1
  daysOfMonth := none
  specificDates := some ["1969-12-31"]
  runAt := none
  endCondition := "never"
  endDate := none
  maxOccurrences := none
  occurrenceCount := 0
  active := true

theorem pastSchedule_valid :
    validateScheduleDefinition (localCalendar sampleFormats universalTime) pastSchedule = .ok () := by
  rfl

theorem pastSchedule_instant : instantOn universalTime pastSchedule (-1) = some (-86400000) := by
  have hclock : clockAt (looseHourMinute pastSchedule.timeOfDay).1
      (looseHourMinute pastSchedule.timeOfDay).2 (-1) = -86400 := by decide
  unfold instantOn universalTime
  rw [hclock, Zone.fixed_earliest _ (by decide)]
  norm_num

/-- The first day of 2030, at midnight. -/
def aheadSchedule : ScheduleDefinition := { pastSchedule with specificDates := some ["2030-01-01"] }

theorem aheadSchedule_regular : Regular sampleFormats universalTime aheadSchedule 1767225600000 false := by
  have hclock : clockAt (looseHourMinute aheadSchedule.timeOfDay).1
      (looseHourMinute aheadSchedule.timeOfDay).2 21915 = 1893456000 := by decide
  refine .inl ⟨21915, 1893456000000, ⟨_, rfl, _, mem_singleton_self _, rfl⟩, ?_, ?_⟩
  · unfold instantOn universalTime
    rw [hclock, Zone.fixed_earliest _ (by decide)]
    norm_num
  · rw [Later, if_neg Bool.false_ne_true]
    decide

/-- The scheduler finds the day ahead; what it does with the past one is irregular. -/
theorem nextRun_isNext_iff_sample :
    IsNext (laterOccurrences sampleFormats universalTime aheadSchedule 1767225600000 false)
      (computeNextRunWithBoundary (localCalendar sampleFormats universalTime) aheadSchedule
        1767225600000 false) ∧
    (IsNext (laterOccurrences sampleFormats universalTime pastSchedule 1767225600000 false)
        (computeNextRunWithBoundary (localCalendar sampleFormats universalTime) pastSchedule
          1767225600000 false) ↔
      Regular sampleFormats universalTime pastSchedule 1767225600000 false) :=
  ⟨(nextRun_isNext_iff sampleFormats universalTime false rfl (by decide) (by decide)).2
      aheadSchedule_regular,
    nextRun_isNext_iff sampleFormats universalTime false pastSchedule_valid (by decide) (by decide)⟩

/-- The instant before 1970 is read as an unsigned number, which lies far ahead. -/
theorem next_run_of_past_date :
    ¬ ∀ (formats : Formats) (zone : Zone) (schedule : ScheduleDefinition) (nowMs : UInt64)
      (inclusive : Bool),
      validateScheduleDefinition (localCalendar formats zone) schedule = .ok () →
      schedule.scheduleType ≠ "interval" → 946944000000 ≤ nowMs.toNat →
      IsNext (laterOccurrences formats zone schedule nowMs inclusive)
        (computeNextRunWithBoundary (localCalendar formats zone) schedule nowMs inclusive) := by
  intro h
  have hnext := h sampleFormats universalTime pastSchedule 1767225600000 false pastSchedule_valid (by decide)
    (by decide)
  have hdates : ∀ date, SpecificDate sampleFormats pastSchedule date → date = -1 := by
    rintro date ⟨texts, htexts, text, htext, hpar⟩
    obtain rfl := Option.some_inj.mp htexts
    rw [mem_singleton.mp htext] at hpar
    exact (Option.some_inj.mp hpar).symm
  have hdate : SpecificDate sampleFormats pastSchedule (-1) := ⟨_, rfl, _, mem_singleton_self _, rfl⟩
  have htime : looseHourMinute pastSchedule.timeOfDay = (0, 0) := rfl
  have hisTime : isTime 0 0 = true := rfl
  have hrgl := (nextSpecificDate_isNext_iff rfl htime hisTime).mp hnext
  have htoNat : ((asU64 (-86400000)).toNat : Int) = 2 ^ 64 - 86400000 :=
    asU64_toNat_of_neg (by decide) (by decide)
  have hnow : (1767225600000 : UInt64).toNat = 1767225600000 := rfl
  rcases hrgl with ⟨date, ms, hdate', hltr⟩ | hrgl
  · have hinst := hltr.1
    rw [hdates date hdate', pastSchedule_instant] at hinst
    have hah := hltr.2
    rw [← Option.some_inj.mp hinst, Later, if_neg Bool.false_ne_true] at hah
    omega
  · refine hrgl (-1) (-86400000) hdate pastSchedule_instant (by decide) ?_
    rw [Later, if_neg Bool.false_ne_true]
    omega

end Wardian.Schedule
