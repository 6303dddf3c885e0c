/-
The civil calendar, and the instants of its local times.

A date is its number of days since 1 January 1970, in the Gregorian calendar extended to all years.  A
zone tells by how much local clocks differ from universal time at every second, less than a day; it may
change at any second and as often as it likes, so that some local times come twice and others never.

Main results:

* `Civil.year_spec` — the year of a date is the one it lies in;
* `Civil.Zone.earliest_near` — an instant is within a day of its local time read as universal time;
* `Civil.Zone.earliest_eq_some` — what the first instant is.
-/

import Mathlib.Algebra.Order.Ring.Int
import Mathlib.Order.Bounds.Basic

set_option autoImplicit false

namespace Civil

open List

/-! ### Dates -/

/-- The day of the week, from Monday on. -/
def weekday (date : Int) : Int := (date + 3) % 7

/-- The date of the first day of a year. -/
def yearStart (y : Int) : Int := 365 * (y - 1) + (y - 1) / 4 - (y - 1) / 100 + (y - 1) / 400 - 719162

def isLeap (y : Int) : Bool := (y % 4 == 0 && y % 100 != 0) || y % 400 == 0

def daysInMonth (y : Int) : Nat → Nat
  | 1 | 3 | 5 | 7 | 8 | 10 | 12 => 31
  | 4 | 6 | 9 | 11 => 30
  | 2 => if isLeap y then 29 else 28
  | _ => 0

/-- The days of a year in front of a month. -/
def daysBefore (y : Int) : Nat → Nat
  | 0 => 0
  | m + 1 => daysBefore y m + daysInMonth y m

def fromYmd (y : Int) (m d : Nat) : Option Int :=
  if 1 ≤ d ∧ d ≤ daysInMonth y m then some (yearStart y + daysBefore y m + d - 1) else none

/-- The year of a date, from the mean length of a year, which is wrong by one year at most. -/
def year (date : Int) : Int :=
  let guess := 400 * (date + 719162) / 146097 + 1
  if date < yearStart guess then guess - 1
  else if yearStart (guess + 1) ≤ date then guess + 1
  else guess

/-- The number of months of the year that have begun. -/
def month (date : Int) : Nat :=
  ((range 12).filter fun i => yearStart (year date) + daysBefore (year date) (i + 1) ≤ date).length

example : fromYmd 2000 1 3 = some 10959 ∧ year 10959 = 2000 ∧ month 10959 = 1 ∧ weekday 10959 = 0 := by
  decide

example : fromYmd 2024 2 29 = some 19782 ∧ year 19782 = 2024 ∧ month 19782 = 2 := by
  decide

theorem year_spec (date : Int) : yearStart (year date) ≤ date ∧ date < yearStart (year date + 1) := by
  unfold year
  simp only
  split
  · unfold yearStart at *
    omega
  · split <;> unfold yearStart at * <;> omega

variable {y : Int}

theorem yearStart_mono {z : Int} (h : y ≤ z) : yearStart y ≤ yearStart z := by
  unfold yearStart
  omega

theorem le_year {date : Int} (h : yearStart y ≤ date) : y ≤ year date := by
  by_contra hlt
  have hmono := yearStart_mono (show year date + 1 ≤ y by omega)
  have hspec := (year_spec date).2
  omega

theorem yearStart_le_fromYmd {date : Int} {m d : Nat} (h : fromYmd y m d = some date) :
    yearStart y ≤ date := by
  unfold fromYmd at h
  split at h
  · have := Option.some_inj.mp h
    omega
  · exact absurd h (Option.some_ne_none _).symm

/-! ### Zones -/

/-- By how many seconds local clocks are ahead of universal time, at each second. -/
structure Zone where
  offset : Int → Int
  small : ∀ second, -86400 < offset second ∧ offset second < 86400

namespace Zone

variable (zone : Zone)

/-- The local time at a second, as the second at which universal time reads the same. -/
def localSecond (second : Int) : Int := second + zone.offset second

/-- The local date at a millisecond. -/
def dateOf (ms : Int) : Int := zone.localSecond (ms / 1000) / 86400

/-- The seconds at which clocks may show a local time, from the first to the last. -/
def nearby (clock : Int) : List Int := (range 172799).map fun (i : Nat) => clock - 86399 + (i : Int)

/-- The first second at which local clocks show a time. -/
def firstSecond (clock : Int) : Option Int :=
  (nearby clock).find? fun second => zone.localSecond second == clock

/-- The millisecond of a local time, where it is a signed number of 64 bits. -/
def earliest (clock : Int) : Option Int :=
  (zone.firstSecond clock).bind fun second =>
    if -2 ^ 63 ≤ second * 1000 ∧ second * 1000 < 2 ^ 63 then some (second * 1000) else none

variable {clock second : Int}

theorem mem_nearby : second ∈ nearby clock ↔ clock - 86400 < second ∧ second < clock + 86400 := by
  unfold nearby
  rw [mem_map]
  constructor
  · rintro ⟨i, hi, rfl⟩
    rw [mem_range] at hi
    omega
  · rintro ⟨hlow, hhigh⟩
    exact ⟨(second - clock + 86399).toNat, mem_range.mpr (by omega), by omega⟩

theorem nearby_of_localSecond (h : zone.localSecond second = clock) : second ∈ nearby clock := by
  have hsml := zone.small second
  unfold localSecond at h
  rw [mem_nearby]
  omega

theorem nearby_pairwise (clock : Int) : (nearby clock).Pairwise (· < ·) := by
  unfold nearby
  rw [pairwise_map]
  exact pairwise_lt_range.imp fun h => by omega

theorem firstSecond_eq_none : zone.firstSecond clock = none ↔ ∀ second, zone.localSecond second ≠ clock := by
  unfold firstSecond
  rw [find?_eq_none]
  constructor
  · intro h second hsec
    exact h second (zone.nearby_of_localSecond hsec) (beq_iff_eq.mpr hsec)
  · intro h second _ hsec
    exact h second (beq_iff_eq.mp hsec)

theorem isLeast_of_firstSecond (h : zone.firstSecond clock = some second) :
    IsLeast {s | zone.localSecond s = clock} second := by
  unfold firstSecond at h
  obtain ⟨hshown, before, behind, hspl, hbef⟩ := find?_eq_some_iff_append.mp h
  refine ⟨beq_iff_eq.mp hshown, ?_⟩
  intro other hoth
  have hmem := zone.nearby_of_localSecond hoth
  have hpair := nearby_pairwise clock
  rw [hspl] at hmem hpair
  rw [mem_append, mem_cons] at hmem
  rcases hmem with hmem | rfl | hmem
  · have hnot := hbef other hmem
    rw [beq_iff_eq.mpr hoth] at hnot
    exact absurd hnot (by decide)
  · exact le_refl _
  · exact (rel_of_pairwise_cons (pairwise_append.mp hpair).2.1 hmem).le

/-- The first second of a local time is the least at which clocks show it. -/
theorem firstSecond_eq_some :
    zone.firstSecond clock = some second ↔ IsLeast {s | zone.localSecond s = clock} second := by
  refine ⟨zone.isLeast_of_firstSecond, ?_⟩
  intro h
  cases hfst : zone.firstSecond clock with
  | none => exact absurd h.1 (zone.firstSecond_eq_none.mp hfst second)
  | some other => rw [(zone.isLeast_of_firstSecond hfst).unique h]

variable {ms : Int}

theorem earliest_eq_some :
    zone.earliest clock = some ms ↔ ∃ second, IsLeast {s | zone.localSecond s = clock} second ∧
      ms = second * 1000 ∧ -2 ^ 63 ≤ ms ∧ ms < 2 ^ 63 := by
  unfold earliest
  rw [Option.bind_eq_some_iff]
  constructor
  · rintro ⟨second, hfst, h⟩
    split at h
    · obtain rfl := Option.some_inj.mp h
      exact ⟨second, zone.firstSecond_eq_some.mp hfst, rfl, ‹_›⟩
    · exact absurd h (Option.some_ne_none _).symm
  · rintro ⟨second, hleast, rfl, hrange⟩
    exact ⟨second, zone.firstSecond_eq_some.mpr hleast, if_pos hrange⟩

/-- An instant is within a day of its local time, read as universal time. -/
theorem earliest_near (h : zone.earliest clock = some ms) :
    (clock - 86400) * 1000 < ms ∧ ms < (clock + 86400) * 1000 := by
  obtain ⟨second, hleast, rfl, -⟩ := zone.earliest_eq_some.mp h
  have hnear := mem_nearby.mp (zone.nearby_of_localSecond hleast.1)
  omega

theorem earliest_range (h : zone.earliest clock = some ms) : -2 ^ 63 ≤ ms ∧ ms < 2 ^ 63 := by
  obtain ⟨second, -, -, hrange⟩ := zone.earliest_eq_some.mp h
  exact hrange

/-- The local date at an instant is that of universal time or one of the two beside it. -/
theorem dateOf_near (ms : Int) : ms / 86400000 - 1 ≤ zone.dateOf ms ∧ zone.dateOf ms ≤ ms / 86400000 + 1 := by
  have hsml := zone.small (ms / 1000)
  unfold dateOf localSecond
  omega

end Zone

/-- A zone whose clocks never change. -/
def Zone.fixed (offset : Int) (h : -86400 < offset ∧ offset < 86400) : Zone where
  offset := fun _ => offset
  small := fun _ => h

theorem Zone.fixed_earliest {offset : Int} (h : -86400 < offset ∧ offset < 86400) {clock : Int}
    (hrange : -2 ^ 63 ≤ (clock - offset) * 1000 ∧ (clock - offset) * 1000 < 2 ^ 63) :
    (Zone.fixed offset h).earliest clock = some ((clock - offset) * 1000) := by
  refine (Zone.fixed offset h).earliest_eq_some.mpr ⟨clock - offset, ⟨?_, ?_⟩, rfl, hrange⟩
  · exact sub_add_cancel clock offset
  · intro second hsec
    have hshown : second + offset = clock := hsec
    omega

end Civil
