import Mathlib.Algebra.BigOperators.Intervals
import Mathlib.Algebra.Order.BigOperators.Group.Finset
import Mathlib.Logic.Equiv.Basic
import Mathlib.Order.Monotone.Basic
import Mathlib.Tactic.Common

/-!
# Civil time

Dates and times of the Gregorian calendar from the year 0 on. A `DateTime` carries the proof that
it is one. Its `seconds` are the seconds since the start of the year 0, counted by the lengths of
the years, the months and the days; they number all date-times without a gap, so that
`DateTime.later` can go any number of seconds on.
-/

namespace TivaAws.Civil

open Finset

/-! ## Positions in partial sums -/

section Positions

variable {f : ℕ → ℕ} {i j x y : ℕ}

/-- Two offsets from partial sums that meet are the same offset from the same sum. -/
theorem position_unique (hf : Monotone f) (hx : f i + x < f (i + 1)) (hy : f j + y < f (j + 1))
    (h : f i + x = f j + y) : i = j ∧ x = y := by
  rcases Nat.lt_trichotomy i j with hlt | heq | hlt
  · have hle : f (i + 1) ≤ f j := hf hlt
    omega
  · subst heq
    exact ⟨rfl, by omega⟩
  · have hle : f (j + 1) ≤ f i := hf hlt
    omega

/-- Every number is at an offset from a partial sum. -/
theorem exists_position (hzero : f 0 = 0) (hf : StrictMono f) (n : ℕ) :
    ∃ i x, f i + x = n ∧ n < f (i + 1) := by
  induction n with
  | zero => exact ⟨0, 0, by simp [hzero], by simpa [hzero] using hf Nat.zero_lt_one⟩
  | succ n ih =>
      obtain ⟨i, x, hx, hlt⟩ := ih
      rcases Nat.lt_or_ge (n + 1) (f (i + 1)) with h | h
      · exact ⟨i, x + 1, by omega, h⟩
      · have hnext : f (i + 1) < f (i + 1 + 1) := hf (Nat.lt_succ_self _)
        exact ⟨i + 1, 0, by omega, by omega⟩

end Positions

/-! ## Years and months -/

/-- The rule for leap years. -/
def IsLeap (year : ℕ) : Prop := 4 ∣ year ∧ (100 ∣ year → 400 ∣ year)

instance (year : ℕ) : Decidable (IsLeap year) := inferInstanceAs (Decidable (_ ∧ _))

/-- The days of a month. -/
def monthLength (year month : ℕ) : ℕ :=
  if month = 2 then if IsLeap year then 29 else 28
  else if month = 4 ∨ month = 6 ∨ month = 9 ∨ month = 11 then 30 else 31

theorem month_length_pos (year month : ℕ) : 0 < monthLength year month := by
  unfold monthLength
  split_ifs <;> decide

/-- The days of a year before a month. -/
def daysBeforeMonth (year month : ℕ) : ℕ := ∑ m ∈ Ico 1 month, monthLength year m

/-- The days of a year. -/
def yearLength (year : ℕ) : ℕ := daysBeforeMonth year 13

/-- The days before a year. -/
def daysBeforeYear (year : ℕ) : ℕ := ∑ y ∈ range year, yearLength y

theorem days_before_month_succ (year : ℕ) {month : ℕ} (h : 1 ≤ month) :
    daysBeforeMonth year (month + 1) = daysBeforeMonth year month + monthLength year month :=
  sum_Ico_succ_top h _

theorem days_before_year_succ (year : ℕ) :
    daysBeforeYear (year + 1) = daysBeforeYear year + yearLength year :=
  sum_range_succ _ _

theorem days_before_month_strict_mono (year : ℕ) :
    StrictMono fun i => daysBeforeMonth year (i + 1) := by
  refine strictMono_nat_of_lt_succ ?_
  intro i
  show daysBeforeMonth year (i + 1) < daysBeforeMonth year (i + 1 + 1)
  rw [days_before_month_succ year (Nat.le_add_left 1 i)]
  exact Nat.lt_add_of_pos_right (month_length_pos year (i + 1))

theorem days_before_month_one (year : ℕ) : daysBeforeMonth year 1 = 0 := rfl

theorem year_length_pos (year : ℕ) : 0 < yearLength year := by
  have h : daysBeforeMonth year 1 < daysBeforeMonth year 13 :=
    days_before_month_strict_mono year (show 0 < 12 by decide)
  rwa [days_before_month_one] at h

theorem days_before_year_strict_mono : StrictMono daysBeforeYear := by
  refine strictMono_nat_of_lt_succ ?_
  intro year
  rw [days_before_year_succ]
  exact Nat.lt_add_of_pos_right (year_length_pos year)

/-! ## Day numbers -/

/-- The number of a day, counted from the start of the year 0. -/
def dayNumber (year month day : ℕ) : ℕ :=
  daysBeforeYear year + (daysBeforeMonth year month + (day - 1))

theorem day_number_next_day (year month : ℕ) {day : ℕ} (h : 1 ≤ day) :
    dayNumber year month (day + 1) = dayNumber year month day + 1 := by
  unfold dayNumber
  omega

theorem day_number_next_month (year : ℕ) {month : ℕ} (h : 1 ≤ month) :
    dayNumber year (month + 1) 1 = dayNumber year month (monthLength year month) + 1 := by
  have hpos := month_length_pos year month
  unfold dayNumber
  rw [days_before_month_succ year h]
  omega

theorem day_number_next_year (year : ℕ) :
    dayNumber (year + 1) 1 1 = dayNumber year 12 (monthLength year 12) + 1 := by
  have hpos := month_length_pos year 12
  have hlast := days_before_month_succ year (show 1 ≤ 12 by decide)
  unfold dayNumber
  rw [days_before_year_succ, days_before_month_one, yearLength, hlast]
  omega

/-! ## Date-times -/

/-- A date and a time of day. -/
@[ext] structure DateTime where
  year : ℕ
  month : ℕ
  day : ℕ
  hour : ℕ
  minute : ℕ
  second : ℕ
  month_pos : 1 ≤ month
  month_le : month ≤ 12
  day_pos : 1 ≤ day
  day_le : day ≤ monthLength year month
  hour_lt : hour < 24
  minute_lt : minute < 60
  second_lt : second < 60

namespace DateTime

/-- The seconds of a time of day on a day. -/
def secondNumber (number hour minute second : ℕ) : ℕ :=
  ((number * 24 + hour) * 60 + minute) * 60 + second

/-- The seconds from the start of the year 0 on. -/
def seconds (d : DateTime) : ℕ :=
  secondNumber (dayNumber d.year d.month d.day) d.hour d.minute d.second

/-- The day is before the end of its month. -/
theorem day_lt (d : DateTime) :
    daysBeforeMonth d.year d.month + (d.day - 1) < daysBeforeMonth d.year (d.month + 1) := by
  have hpos := d.day_pos
  have hle := d.day_le
  rw [days_before_month_succ d.year d.month_pos]
  omega

/-- The day is before the end of its year. -/
theorem day_number_lt (d : DateTime) :
    dayNumber d.year d.month d.day < daysBeforeYear (d.year + 1) := by
  have hlast : daysBeforeMonth d.year (d.month + 1) ≤ daysBeforeMonth d.year 13 :=
    (days_before_month_strict_mono d.year).monotone d.month_le
  have hday := d.day_lt
  show daysBeforeYear d.year + _ < _
  rw [days_before_year_succ, yearLength]
  omega

theorem seconds_injective : Function.Injective seconds := by
  intro d e h
  unfold seconds secondNumber at h
  have hd := And.intro d.hour_lt (And.intro d.minute_lt d.second_lt)
  have he := And.intro e.hour_lt (And.intro e.minute_lt e.second_lt)
  have hday : dayNumber d.year d.month d.day = dayNumber e.year e.month e.day := by omega
  obtain ⟨hyear, hrest⟩ := position_unique days_before_year_strict_mono.monotone
    d.day_number_lt e.day_number_lt hday
  have hposd := d.month_pos
  have hpose := e.month_pos
  have hmonth := position_unique (f := fun i => daysBeforeMonth d.year (i + 1))
    (i := d.month - 1) (j := e.month - 1) (days_before_month_strict_mono d.year).monotone
    (by simpa only [Nat.sub_add_cancel hposd] using d.day_lt)
    (by simpa only [Nat.sub_add_cancel hpose, hyear] using e.day_lt)
    (by simpa only [Nat.sub_add_cancel hposd, Nat.sub_add_cancel hpose, hyear] using hrest)
  have hposd' := d.day_pos
  have hpose' := e.day_pos
  ext <;> omega

theorem seconds_surjective : Function.Surjective seconds := by
  intro n
  obtain ⟨year, x, hx, hyear⟩ :=
    exists_position (f := daysBeforeYear) rfl days_before_year_strict_mono (n / 86400)
  obtain ⟨m, day, hday, hmonth⟩ :=
    exists_position (f := fun i => daysBeforeMonth year (i + 1)) rfl
      (days_before_month_strict_mono year) x
  change daysBeforeMonth year (m + 1) + day = x at hday
  change x < daysBeforeMonth year (m + 1 + 1) at hmonth
  rw [days_before_year_succ] at hyear
  have hm : m < 12 := by
    by_contra h
    have hlast : yearLength year ≤ daysBeforeMonth year (m + 1) :=
      (days_before_month_strict_mono year).monotone (Nat.le_of_not_lt h)
    omega
  rw [days_before_month_succ year (Nat.le_add_left 1 m)] at hmonth
  refine ⟨{
    year
    month := m + 1
    day := day + 1
    hour := n / 3600 % 24
    minute := n / 60 % 60
    second := n % 60
    month_pos := by omega
    month_le := hm
    day_pos := by omega
    day_le := by omega
    hour_lt := Nat.mod_lt _ (by decide)
    minute_lt := Nat.mod_lt _ (by decide)
    second_lt := Nat.mod_lt _ (by decide) }, ?_⟩
  unfold seconds secondNumber dayNumber
  simp only [Nat.add_sub_cancel]
  omega

/-- Date-times are numbered by their seconds. -/
noncomputable def numbering : DateTime ≃ ℕ :=
  Equiv.ofBijective seconds ⟨seconds_injective, seconds_surjective⟩

/-- The date-time a number of seconds later. -/
noncomputable def later (d : DateTime) (n : ℕ) : DateTime := numbering.symm (d.seconds + n)

@[simp] theorem seconds_later (d : DateTime) (n : ℕ) : (d.later n).seconds = d.seconds + n :=
  numbering.apply_symm_apply _

theorem later_eq_iff {d e : DateTime} {n : ℕ} : d.later n = e ↔ e.seconds = d.seconds + n := by
  constructor
  · rintro rfl
    exact seconds_later d n
  · intro h
    exact seconds_injective ((seconds_later d n).trans h.symm)

@[simp] theorem later_zero (d : DateTime) : d.later 0 = d := later_eq_iff.mpr rfl

theorem later_later (d : DateTime) (m n : ℕ) : (d.later m).later n = d.later (m + n) := by
  rw [later_eq_iff]
  simp only [seconds_later, Nat.add_assoc]

/-- Of two date-times the earlier one is not in a later year. -/
theorem year_le_of_seconds_le {d e : DateTime} (h : d.seconds ≤ e.seconds) :
    d.year ≤ e.year := by
  by_contra hyear
  have hle : daysBeforeYear (e.year + 1) ≤ daysBeforeYear d.year :=
    days_before_year_strict_mono.monotone (Nat.lt_of_not_le hyear)
  have hday := e.day_number_lt
  have hbefore : daysBeforeYear d.year ≤ dayNumber d.year d.month d.day := Nat.le_add_right _ _
  have hhour := e.hour_lt
  have hminute := e.minute_lt
  have hsecond := e.second_lt
  unfold seconds secondNumber at h
  omega

theorem year_later_le (d : DateTime) {m n : ℕ} (h : m ≤ n) :
    (d.later m).year ≤ (d.later n).year := by
  refine year_le_of_seconds_le ?_
  simpa using h

end DateTime

end TivaAws.Civil
