import TivaAws.Foundation.Civil
import Mathlib.Tactic.IntervalCases

/-!
# The software calendar

`OSUpdateCalendar` of `OSTime.c`, which the clock task calls once a second, and that it keeps
civil time.
-/

namespace TivaAws.Clock

open Civil

/-! ## Model -/

/-- `OS_RTC`. -/
structure OS_RTC where
  year : UInt16
  month : UInt8
  day : UInt8
  hour : UInt8
  min : UInt8
  sec : UInt8
  deriving DecidableEq, Repr

/-- `MonthLength`. The first element is a dummy. -/
def monthLengths : Vector UInt8 13 := #v[0, 31, 28, 31, 30, 31, 30, 31, 31, 30, 31, 30, 31]

/-- `OSRtc` and `LeapMonth`. The indices with which `MonthLength` has been read are kept. -/
structure Calendar where
  rtc : OS_RTC
  leapMonth : UInt8
  monthIndices : List UInt8
  deriving DecidableEq, Repr

/-- `SetCalendar`. -/
def setCalendar (rtc : OS_RTC) (calendar : Calendar) : Calendar := { calendar with rtc }

/-- `GetCalendar`. -/
def getCalendar (calendar : Calendar) : OS_RTC := calendar.rtc

/-- What `OSUpdateCalendar` stores in `LeapMonth`. -/
def leapMonthOf (rtc : OS_RTC) : UInt8 :=
  if rtc.month = 2 then
    if rtc.year &&& 0x0003 = 0 then
      if rtc.year % 100 = 0 then
        if rtc.year % 400 = 0 then 1 else 0
      else 1
    else 0
  else 0

/-- The part of `OSUpdateCalendar` from the check of the month length on; `none` if the table is
read outside its bounds. -/
def checkMonthLength (calendar : Calendar) : Option Calendar :=
  let rtc := calendar.rtc
  let leapMonth := leapMonthOf rtc
  monthLengths[rtc.month.toNat]?.map fun length =>
    { leapMonth
      monthIndices := calendar.monthIndices ++ [rtc.month]
      rtc :=
        -- The sum is an `int`.
        if rtc.day.toNat > length.toNat + leapMonth.toNat then
          let rtc := { rtc with day := 1, month := rtc.month + 1 }
          if rtc.month > 12 then { rtc with month := 1, year := rtc.year + 1 } else rtc
        else rtc }

/-- `OSUpdateCalendar`. -/
def osUpdateCalendar (calendar : Calendar) : Option Calendar :=
  let rtc := calendar.rtc
  let rtc := { rtc with sec := rtc.sec + 1 }
  if rtc.sec = 60 then
    let rtc := { rtc with sec := 0, min := rtc.min + 1 }
    if rtc.min > 59 then
      let rtc := { rtc with min := 0, hour := rtc.hour + 1 }
      if rtc.hour > 23 then
        let rtc := { rtc with hour := 0, day := rtc.day + 1 }
        checkMonthLength { calendar with rtc }
      else some { calendar with rtc }
    else some { calendar with rtc }
  else some { calendar with rtc }

/-- The calendar after a number of calls of `OSUpdateCalendar`. -/
def updates : ℕ → Calendar → Option Calendar
  | 0, calendar => some calendar
  | n + 1, calendar => osUpdateCalendar calendar >>= updates n

/-! ## The month length -/

/-- The clock shows a date-time. -/
structure OS_RTC.Shows (rtc : OS_RTC) (d : DateTime) : Prop where
  year : rtc.year.toNat = d.year
  month : rtc.month.toNat = d.month
  day : rtc.day.toNat = d.day
  hour : rtc.hour.toNat = d.hour
  min : rtc.min.toNat = d.minute
  sec : rtc.sec.toNat = d.second

theorem and_three_eq_zero_iff (year : UInt16) : year &&& 0x0003 = 0 ↔ 4 ∣ year.toNat := by
  have hmod : (year &&& 0x0003).toNat = year.toNat % 4 := by
    rw [UInt16.toNat_and]
    exact Nat.and_two_pow_sub_one_eq_mod year.toNat 2
  rw [← UInt16.toNat_inj, hmod]
  exact (Nat.dvd_iff_mod_eq_zero ..).symm

theorem mod_eq_zero_iff (year divisor : UInt16) :
    year % divisor = 0 ↔ divisor.toNat ∣ year.toNat := by
  rw [← UInt16.toNat_inj, UInt16.toNat_mod]
  exact (Nat.dvd_iff_mod_eq_zero ..).symm

/-- The nested conditional is the rule for leap years. -/
theorem leap_month_of_eq (rtc : OS_RTC) :
    (leapMonthOf rtc).toNat =
      if rtc.month.toNat = 2 ∧ IsLeap rtc.year.toNat then 1 else 0 := by
  have hfour := and_three_eq_zero_iff rtc.year
  have hhundred := mod_eq_zero_iff rtc.year 100
  have hfour_hundred := mod_eq_zero_iff rtc.year 400
  have hmonth : rtc.month = 2 ↔ rtc.month.toNat = 2 := UInt8.toNat_inj.symm
  unfold leapMonthOf IsLeap
  simp only [hfour, hhundred, hfour_hundred, hmonth, UInt16.reduceToNat]
  split_ifs <;> simp_all

/-- For a month from 1 to 12 the table and `LeapMonth` give the length of the month. -/
theorem month_lengths_get (rtc : OS_RTC) (hpos : 1 ≤ rtc.month.toNat)
    (hle : rtc.month.toNat ≤ 12) :
    ∃ length, monthLengths[rtc.month.toNat]? = some length ∧
      length.toNat + (leapMonthOf rtc).toNat =
        monthLength rtc.year.toNat rtc.month.toNat := by
  rw [leap_month_of_eq]
  generalize rtc.month.toNat = month at hpos hle ⊢
  unfold monthLength
  by_cases hleap : IsLeap rtc.year.toNat
  · simp only [hleap, and_true, if_true]
    interval_cases month <;> exact ⟨_, rfl, rfl⟩
  · simp only [hleap, and_false, if_false]
    interval_cases month <;> exact ⟨_, rfl, rfl⟩

/-! ## One second -/

theorem toNat_add_one {x : UInt8} (h : x.toNat < 255) : (x + 1).toNat = x.toNat + 1 := by
  rw [UInt8.toNat_add]
  exact Nat.mod_eq_of_lt (Nat.succ_lt_succ h)

/-- One second has passed on the clock, and the month lengths have been read for months from 1
to 12 only. -/
def Passes (d : DateTime) (calendar : Calendar) (result : Option Calendar) : Prop :=
  ∃ next months, result = some next ∧ next.rtc.Shows (d.later 1) ∧
    next.monthIndices = calendar.monthIndices ++ months ∧
    ∀ month ∈ months, 1 ≤ month ∧ month ≤ 12

theorem passes_of_shows {d e : DateTime} {calendar : Calendar} {rtc : OS_RTC}
    (h : rtc.Shows e) (hsecond : e.seconds = d.seconds + 1) :
    Passes d calendar (some { calendar with rtc }) := by
  refine ⟨_, [], rfl, ?_, (List.append_nil _).symm, fun month hmem => absurd hmem List.not_mem_nil⟩
  rw [DateTime.later_eq_iff.mpr hsecond]
  exact h

/-- After the last second of a day the clock goes on to the next day, month or year. -/
theorem check_month_length_passes {d : DateTime} {calendar : Calendar}
    (hlast : d.hour = 23 ∧ d.minute = 59 ∧ d.second = 59)
    (hyear : calendar.rtc.year.toNat = d.year) (hmonth : calendar.rtc.month.toNat = d.month)
    (hday : calendar.rtc.day.toNat = d.day + 1)
    (hmidnight : calendar.rtc.hour = 0 ∧ calendar.rtc.min = 0 ∧ calendar.rtc.sec = 0)
    (hfits : (d.later 1).year < 2 ^ 16) : Passes d calendar (checkMonthLength calendar) := by
  obtain ⟨length, hlength, hsum⟩ := month_lengths_get calendar.rtc
    (hmonth ▸ d.month_pos) (hmonth ▸ d.month_le)
  obtain ⟨hhour, hmin, hsec⟩ := hmidnight
  have hpos := d.day_pos
  have hle := d.day_le
  rw [hyear, hmonth] at hsum
  unfold checkMonthLength
  simp only [hlength, Option.map_some]
  refine ⟨_, [calendar.rtc.month], rfl, ?_, rfl, ?_⟩
  · simp only [hsum, hday]
    split_ifs with hover hwrap
    · -- The last day of the year.
      have hday' : d.day = monthLength d.year d.month := by omega
      have hmonth' : d.month = 12 := by
        have h12 := d.month_le
        have h : 12 < (calendar.rtc.month + 1).toNat := UInt8.lt_iff_toNat_lt.mp hwrap
        rw [toNat_add_one (by omega), hmonth] at h
        omega
      have hnext : d.later 1 = ⟨d.year + 1, 1, 1, 0, 0, 0, le_refl _, by decide, le_refl _,
          month_length_pos _ _, by decide, by decide, by decide⟩ := by
        rw [DateTime.later_eq_iff]
        simp only [DateTime.seconds, DateTime.secondNumber, hlast, day_number_next_year]
        rw [hday', hmonth']
        omega
      rw [hnext] at hfits ⊢
      refine ⟨?_, rfl, rfl, ?_, ?_, ?_⟩
      · show (calendar.rtc.year + 1).toNat = d.year + 1
        rw [UInt16.toNat_add, hyear]
        exact Nat.mod_eq_of_lt hfits
      · exact congrArg UInt8.toNat hhour
      · exact congrArg UInt8.toNat hmin
      · exact congrArg UInt8.toNat hsec
    · -- The last day of a month.
      have hday' : d.day = monthLength d.year d.month := by omega
      have h12 := d.month_le
      have hsucc : (calendar.rtc.month + 1).toNat = d.month + 1 := by
        rw [toNat_add_one (by omega), hmonth]
      have hmonth' : d.month + 1 ≤ 12 := by
        have h : ¬ 12 < (calendar.rtc.month + 1).toNat := fun h =>
          hwrap (UInt8.lt_iff_toNat_lt.mpr h)
        omega
      have hnext : d.later 1 = ⟨d.year, d.month + 1, 1, 0, 0, 0, Nat.le_add_left _ _, hmonth',
          le_refl _, month_length_pos _ _, by decide, by decide, by decide⟩ := by
        rw [DateTime.later_eq_iff]
        simp only [DateTime.seconds, DateTime.secondNumber, hlast,
          day_number_next_month d.year d.month_pos]
        rw [← hday']
        omega
      rw [hnext]
      refine ⟨hyear, hsucc, rfl, ?_, ?_, ?_⟩
      · exact congrArg UInt8.toNat hhour
      · exact congrArg UInt8.toNat hmin
      · exact congrArg UInt8.toNat hsec
    · have hnext : d.later 1 = ⟨d.year, d.month, d.day + 1, 0, 0, 0, d.month_pos, d.month_le,
          Nat.le_add_left _ _, by omega, by decide, by decide, by decide⟩ := by
        rw [DateTime.later_eq_iff]
        simp only [DateTime.seconds, DateTime.secondNumber, hlast,
          day_number_next_day d.year d.month hpos]
        omega
      rw [hnext]
      refine ⟨hyear, hmonth, hday, ?_, ?_, ?_⟩
      · exact congrArg UInt8.toNat hhour
      · exact congrArg UInt8.toNat hmin
      · exact congrArg UInt8.toNat hsec
  · intro month hmem
    rw [List.mem_singleton] at hmem
    subst hmem
    refine ⟨?_, ?_⟩
    · exact UInt8.le_iff_toNat_le.mpr (hmonth ▸ d.month_pos)
    · exact UInt8.le_iff_toNat_le.mpr (hmonth ▸ d.month_le)

/-- One call is one second. -/
theorem update_calendar_passes {d : DateTime} {calendar : Calendar}
    (hshows : calendar.rtc.Shows d) (hfits : (d.later 1).year < 2 ^ 16) :
    Passes d calendar (osUpdateCalendar calendar) := by
  obtain ⟨hyear, hmonth, hday, hhour, hmin, hsec⟩ := hshows
  have hsecond := d.second_lt
  have hminute := d.minute_lt
  have hhours := d.hour_lt
  have hsec' : (calendar.rtc.sec + 1).toNat = d.second + 1 := by
    rw [toNat_add_one (by omega), hsec]
  have hmin' : (calendar.rtc.min + 1).toNat = d.minute + 1 := by
    rw [toNat_add_one (by omega), hmin]
  have hhour' : (calendar.rtc.hour + 1).toNat = d.hour + 1 := by
    rw [toNat_add_one (by omega), hhour]
  have hlast (h : calendar.rtc.sec + 1 = 60) : d.second = 59 := by
    have h60 : (calendar.rtc.sec + 1).toNat = 60 := congrArg UInt8.toNat h
    omega
  have hlastMin (h : calendar.rtc.min + 1 > 59) : d.minute = 59 := by
    have h59 : 59 < (calendar.rtc.min + 1).toNat := UInt8.lt_iff_toNat_lt.mp h
    omega
  unfold osUpdateCalendar
  simp only
  split_ifs with hcarry hcarryMin hcarryHour
  · have hlastHour : d.hour = 23 := by
      have h : 23 < (calendar.rtc.hour + 1).toNat := UInt8.lt_iff_toNat_lt.mp hcarryHour
      omega
    have hday' : (calendar.rtc.day + 1).toNat = d.day + 1 := by
      have hle := d.day_le
      have hlength : monthLength d.year d.month ≤ 31 := by
        unfold monthLength
        split_ifs <;> decide
      rw [toNat_add_one (by omega), hday]
    exact check_month_length_passes ⟨hlastHour, hlastMin hcarryMin, hlast hcarry⟩ hyear hmonth hday'
      ⟨rfl, rfl, rfl⟩ hfits
  · have hroom : d.hour + 1 < 24 := by
      have h : ¬ 23 < (calendar.rtc.hour + 1).toNat := fun h =>
        hcarryHour (UInt8.lt_iff_toNat_lt.mpr h)
      omega
    refine passes_of_shows (e := { d with
      hour := d.hour + 1, minute := 0, second := 0
      hour_lt := hroom, minute_lt := by decide, second_lt := by decide }) ?_ ?_
    · exact ⟨hyear, hmonth, hday, hhour', rfl, rfl⟩
    · simp only [DateTime.seconds, DateTime.secondNumber, hlast hcarry, hlastMin hcarryMin]
      omega
  · have hroom : d.minute + 1 < 60 := by
      have h : ¬ 59 < (calendar.rtc.min + 1).toNat := fun h =>
        hcarryMin (UInt8.lt_iff_toNat_lt.mpr h)
      omega
    refine passes_of_shows (e := { d with
      minute := d.minute + 1, second := 0
      minute_lt := hroom, second_lt := by decide }) ?_ ?_
    · exact ⟨hyear, hmonth, hday, hhour, hmin', rfl⟩
    · simp only [DateTime.seconds, DateTime.secondNumber, hlast hcarry]
      omega
  · have hroom : d.second + 1 < 60 := by
      have h : (calendar.rtc.sec + 1).toNat ≠ 60 := fun h => hcarry (UInt8.toNat_inj.mp h)
      omega
    refine passes_of_shows (e := { d with second := d.second + 1, second_lt := hroom }) ?_ ?_
    · exact ⟨hyear, hmonth, hday, hhour, hmin, hsec'⟩
    · simp only [DateTime.seconds, DateTime.secondNumber]
      omega

/-! ## Any number of seconds -/

/-- One second after the other. -/
theorem updates_pass {d : DateTime} {calendar : Calendar} (hshows : calendar.rtc.Shows d)
    {n k : ℕ} (hk : k ≤ n) (hfits : (d.later n).year < 2 ^ 16) :
    ∃ later months, updates k calendar = some later ∧ later.rtc.Shows (d.later k) ∧
      later.monthIndices = calendar.monthIndices ++ months ∧
      ∀ month ∈ months, 1 ≤ month ∧ month ≤ 12 := by
  induction k generalizing d calendar n with
  | zero =>
      refine ⟨calendar, [], rfl, ?_, (List.append_nil _).symm,
        fun month hmem => absurd hmem List.not_mem_nil⟩
      rw [DateTime.later_zero]
      exact hshows
  | succ k ih =>
      have hfirst : (d.later 1).year < 2 ^ 16 :=
        Nat.lt_of_le_of_lt (d.year_later_le (Nat.le_trans (Nat.le_add_left 1 k) hk)) hfits
      obtain ⟨next, months, hnext, hshown, hmonths, hvalid⟩ :=
        update_calendar_passes hshows hfirst
      have hrest : ((d.later 1).later k).year < 2 ^ 16 := by
        rw [DateTime.later_later, Nat.add_comm]
        exact Nat.lt_of_le_of_lt (d.year_later_le hk) hfits
      obtain ⟨later, more, hlater, hlaterShown, hmore, hmoreValid⟩ :=
        ih hshown (le_refl k) hrest
      refine ⟨later, months ++ more, ?_, ?_, ?_, ?_⟩
      · rw [updates, hnext]
        exact hlater
      · rwa [DateTime.later_later, Nat.add_comm] at hlaterShown
      · rw [hmore, hmonths, List.append_assoc]
      · intro month hmem
        rcases List.mem_append.mp hmem with hmem | hmem
        · exact hvalid month hmem
        · exact hmoreValid month hmem

/-- After the calendar is set to a date-time, each of any number of calls makes it show the
date-time one second later, as long as the year fits, and the table of month lengths is read for the
months 1 to 12 only. -/
theorem calendar_keeps_civil_time {d : DateTime} {rtc : OS_RTC} (hshows : rtc.Shows d) {n : ℕ}
    (hfits : (d.later n).year < 2 ^ 16) (calendar : Calendar) :
    ∀ k ≤ n, ∃ later months, updates k (setCalendar rtc calendar) = some later ∧
      (getCalendar later).Shows (d.later k) ∧
      later.monthIndices = calendar.monthIndices ++ months ∧
      ∀ month ∈ months, 1 ≤ month ∧ month ≤ 12 :=
  fun _ hk => updates_pass hshows hk hfits

/-- The last second of 28 February 2000. -/
def beforeLeapDay : DateTime where
  year := 2000
  month := 2
  day := 28
  hour := 23
  minute := 59
  second := 59
  month_pos := by decide
  month_le := by decide
  day_pos := by decide
  day_le := by decide
  hour_lt := by decide
  minute_lt := by decide
  second_lt := by decide

/-- 2000 is a leap year, although it ends a century. -/
theorem calendar_keeps_leap_day :
    ∃ later months,
      updates 1 (setCalendar ⟨2000, 2, 28, 23, 59, 59⟩ ⟨⟨0, 0, 0, 0, 0, 0⟩, 0, []⟩) = some later ∧
        (getCalendar later).Shows (beforeLeapDay.later 1) ∧
        later.monthIndices = [] ++ months ∧ ∀ month ∈ months, 1 ≤ month ∧ month ≤ 12 := by
  have hnext : beforeLeapDay.later 1 = { beforeLeapDay with
      day := 29, hour := 0, minute := 0, second := 0
      day_pos := by decide, day_le := by decide, hour_lt := by decide
      minute_lt := by decide, second_lt := by decide } := by
    rw [DateTime.later_eq_iff]
    simp only [DateTime.seconds, DateTime.secondNumber, beforeLeapDay,
      day_number_next_day 2000 2 (show 1 ≤ 28 by decide)]
    omega
  refine calendar_keeps_civil_time (d := beforeLeapDay) ⟨rfl, rfl, rfl, rfl, rfl, rfl⟩ ?_ _ 1
    (Nat.le_refl 1)
  rw [hnext]
  show 2000 < 2 ^ 16
  decide

end TivaAws.Clock
