import Mathlib.Algebra.Order.SuccPred
import Mathlib.Data.Int.ConditionallyCompleteOrder
import Mathlib.Data.Int.SuccPred
import Mathlib.Order.Interval.Set.Defs
import Mathlib.Tactic.IntervalCases
import SqlRecords.Calendar.Timestamp

/-!
# Days and minutes in a row

Every day of the calendar has a number (`Date.number`), and so has every minute of every
day (`Timestamp.minuteNumber`). The numbers are those of a formula for the days before a year
and of the lengths of the months; how one day leads to the next is not part of them. So they
say what it means that one timestamp is some minutes after another (`Timestamp.IsLater`).

## What is proved

* `Date.number_injective`: no two days have the same number.
* `Date.next?_eq_some`, `Date.previous?_eq_some`: days whose numbers follow each other do so in
  the calendar, across the ends of months and years.
* **`Timestamp.shift_eq_some`**: a shift finds the timestamp that many minutes later or earlier.
-/

namespace SqlRecords

namespace Calendar

/-! ### Years and months -/

/-- The days from the start of the year 0 to the start of a year, negative for years before. -/
def daysBeforeYear (year : Int) : Int :=
  365 * year + (year + 3) / 4 - (year + 99) / 100 + (year + 399) / 400

/-- The days of a year. -/
def daysInYear (year : Int) : Nat := if isLeapYear year then 366 else 365

/-- The days from the start of a year to the start of a month. -/
def daysBeforeMonth (year : Int) (month : Nat) : Nat :=
  ((List.range month).map (daysInMonth year)).sum

/-- The days of thirty years, with seven leap days. -/
example : daysBeforeYear 2000 - daysBeforeYear 1970 = 10957 := by decide

theorem daysBeforeYear_succ (year : Int) :
    daysBeforeYear (year + 1) = daysBeforeYear year + daysInYear year := by
  have hleap : isLeapYear year = true ↔ year % 4 = 0 ∧ (¬year % 100 = 0 ∨ year % 400 = 0) := by
    simp [isLeapYear]
  simp only [daysBeforeYear, daysInYear, hleap]
  split <;> omega

theorem daysBeforeMonth_succ (year : Int) (month : Nat) :
    daysBeforeMonth year (month + 1) = daysBeforeMonth year month + daysInMonth year month := by
  simp [daysBeforeMonth, List.range_succ]

/-- The months of a year make up the year. -/
theorem daysBeforeMonth_thirteen (year : Int) : daysBeforeMonth year 13 = daysInYear year := by
  simp only [daysBeforeMonth, daysInYear, List.range, List.range.loop, List.map, daysInMonth]
  cases isLeapYear year <;> rfl

theorem daysBeforeYear_mono : Monotone daysBeforeYear :=
  monotone_of_le_succ fun year _ => by
    rw [Order.succ_eq_add_one, daysBeforeYear_succ]
    omega

theorem daysBeforeMonth_mono (year : Int) : Monotone (daysBeforeMonth year) :=
  monotone_nat_of_le_succ fun month => by
    rw [daysBeforeMonth_succ]
    omega

/-- Only the months from 1 to 12 have days. -/
theorem daysInMonth_pos_iff (year : Int) {month : Nat} :
    0 < daysInMonth year month ↔ 1 ≤ month ∧ month ≤ 12 := by
  constructor
  · intro h
    unfold daysInMonth at h
    split at h
    all_goals omega
  · rintro ⟨hfirst, hlast⟩
    have hfebruary : 0 < if isLeapYear year then 29 else 28 := by split <;> decide
    interval_cases month <;> first | exact hfebruary | exact Nat.succ_pos _

/-- A number is on one step only of what goes up step by step. -/
theorem eq_of_mem_Ioc {α β : Type} [LinearOrder α] [Add α] [One α] [SuccAddOrder α] [Preorder β]
    {f : α → β} (hf : Monotone f) {a b : α} {n : β} (ha : n ∈ Set.Ioc (f a) (f (a + 1)))
    (hb : n ∈ Set.Ioc (f b) (f (b + 1))) : a = b := by
  have hle {a b : α} (ha : n ∈ Set.Ioc (f a) (f (a + 1)))
      (hb : n ∈ Set.Ioc (f b) (f (b + 1))) : a ≤ b := by
    by_contra hlt
    have hsteps := hf (Order.add_one_le_of_lt (not_le.mp hlt))
    exact absurd ((ha.1.trans_le hb.2).trans_le hsteps) (lt_irrefl _)
  exact le_antisymm (hle ha hb) (hle hb ha)

end Calendar

open Calendar

/-! ### Days -/

namespace Date

/-- The place of a day in its year, from 1. -/
def dayOfYear (d : Date) : Nat := daysBeforeMonth d.year d.month + d.day

/-- The number of a day. -/
def number (d : Date) : Int := daysBeforeYear d.year + d.dayOfYear


theorem exists_of? (year : Int) (month day : Nat) (hyear : firstYear ≤ year ∧ year ≤ lastYear)
    (hday : 1 ≤ day ∧ day ≤ daysInMonth year month) :
    ∃ e : Date, of? year month day = some e ∧ e.year = year ∧ e.month = month ∧ e.day = day := by
  have hdate : Calendar.isDate year month day = true := by
    simp [Calendar.isDate, hyear, hday]
  exact ⟨⟨year, month, day, hdate⟩, dif_pos hdate, rfl, rfl, rfl⟩

variable {d e : Date}

theorem bounds (d : Date) : (firstYear ≤ d.year ∧ d.year ≤ lastYear) ∧
    (1 ≤ d.month ∧ d.month ≤ 12) ∧ 1 ≤ d.day ∧ d.day ≤ daysInMonth d.year d.month := by
  have hdate := d.isDate
  simp only [Calendar.isDate, Bool.and_eq_true, decide_eq_true_eq] at hdate
  obtain ⟨⟨hyear, hfirst⟩, hlast⟩ := hdate
  exact ⟨hyear, (daysInMonth_pos_iff _).mp (Nat.lt_of_lt_of_le hfirst hlast), hfirst, hlast⟩

theorem dayOfYear_mem (d : Date) : d.dayOfYear ∈
    Set.Ioc (daysBeforeMonth d.year d.month) (daysBeforeMonth d.year (d.month + 1)) := by
  obtain ⟨-, -, hfirst, hlast⟩ := d.bounds
  simp only [dayOfYear, Set.mem_Ioc, daysBeforeMonth_succ]
  omega

theorem number_mem (d : Date) :
    d.number ∈ Set.Ioc (daysBeforeYear d.year) (daysBeforeYear (d.year + 1)) := by
  obtain ⟨-, ⟨-, hmonth⟩, -⟩ := d.bounds
  obtain ⟨hfirst, hlast⟩ := d.dayOfYear_mem
  have hyear : daysBeforeMonth d.year (d.month + 1) ≤ daysInYear d.year :=
    daysBeforeMonth_thirteen d.year ▸ daysBeforeMonth_mono d.year (Nat.succ_le_succ hmonth)
  simp only [number, Set.mem_Ioc, daysBeforeYear_succ]
  omega

/-- **No two days have the same number.** -/
theorem number_injective (h : d.number = e.number) : d = e := by
  obtain ⟨year, month, day, hd⟩ := d
  obtain ⟨year', month', day', he⟩ := e
  obtain rfl : year = year' :=
    eq_of_mem_Ioc daysBeforeYear_mono (number_mem ⟨year, month, day, hd⟩)
      (h ▸ number_mem ⟨year', month', day', he⟩)
  have hplace : daysBeforeMonth year month + day = daysBeforeMonth year month' + day' := by
    simp only [number, dayOfYear] at h
    omega
  have hmonth := dayOfYear_mem ⟨year, month, day, hd⟩
  rw [dayOfYear, hplace] at hmonth
  obtain rfl : month = month' := eq_of_mem_Ioc (daysBeforeMonth_mono year) hmonth
    (dayOfYear_mem ⟨year, month', day', he⟩)
  obtain rfl : day = day' := Nat.add_left_cancel hplace
  rfl

/-- A day is followed by one unless it is the last of the calendar. -/
theorem exists_next? (h : d.number < daysBeforeYear (lastYear + 1)) :
    ∃ e, d.next? = some e ∧ e.number = d.number + 1 := by
  obtain ⟨hyear, ⟨hfirstMonth, hlastMonth⟩, hfirst, hlast⟩ := d.bounds
  unfold next?
  split
  · next hday =>
    obtain ⟨e, he, hy, hm, hd⟩ := exists_of? d.year d.month (d.day + 1) hyear
      ⟨Nat.le_add_left 1 d.day, hday⟩
    refine ⟨e, he, ?_⟩
    simp only [number, dayOfYear, hy, hm, hd]
    omega
  have hday : d.day = daysInMonth d.year d.month := by omega
  split
  · next hmonth =>
    obtain ⟨e, he, hy, hm, hd⟩ := exists_of? d.year (d.month + 1) 1 hyear
      ⟨le_rfl, (daysInMonth_pos_iff d.year).mpr ⟨Nat.le_add_left 1 d.month, hmonth⟩⟩
    refine ⟨e, he, ?_⟩
    simp only [number, dayOfYear, hy, hm, hd, hday, daysBeforeMonth_succ]
    omega
  · next hmonth =>
    have hend : d.number = daysBeforeYear (d.year + 1) := by
      have hmonth : d.month = 12 := by omega
      rw [number, dayOfYear, hday, ← daysBeforeMonth_succ, hmonth, daysBeforeMonth_thirteen,
        daysBeforeYear_succ]
    have hnext : d.year + 1 ≤ lastYear := by
      by_contra hlater
      have := daysBeforeYear_mono (show lastYear + 1 ≤ d.year + 1 by omega)
      omega
    obtain ⟨e, he, hy, hm, hd⟩ := exists_of? (d.year + 1) 1 1 ⟨by omega, hnext⟩
      ⟨le_rfl, (daysInMonth_pos_iff _).mpr (by decide)⟩
    refine ⟨e, he, ?_⟩
    rw [hend, number, dayOfYear, hy, hm, hd]
    rfl

/-- The same holds of the day before. -/
theorem exists_previous? (h : daysBeforeYear firstYear + 1 < d.number) :
    ∃ e, d.previous? = some e ∧ e.number + 1 = d.number := by
  obtain ⟨hyear, ⟨hfirstMonth, hlastMonth⟩, hfirst, hlast⟩ := d.bounds
  unfold previous?
  split
  · next hday =>
    obtain ⟨e, he, hy, hm, hd⟩ := exists_of? d.year d.month (d.day - 1) hyear
      ⟨by omega, by omega⟩
    refine ⟨e, he, ?_⟩
    simp only [number, dayOfYear, hy, hm, hd]
    omega
  have hday : d.day = 1 := by omega
  split
  · next hmonth =>
    have hdays := (daysInMonth_pos_iff d.year).mpr
      (show 1 ≤ d.month - 1 ∧ d.month - 1 ≤ 12 by omega)
    obtain ⟨e, he, hy, hm, hd⟩ := exists_of? d.year (d.month - 1) _ hyear ⟨hdays, le_rfl⟩
    refine ⟨e, he, ?_⟩
    have hback : daysBeforeMonth d.year d.month = daysBeforeMonth d.year (d.month - 1 + 1) := by
      rw [Nat.sub_add_cancel hfirstMonth]
    simp only [number, dayOfYear, hy, hm, hd, hday, hback, daysBeforeMonth_succ]
    omega
  · next hmonth =>
    have hstart : d.number = daysBeforeYear d.year + 1 := by
      have hmonth : d.month = 1 := by omega
      rw [number, dayOfYear, hday, hmonth]
      rfl
    have hprevious : firstYear ≤ d.year - 1 := by
      by_contra hearlier
      have := daysBeforeYear_mono (show d.year ≤ firstYear by omega)
      omega
    have hdecember : daysInMonth (d.year - 1) 12 = 31 := rfl
    obtain ⟨e, he, hy, hm, hd⟩ := exists_of? (d.year - 1) 12 31 ⟨hprevious, by omega⟩
      ⟨by decide, hdecember.ge⟩
    refine ⟨e, he, ?_⟩
    have hend : daysBeforeMonth (d.year - 1) 12 + 31 = daysInYear (d.year - 1) := by
      rw [← daysBeforeMonth_thirteen, daysBeforeMonth_succ _ 12, hdecember]
    have hback := daysBeforeYear_succ (d.year - 1)
    rw [Int.sub_add_cancel] at hback
    rw [hstart, number, dayOfYear, hy, hm, hd, hback, hend]

/-- **The day with the next number is the day after**, -/
theorem next?_eq_some (h : e.number = d.number + 1) : d.next? = some e := by
  have hlast : e.number ≤ daysBeforeYear (lastYear + 1) :=
    e.number_mem.2.trans (daysBeforeYear_mono (Int.add_le_add_right e.bounds.1.2 1))
  obtain ⟨e', hnext, hnumber⟩ := d.exists_next? (by omega)
  rw [hnext, number_injective (hnumber.trans h.symm)]

/-- and the other way round. -/
theorem previous?_eq_some (h : e.number + 1 = d.number) : d.previous? = some e := by
  have hfirst : daysBeforeYear firstYear < e.number :=
    (daysBeforeYear_mono e.bounds.1.1).trans_lt e.number_mem.1
  obtain ⟨e', hprevious, hnumber⟩ := d.exists_previous? (by omega)
  rw [hprevious, number_injective (show e'.number = e.number by omega)]

end Date

/-! ### Minutes -/

namespace TimeOfDay

theorem minuteOfDay_lt (t : TimeOfDay) : t.minuteOfDay < minutesPerDay := by
  have htime := t.isTime
  simp only [Calendar.isTime, Bool.and_eq_true, decide_eq_true_eq] at htime
  simp only [minuteOfDay, minutesPerDay]
  omega

/-- A time of day is at its own minute. -/
theorem atMinute_eq {t u : TimeOfDay} (hsecond : u.second = t.second) (hnano : u.nano = t.nano) :
    t.atMinute u.minuteOfDay = u := by
  have htime := u.isTime
  simp only [Calendar.isTime, Bool.and_eq_true, decide_eq_true_eq] at htime
  have hhour : u.minuteOfDay / 60 % 24 = u.hour := by
    simp only [minuteOfDay]
    omega
  have hminute : u.minuteOfDay % 60 = u.minute := by
    simp only [minuteOfDay]
    omega
  simp only [atMinute, hhour, hminute, ← hsecond, ← hnano]

end TimeOfDay

namespace Timestamp

/-- The number of the minute that a timestamp is in. -/
def minuteNumber (t : Timestamp) : Int := minutesPerDay * t.date.number + t.time.minuteOfDay

/-- A timestamp is so many minutes after another one, or before it if there are fewer than none, at
the same point of its minute. -/
structure IsLater (t : Timestamp) (minutes : Int) (l : Timestamp) : Prop where
  minute : l.minuteNumber = t.minuteNumber + minutes
  second : l.time.second = t.time.second
  nano : l.time.nano = t.time.nano

variable {t l : Timestamp} {minutes : Int}

theorem IsLater.symm (h : t.IsLater minutes l) : l.IsLater (-minutes) t :=
  ⟨by have := h.minute; omega, h.second.symm, h.nano.symm⟩

theorem IsLater.isNormal (h : t.IsLater minutes l) (ht : t.IsNormal) : l.IsNormal := by
  rwa [IsNormal, TimeOfDay.IsNormal, h.second, h.nano]

theorem IsLater.refl (t : Timestamp) : t.IsLater 0 t := ⟨(Int.add_zero _).symm, rfl, rfl⟩

/-- **A shift by less than a day finds the timestamp that many minutes later or earlier**, if the
calendar has it, across the ends of hours, days, months and years. -/
theorem shift_eq_some (h : t.IsLater minutes l) (hsize : minutes.natAbs < minutesPerDay) :
    t.shift minutes = some l := by
  have hminute := h.minute
  have ht := t.time.minuteOfDay_lt
  have hl := l.time.minuteOfDay_lt
  have hday : (minutesPerDay : Int) = 1440 := rfl
  simp only [minuteNumber, hday] at hminute
  have hat {m : Nat} (hm : m = l.time.minuteOfDay) : t.time.atMinute m = l.time := by
    rw [hm, TimeOfDay.atMinute_eq h.second h.nano]
  simp only [shift]
  split
  · next hneg =>
    have hdate : l.date.number + 1 = t.date.number := by omega
    rw [Date.previous?_eq_some hdate, Option.map_some, hat (by omega)]
  · next hpos =>
    split
    · next hsame =>
      have hdate : t.date = l.date := Date.number_injective (by omega)
      rw [hat (by omega), hdate]
    · next hlate =>
      have hdate : l.date.number = t.date.number + 1 := by omega
      rw [Date.next?_eq_some hdate, Option.map_some, hat (by omega)]

end Timestamp

end SqlRecords
