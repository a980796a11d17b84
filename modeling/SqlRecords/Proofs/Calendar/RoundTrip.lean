import Mathlib.Algebra.Group.Nat.Defs
import SqlRecords.Calendar.Printer
import SqlRecords.Calendar.Reader
import SqlRecords.Proofs.Calendar.Clock
import SqlRecords.Proofs.Calendar.Days
import SqlRecords.Proofs.Text.Numerals

/-!
# Dates and timestamps are read back

A date or timestamp is written as numbers with signs between them. A number is read back
wherever no digit follows it (`digits_padded`), and each part of a text stands in front of
a sign or at the end, so the parts can be read one after the other.

## What is proved

* `year_yearChars`, `field_padded`, `fraction_fractionDigits`: the parts, each with the
  text behind it left over.
* **`readDate_dateChars`**, **`readTimestamp_timestampChars`**,
  **`readInstant_instantChars`**: what is written is read back, in years with a sign and in
  leap seconds too. A time with a fraction of more than a second is read as the normal form
  of it, which has the same text.
-/

namespace SqlRecords.Calendar

open SqlRecords.Text

variable {rest : List Char}

/-! ### Numbers -/

theorem isDigit_of_mem_padded {width n : Nat} {c : Char} (h : c ∈ padded width n) :
    c.isDigit = true := by
  rcases List.mem_append.mp h with h | h
  · rw [(List.mem_replicate.mp h).2]
    rfl
  · exact isDigit_of_mem_toDigits h

theorem digitsValue_padded (width n : Nat) : digitsValue (padded width n) = n := by
  have hzeros : ∀ k, digitsValue (List.replicate k '0' ++ Nat.toDigits 10 n) = n := by
    intro k
    induction k with
    | zero => exact digitsValue_toDigits n
    | succ k ih => exact ih
  exact hzeros _

theorem padded_ne_nil (width n : Nat) : padded width n ≠ [] := by
  simp [padded, Nat.toDigits_ne_nil]

theorem length_padded {width n : Nat} (hwidth : 0 < width) (h : n < 10 ^ width) :
    (padded width n).length = width := by
  have hdigits := (Nat.length_toDigits_le_iff (by decide) hwidth).mpr h
  simp only [padded, List.length_append, List.length_replicate]
  omega

theorem spanDigits_padded (width n : Nat) (hrest : rest.head?.any Char.isDigit = false) :
    spanDigits (padded width n ++ rest) = (padded width n, rest) :=
  spanDigits_append (fun _ => isDigit_of_mem_padded) hrest

/-- A number is read in front of what is no digit. -/
theorem digits_padded {width n : Nat} {most : Option Nat}
    (hmost : ∀ m ∈ most, (padded width n).length ≤ m) (hn : n ≤ maxNumber)
    (hrest : rest.head?.any Char.isDigit = false) :
    digits most (padded width n ++ rest) = .ok (n, rest) := by
  have hrun : (padded width n ++ rest).takeWhile Char.isDigit = padded width n :=
    congrArg Prod.fst (spanDigits_padded width n hrest)
  have hne : (padded width n).isEmpty = false := by simp [padded_ne_nil]
  cases most with
  | none =>
    simp only [digits, hrun, hne, digitsValue_padded, Bool.false_eq_true, if_false,
      Nat.not_lt.mpr hn, List.drop_left]
  | some m =>
    simp only [digits, hrun, List.take_of_length_le (hmost m rfl), hne, digitsValue_padded,
      Bool.false_eq_true, if_false, Nat.not_lt.mpr hn, List.drop_left]

/-! ### Blanks -/

theorem isBlank_of_isDigit {c : Char} (h : c.isDigit = true) : isBlank c = false := by
  have hbounds : 48 ≤ c.toNat ∧ c.toNat ≤ 57 := by
    simpa [Char.isDigit, UInt32.le_iff_toNat_le] using h
  have hne : c ≠ ' ' := by
    rintro rfl
    exact absurd h (by decide)
  simp only [isBlank, wideBlanks, Bool.or_eq_false_iff]
  refine ⟨⟨by simpa using hne, by simp; omega⟩, ?_⟩
  simp
  omega

theorem skipBlanks_padded (width n : Nat) : skipBlanks (padded width n ++ rest) =
    padded width n ++ rest := by
  cases hpadded : padded width n with
  | nil => exact absurd hpadded (padded_ne_nil width n)
  | cons c cs =>
    have hc : isBlank c = false :=
      isBlank_of_isDigit (isDigit_of_mem_padded (hpadded ▸ List.mem_cons_self))
    exact List.dropWhile_cons_of_neg (by simp [hc])

/-! ### One reader after another -/

section Readers

variable {α β : Type} {s : List Char} {a : α}

/-- What is left by one reader is for the next. -/
theorem bind_of_ok {p : Reader α} (h : p s = .ok (a, rest)) (f : α → Reader β) :
    (p >>= f) s = f a rest := by
  have hbind : (p >>= f) s = (p s >>= fun x => f x.1 x.2) := rfl
  rw [hbind, h]
  rfl

theorem pure_apply : (pure a : Reader α) s = .ok (a, s) := rfl

theorem get_bind (f : List Char → Reader β) : ((get : Reader (List Char)) >>= f) s = f s s := rfl

theorem set_bind (f : PUnit → Reader β) : ((set rest : Reader PUnit) >>= f) s = f () rest := rfl

theorem blanks_bind (f : Unit → Reader β) : (blanks >>= f) s = f () (skipBlanks s) := rfl

theorem literal_bind (c : Char) (f : Unit → Reader β) : (literal c >>= f) (c :: s) = f () s :=
  bind_of_ok (by simp only [literal, beq_self_eq_true, if_true]) f

theorem inRange_bind {condition : Bool} (h : condition = true) (f : Unit → Reader β) :
    (inRange condition >>= f) s = f () s :=
  bind_of_ok (by rw [inRange, h, if_pos rfl]) f

end Readers

/-! ### Parts -/

/-- A part of two digits is read in front of what is no digit. -/
theorem field_padded {lo hi n : Nat} (hlo : lo ≤ n) (hhi : n ≤ hi) (hn : n < 100)
    (hrest : rest.head?.any Char.isDigit = false) :
    field lo hi (padded 2 n ++ rest) = .ok (n, rest) := by
  have hdigits : digits (some 2) (padded 2 n ++ rest) = .ok (n, rest) := by
    refine digits_padded ?_ ?_ hrest
    · rintro m ⟨⟩
      exact Nat.le_of_eq (length_padded (by decide) hn)
    · exact Nat.le_trans (Nat.le_of_lt hn) (by decide)
  have hbetween : (decide (lo ≤ n) && decide (n ≤ hi)) = true := by simp [hlo, hhi]
  simp only [field, blanks_bind, skipBlanks_padded, bind_of_ok hdigits, inRange_bind hbetween,
    pure_apply]

/-- A number without a sign does not begin like one with a sign. -/
theorem padded_eq_cons (width n : Nat) :
    ∃ c cs, padded width n = c :: cs ∧ c ≠ '-' ∧ c ≠ '+' := by
  cases hpadded : padded width n with
  | nil => exact absurd hpadded (padded_ne_nil width n)
  | cons c cs =>
    have hc : c.isDigit = true := isDigit_of_mem_padded (hpadded ▸ List.mem_cons_self)
    refine ⟨c, cs, rfl, ?_, ?_⟩ <;> rintro rfl <;> exact absurd hc (by decide)

/-- A year of the calendar is read in front of what is no digit. -/
theorem year_yearChars {y : Int} (hfirst : firstYear ≤ y) (hlast : y ≤ lastYear)
    (hrest : rest.head?.any Char.isDigit = false) :
    year (yearChars y ++ rest) = .ok (y, rest) := by
  have hbounds : firstYear = -262143 ∧ lastYear = 262142 := ⟨rfl, rfl⟩
  have hmax : maxNumber = 9223372036854775807 := by decide
  have hleast : Int32.minValue.toInt = -2147483648 := by decide
  have hgreatest : Int32.maxValue.toInt = 2147483647 := by decide
  have hbetween :
      (decide (Int32.minValue.toInt ≤ y) && decide (y ≤ Int32.maxValue.toInt)) = true := by
    rw [hleast, hgreatest, Bool.and_eq_true, decide_eq_true_eq, decide_eq_true_eq]
    omega
  have hsigned : digits none (padded 4 y.natAbs ++ rest) = .ok (y.natAbs, rest) :=
    digits_padded nofun (by omega) hrest
  unfold yearChars
  by_cases hneg : y < 0
  · have hback : -(y.natAbs : Int) = y := by omega
    have hsign : skipBlanks ('-' :: (padded 4 y.natAbs ++ rest)) =
        '-' :: (padded 4 y.natAbs ++ rest) := rfl
    simp only [if_pos hneg, List.cons_append, year, blanks_bind, hsign, get_bind, set_bind,
      bind_of_ok hsigned, pure_bind, hback, inRange_bind hbetween, pure_apply]
  have hback : (y.natAbs : Int) = y := by omega
  by_cases hfar : 9999 < y
  · have hsign : skipBlanks ('+' :: (padded 4 y.natAbs ++ rest)) =
        '+' :: (padded 4 y.natAbs ++ rest) := rfl
    simp only [if_neg hneg, if_pos hfar, List.cons_append, year, blanks_bind, hsign, get_bind,
      set_bind, bind_of_ok hsigned, pure_bind, hback, inRange_bind hbetween, pure_apply]
  · have hdigits : digits (some 4) (padded 4 y.natAbs ++ rest) = .ok (y.natAbs, rest) := by
      refine digits_padded ?_ (by omega) hrest
      rintro m ⟨⟩
      exact Nat.le_of_eq (length_padded (by decide) (by omega))
    have hplain : skipBlanks (padded 4 y.natAbs ++ rest) = padded 4 y.natAbs ++ rest :=
      skipBlanks_padded 4 _
    obtain ⟨c, cs, hpadded, hminus, hplus⟩ := padded_eq_cons 4 y.natAbs
    rw [hpadded, List.cons_append] at hdigits hplain
    simp only [if_neg hneg, if_neg hfar, hpadded, List.cons_append, year, blanks_bind, hplain,
      get_bind, List.cons.injEq, hminus, hplus, false_and, imp_false, not_false_eq_true,
      implies_true, bind_of_ok hdigits, pure_bind, hback, inRange_bind hbetween, pure_apply]

/-- A fraction of a second that is written with so many digits, or left out if there are none. -/
def fractionDigits (digits nano : Nat) : List Char :=
  if digits = 0 then [] else '.' :: padded digits (nano / 10 ^ (9 - digits))

/-- So many digits hold the whole fraction. -/
def FractionFits (digits nano : Nat) : Prop := digits ≤ 9 ∧ 10 ^ (9 - digits) ∣ nano

/-- A fraction is read in front of what is no digit and no point, however many digits it is
written with. -/
theorem fraction_fractionDigits {digits nano : Nat} (h : nano < nanosPerSecond)
    (hfits : FractionFits digits nano) (hrest : rest.head?.any Char.isDigit = false)
    (hpoint : rest.head? ≠ some '.') :
    fraction (fractionDigits digits nano ++ rest) = .ok (nano, rest) := by
  obtain ⟨hdigits, hexact⟩ := hfits
  unfold fractionDigits
  split
  · next hzero =>
    obtain rfl : nano = 0 := by
      subst hzero
      exact Nat.eq_zero_of_dvd_of_lt hexact h
    cases rest with
    | nil => rfl
    | cons c cs =>
      have hc : c ≠ '.' := by simpa using hpoint
      simp [fraction, hc]
  · next hsome =>
    have hwhole : 10 ^ (9 - digits) * 10 ^ digits = nanosPerSecond := by
      rw [← Nat.pow_add, Nat.sub_add_cancel hdigits]
      rfl
    have hlt : nano / 10 ^ (9 - digits) < 10 ^ digits :=
      Nat.div_lt_of_lt_mul (hwhole ▸ h)
    have hlength := length_padded (Nat.pos_of_ne_zero hsome) hlt
    have hne : (padded digits (nano / 10 ^ (9 - digits))).isEmpty = false := by
      simp [padded_ne_nil]
    have htake : (padded digits (nano / 10 ^ (9 - digits))).take 9 =
        padded digits (nano / 10 ^ (9 - digits)) :=
      List.take_of_length_le (by omega)
    simp [fraction, spanDigits_padded _ _ hrest, hne, fractionValue, htake, digitsValue_padded,
      hlength, Nat.div_mul_cancel hexact]

/-- A fraction is written with as few digits as hold it, three, six or nine, or left out. -/
theorem fractionChars_eq (nano : Nat) :
    ∃ digits, FractionFits digits nano ∧ fractionChars nano = fractionDigits digits nano := by
  unfold fractionChars
  split
  · next hzero =>
    subst hzero
    exact ⟨0, ⟨by decide, Nat.dvd_zero _⟩, rfl⟩
  split
  · next hmillis => exact ⟨3, ⟨by decide, Nat.dvd_of_mod_eq_zero hmillis⟩, rfl⟩
  split
  · next hmicros => exact ⟨6, ⟨by decide, Nat.dvd_of_mod_eq_zero hmicros⟩, rfl⟩
  · exact ⟨9, ⟨by decide, Nat.one_dvd nano⟩, by simp [fractionDigits]⟩

/-! ### Dates and times -/

theorem daysInMonth_le (year : Int) (month : Nat) : daysInMonth year month ≤ 31 := by
  unfold daysInMonth
  split
  · split <;> decide
  all_goals decide

/-- The numbers of a date are read in front of what is no digit. -/
theorem dateParts_dateChars (d : Date) (rest : List Char)
    (hrest : rest.head?.any Char.isDigit = false) :
    dateParts (dateChars d ++ rest) = .ok ((d.year, d.month, d.day), rest) := by
  obtain ⟨⟨hfirst, hlast⟩, ⟨hfirstMonth, hlastMonth⟩, hday, hdays⟩ := d.bounds
  have hlastDay := daysInMonth_le d.year d.month
  have hyear (cs : List Char) : year (yearChars d.year ++ '-' :: cs) = .ok (d.year, '-' :: cs) :=
    year_yearChars hfirst hlast rfl
  have hmonth' (cs : List Char) :
      field 1 12 (padded 2 d.month ++ '-' :: cs) = .ok (d.month, '-' :: cs) :=
    field_padded hfirstMonth hlastMonth (by omega) rfl
  have hday' : field 1 31 (padded 2 d.day ++ rest) = .ok (d.day, rest) :=
    field_padded hday (by omega) (by omega) hrest
  simp only [dateParts, dateChars, List.append_assoc, List.cons_append, bind_of_ok (hyear _),
    literal_bind, bind_of_ok (hmonth' _), bind_of_ok hday', pure_apply]

theorem existing_parts (d : Date) : existing (d.year, d.month, d.day) = .ok d := by
  simp [existing, Date.of?, d.isDate]

/-- **Dates are read back.** -/
theorem readDate_dateChars (d : Date) : readDate (dateChars d) = .ok d := by
  have hparts := dateParts_dateChars d [] rfl
  rw [List.append_nil] at hparts
  simp [readDate, hparts, finished, existing_parts, bind, Except.bind]

/-- A time of day is read as its normal form if the fraction behind it is read, whatever it is
written like. -/
theorem time_clockChars (t : TimeOfDay) {f rest : List Char}
    (hf : f.head?.any Char.isDigit = false) (hfraction : fraction f = .ok (t.clockNano, rest)) :
    time (clockChars t ++ f) = .ok (t.normalize, rest) := by
  have htime := t.isTime
  simp only [isTime, Bool.and_eq_true, decide_eq_true_eq] at htime
  obtain ⟨⟨⟨hhour, hminute⟩, -⟩, -⟩ := htime
  have hsecond := t.clockSecond_le
  have hhour' (cs : List Char) :
      field 0 23 (padded 2 t.hour ++ ':' :: cs) = .ok (t.hour, ':' :: cs) :=
    field_padded (Nat.zero_le _) (by omega) (by omega) rfl
  have hminute' (cs : List Char) :
      field 0 59 (padded 2 t.minute ++ ':' :: cs) = .ok (t.minute, ':' :: cs) :=
    field_padded (Nat.zero_le _) (by omega) (by omega) rfl
  have hsecond' : field 0 60 (padded 2 t.clockSecond ++ f) = .ok (t.clockSecond, f) :=
    field_padded (Nat.zero_le _) hsecond (by omega) hf
  simp only [time, clockChars, List.append_assoc, List.cons_append, bind_of_ok (hhour' _),
    literal_bind, bind_of_ok (hminute' _), bind_of_ok hsecond', bind_of_ok hfraction,
    t.ofClock?_clock, pure_apply]

theorem head?_fractionDigits (digits nano : Nat) (hrest : rest.head?.any Char.isDigit = false) :
    (fractionDigits digits nano ++ rest).head?.any Char.isDigit = false := by
  unfold fractionDigits
  split
  · exact hrest
  · rfl

/-- A time of day is read as its normal form in front of what is no digit and no point. -/
theorem time_timeChars (t : TimeOfDay) (rest : List Char)
    (hrest : rest.head?.any Char.isDigit = false)
    (hpoint : rest.head? ≠ some '.') : time (timeChars t ++ rest) = .ok (t.normalize, rest) := by
  obtain ⟨digits, hfits, hchars⟩ := fractionChars_eq t.clockNano
  rw [timeChars, List.append_assoc, hchars]
  exact time_clockChars t (head?_fractionDigits digits t.clockNano hrest)
    (fraction_fractionDigits t.clockNano_lt hfits hrest hpoint)

/-- A time and its normal form have the same text. -/
theorem timeChars_normalize (t : TimeOfDay) : timeChars t.normalize = timeChars t := by
  obtain ⟨hhour, hminute, hsecond, hnano⟩ := t.clock_normalize
  simp only [timeChars, clockChars, hhour, hminute, hsecond, hnano]

theorem timestampChars_normalize (t : Timestamp) :
    timestampChars t.normalize = timestampChars t :=
  congrArg (fun time => dateChars t.date ++ ' ' :: time) (timeChars_normalize t.time)

/-- The blank between a date and a time. -/
theorem skipBlanks_clockChars (t : TimeOfDay) (rest : List Char) :
    skipBlanks (' ' :: (clockChars t ++ rest)) = clockChars t ++ rest := by
  have hblank : skipBlanks (' ' :: (clockChars t ++ rest)) = skipBlanks (clockChars t ++ rest) :=
    rfl
  rw [hblank, clockChars]
  simp only [List.append_assoc, List.cons_append]
  exact skipBlanks_padded 2 t.hour

theorem skipBlanks_timeChars (t : TimeOfDay) (rest : List Char) :
    skipBlanks (' ' :: (timeChars t ++ rest)) = timeChars t ++ rest := by
  rw [timeChars, List.append_assoc, skipBlanks_clockChars]

/-- **Timestamps are read back** as their normal forms. -/
theorem readTimestamp_timestampChars (t : Timestamp) :
    readTimestamp (timestampChars t) = some t.normalize := by
  have hparts := dateParts_dateChars t.date (' ' :: timeChars t.time) rfl
  have hblank := skipBlanks_timeChars t.time []
  have htime := time_timeChars t.time [] rfl nofun
  rw [List.append_nil] at hblank htime
  simp [readTimestamp, eitherSeparator, readTimestampWith, Separator.read, timestampChars, hparts,
    blanks, hblank, htime, finished, existing_parts, Timestamp.normalize, bind, Except.bind, pure,
    Except.pure]

/-- An instant at offset zero is that instant. -/
theorem shift_zero (t : Timestamp) : t.shift 0 = some t :=
  Timestamp.shift_eq_some (.refl t) (by decide)

/-- **Instants are read back** as their normal forms. -/
theorem readInstant_instantChars (t : Timestamp) :
    readInstant (instantChars t) = some t.normalize := by
  have hparts := dateParts_dateChars t.date
    (' ' :: (timeChars t.time ++ ['+', '0', '0', ':', '0', '0'])) rfl
  have hblank := skipBlanks_timeChars t.time ['+', '0', '0', ':', '0', '0']
  have htime := time_timeChars t.time ['+', '0', '0', ':', '0', '0'] rfl (by decide)
  have hoffset : offset ['+', '0', '0', ':', '0', '0'] = .ok (0, []) := by decide +kernel
  have hminutes : 0 < minutesPerDay := by decide
  simp [readInstant, eitherSeparator, readInstantWith, Separator.read, instantChars,
    timestampChars, hparts, blanks, hblank, htime, hoffset, finished, existing_parts, shift_zero,
    Timestamp.normalize, bind, Except.bind, pure, Except.pure, hminutes]

end SqlRecords.Calendar
