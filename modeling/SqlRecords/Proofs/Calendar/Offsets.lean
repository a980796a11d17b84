import SqlRecords.Field.Structured
import SqlRecords.Proofs.Calendar.RoundTrip

/-!
# Instants are read at any offset

One instant has many texts: the local time at any offset from UTC with that offset behind it, a
blank or a `T` in the middle, more or fewer digits for the fraction of a second, and an offset
with a colon, without one, or of hours alone (`Spelling`). A reader that goes from left to right
tells all of it: each part ends where the next one begins with a sign, a letter or a colon. What
is left is to take the offset back off the local time, which is `Timestamp.shift`.

## What is proved

* `offset_offsetChars`: an offset is read from each of its spellings.
* `readInstantWith_chars`, `readInstantWith_letter`: texts are read with their own separator, and
  those with a letter are not read with a blank.
* **`Field.instant_fromCell_chars`**: every spelling of the local time of an instant at any offset
  of less than a day is read as that instant.
-/

namespace SqlRecords

namespace Calendar

open SqlRecords.Text

/-! ### Spellings -/

/-- The character that is written between a date and a time. -/
def Separator.char : Separator → Char
  | .blank => ' '
  | .letter => 'T'

/-- How the minutes of an offset are written behind its hours. -/
inductive OffsetStyle where
  /-- Behind a colon. -/
  | colon
  /-- Without anything between them. -/
  | plain
  /-- Not at all. -/
  | hours
  deriving DecidableEq, Repr

/-- What is written behind the hours of an offset of so many minutes. -/
def OffsetStyle.minuteChars (n : Nat) : OffsetStyle → List Char
  | .colon => ':' :: padded 2 (n % 60)
  | .plain => padded 2 (n % 60)
  | .hours => []

/-- The text of an offset from UTC. -/
def offsetChars (style : OffsetStyle) (minutes : Int) : List Char :=
  (if minutes < 0 then '-' else '+') ::
    (padded 2 (minutes.natAbs / 60) ++ style.minuteChars minutes.natAbs)

/-- How an instant is written. -/
structure Spelling where
  /-- What stands between the date and the time. -/
  separator : Separator
  /-- How many digits the fraction of a second has; it is left out if there are none. -/
  digits : Nat
  /-- How the offset is written. -/
  style : OffsetStyle
  deriving DecidableEq, Repr

namespace Spelling

/-- The text of a local time and its offset. -/
def chars (sp : Spelling) (l : Timestamp) (minutes : Int) : List Char :=
  dateChars l.date ++ sp.separator.char :: (clockChars l.time ++
    (fractionDigits sp.digits l.time.clockNano ++ offsetChars sp.style minutes))

/-- The spelling leaves nothing out but what is zero. -/
def Fits (sp : Spelling) (l : Timestamp) (minutes : Int) : Prop :=
  FractionFits sp.digits l.time.clockNano ∧ (sp.style = .hours → minutes.natAbs % 60 = 0)

end Spelling

/-! ### Offsets -/

/-- A number below 100 has two digits. -/
theorem padded_two {n : Nat} (h : n < 100) :
    ∃ a b, padded 2 n = [a, b] ∧ a.isDigit = true ∧ b.isDigit = true ∧ digitsValue [a, b] = n := by
  obtain ⟨a, b, hpadded⟩ := List.length_eq_two.mp (length_padded (by decide) h)
  have hdigit : ∀ c ∈ [a, b], c.isDigit = true := fun c hc => isDigit_of_mem_padded (hpadded ▸ hc)
  exact ⟨a, b, hpadded, hdigit a (by simp), hdigit b (by simp), hpadded ▸ digitsValue_padded 2 n⟩

/-- No sign that is skipped in an offset is a digit. -/
theorem dropWhile_padded (m : Nat) :
    (padded 2 m).dropWhile (fun c => c == ':' || isBlank c) = padded 2 m := by
  cases hpadded : padded 2 m with
  | nil => exact absurd hpadded (padded_ne_nil 2 m)
  | cons c cs =>
    have hc : c.isDigit = true := isDigit_of_mem_padded (hpadded ▸ List.mem_cons_self)
    have hcolon : c ≠ ':' := by
      rintro rfl
      exact absurd hc (by decide)
    exact List.dropWhile_cons_of_neg (by simp [hcolon, isBlank_of_isDigit hc])

theorem offsetMinutes_padded {m : Nat} (h : m < 60) : offsetMinutes (padded 2 m) = .ok (m, []) := by
  obtain ⟨a, b, hpadded, ha, hb, hvalue⟩ := padded_two (show m < 100 by omega)
  simp [hpadded, offsetMinutes, ha, hb, hvalue, h]

/-- The minutes behind the hours are read, whatever is skipped in front of them. -/
theorem offsetMinutes_minuteChars {style : OffsetStyle} {n : Nat}
    (hstyle : style = .hours → n % 60 = 0) :
    offsetMinutes ((style.minuteChars n).dropWhile fun c => c == ':' || isBlank c) =
      .ok (n % 60, []) := by
  have hminutes := offsetMinutes_padded (Nat.mod_lt n (show 0 < 60 by decide))
  rw [← dropWhile_padded] at hminutes
  cases style with
  | colon | plain => exact hminutes
  | hours =>
    rw [hstyle rfl]
    rfl

theorem offsetSize_chars {style : OffsetStyle} {n : Nat} (hn : n < minutesPerDay)
    (hstyle : style = .hours → n % 60 = 0) :
    offsetSize (padded 2 (n / 60) ++ style.minuteChars n) = .ok (n, []) := by
  have hday : minutesPerDay = 1440 := rfl
  obtain ⟨a, b, hpadded, ha, hb, hvalue⟩ := padded_two (show n / 60 < 100 by omega)
  simp [hpadded, offsetSize, ha, hb, hvalue, offsetMinutes_minuteChars hstyle, Except.map,
    Nat.div_add_mod']

/-- **An offset is read from each of its spellings.** -/
theorem offset_offsetChars {style : OffsetStyle} {minutes : Int}
    (hsize : minutes.natAbs < minutesPerDay)
    (hstyle : style = .hours → minutes.natAbs % 60 = 0) :
    offset (offsetChars style minutes) = .ok (minutes, []) := by
  have hread := offsetSize_chars hsize hstyle
  unfold offsetChars
  split
  · next hneg =>
    have hback : -(minutes.natAbs : Int) = minutes := by omega
    have hsign (s : List Char) : skipBlanks ('-' :: s) = '-' :: s := rfl
    simp only [offset, blanks_bind, get_bind, hsign, set_bind, bind_of_ok hread, pure_apply, hback]
  · next hpos =>
    have hback : (minutes.natAbs : Int) = minutes := by omega
    have hsign (s : List Char) : skipBlanks ('+' :: s) = '+' :: s := rfl
    simp only [offset, blanks_bind, get_bind, hsign, set_bind, bind_of_ok hread, pure_apply, hback]

/-- An offset ends the fraction in front of it. -/
theorem head?_offsetChars (style : OffsetStyle) (minutes : Int) :
    (offsetChars style minutes).head?.any Char.isDigit = false ∧
      (offsetChars style minutes).head? ≠ some '.' := by
  unfold offsetChars
  split <;> exact ⟨rfl, nofun⟩

/-! ### Texts -/

theorem Separator.read_char (separator : Separator) (t : TimeOfDay) (rest : List Char) :
    separator.read (separator.char :: (clockChars t ++ rest)) = .ok ((), clockChars t ++ rest) := by
  cases separator with
  | blank => exact congrArg (fun s => Except.ok ((), s)) (skipBlanks_clockChars t rest)
  | letter => rfl

variable {sp : Spelling} {l t : Timestamp} {minutes : Int}

/-- A text is read with its own separator. -/
theorem readInstantWith_chars (hfits : sp.Fits l minutes) (hsize : minutes.natAbs < minutesPerDay)
    (hshift : l.shift (-minutes) = some t) (hnormal : l.IsNormal) :
    readInstantWith sp.separator (sp.chars l minutes) = .ok t := by
  obtain ⟨hdigits, hstyle⟩ := hfits
  obtain ⟨hdigit, hpoint⟩ := head?_offsetChars sp.style minutes
  have hfraction := fraction_fractionDigits l.time.clockNano_lt hdigits hdigit hpoint
  have htime := time_clockChars l.time (head?_fractionDigits sp.digits l.time.clockNano hdigit)
    hfraction
  rw [TimeOfDay.normalize_eq_self_iff.mpr hnormal] at htime
  have hseparator := sp.separator.read_char l.time
    (fractionDigits sp.digits l.time.clockNano ++ offsetChars sp.style minutes)
  have hparts := dateParts_dateChars l.date (sp.separator.char :: (clockChars l.time ++
    (fractionDigits sp.digits l.time.clockNano ++ offsetChars sp.style minutes)))
      (by cases sp.separator <;> rfl)
  simp [readInstantWith, Spelling.chars, hparts, hseparator, htime,
    offset_offsetChars hsize hstyle, finished, existing_parts, hsize, hshift, bind, Except.bind,
    pure, Except.pure]

/-- There is no time where a letter stands. -/
theorem time_letter (s : List Char) : time ('T' :: s) = .error .invalid := rfl

/-- A text with a letter is not read with a blank. -/
theorem readInstantWith_letter (d : Date) (s : List Char) :
    readInstantWith .blank (dateChars d ++ 'T' :: s) = .error .invalid := by
  have hparts := dateParts_dateChars d ('T' :: s) rfl
  have hblank : blanks ('T' :: s) = .ok ((), 'T' :: s) := rfl
  simp [readInstantWith, hparts, Separator.read, hblank, time_letter, bind, Except.bind]

/-- **Every spelling of a local time is read as the instant it is the local time of.** -/
theorem readInstant_chars (hnormal : t.IsNormal) (hlocal : t.IsLater minutes l)
    (hsize : minutes.natAbs < minutesPerDay) (hfits : sp.Fits l minutes) :
    readInstant (sp.chars l minutes) = some t := by
  have hshift := Timestamp.shift_eq_some hlocal.symm (minutes.natAbs_neg ▸ hsize)
  have hread := readInstantWith_chars hfits hsize hshift (hlocal.isNormal hnormal)
  cases hseparator : sp.separator with
  | blank =>
    rw [hseparator] at hread
    simp only [readInstant, eitherSeparator, hread]
  | letter =>
    have hblank : readInstantWith .blank (sp.chars l minutes) = .error .invalid := by
      rw [Spelling.chars, hseparator]
      exact readInstantWith_letter _ _
    rw [hseparator] at hread
    simp only [readInstant, eitherSeparator, hblank, hread]
    rfl

end Calendar

/-! ### Fields -/

namespace Field

open Calendar

/-- **An instant is read from every text of it**: from its local time at any offset of less than a
day, if the calendar has that local time, whatever the local day and year are, with a blank or a
letter in the middle, a fraction of as many digits as hold it, and the offset in any style that
leaves out nothing but zero. The instant may be in a leap second; it has no other fraction of more
than a second, as no text has. -/
theorem instant_fromCell_chars {t l : Timestamp} {minutes : Int} {sp : Spelling}
    (hnormal : t.IsNormal) (hlocal : t.IsLater minutes l) (hsize : minutes.natAbs < minutesPerDay)
    (hfits : sp.Fits l minutes) :
    instant.fromCell (some (String.ofList (sp.chars l minutes))) = .ok t := by
  have hread : readInstant (String.ofList (sp.chars l minutes)).toList = some t := by
    rw [String.toList_ofList, readInstant_chars hnormal hlocal hsize hfits]
  simp only [instant, ofText, hread]

/-- Half an hour into the year 0, which is the last evening of the year before one hour further
west. -/
theorem instant_fromCell_chars_newYear :
    let t : Timestamp := ⟨⟨0, 1, 1, by decide⟩, ⟨0, 30, 0, 250000000, by decide⟩⟩
    let l : Timestamp := ⟨⟨-1, 12, 31, by decide⟩, ⟨23, 30, 0, 250000000, by decide⟩⟩
    let sp : Spelling := ⟨.letter, 2, .hours⟩
    t.IsNormal ∧ t.IsLater (-60) l ∧ (-60 : Int).natAbs < minutesPerDay ∧ sp.Fits l (-60) ∧
      instant.fromCell (some (String.ofList (sp.chars l (-60)))) = .ok t ∧
      String.ofList (sp.chars l (-60)) = "-0001-12-31T23:30:00.25-01" := by
  intro t l sp
  have hnormal : t.IsNormal := by decide
  have hlocal : t.IsLater (-60) l := ⟨by decide, rfl, rfl⟩
  have hsize : (-60 : Int).natAbs < minutesPerDay := by decide
  have hfits : sp.Fits l (-60) := ⟨⟨by decide, by decide⟩, by decide⟩
  have hread := instant_fromCell_chars hnormal hlocal hsize hfits
  exact ⟨hnormal, hlocal, hsize, hfits, hread, by decide +kernel⟩

end Field

end SqlRecords
