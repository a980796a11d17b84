import SqlRecords.Calendar.Timestamp
import SqlRecords.Text.Blank
import SqlRecords.Text.Digits

/-!
# Reading dates and timestamps

Dates are read as year, month and day with dashes between them, timestamps as a
date, a blank or `T`, and a time with colons and maybe a fraction, instants with an
offset from UTC behind that. Each number may have blanks in front. Parts are read
from left to right and the first that fails decides the fault; whether there is such
a day is asked last.
-/

namespace SqlRecords.Calendar

open SqlRecords.Text

/-- Why a text is not a date. -/
inductive Fault where
  /-- A number or a day that does not exist. -/
  | outOfRange
  /-- A character that cannot stand where it does. -/
  | invalid
  /-- The text ends too early. -/
  | premature
  /-- The text goes on behind the date. -/
  | trailing
  deriving DecidableEq, Repr

/-- The text of a fault. -/
def Fault.message : Fault → String
  | .outOfRange => "input is out of range"
  | .invalid => "input contains invalid characters"
  | .premature => "premature end of input"
  | .trailing => "trailing input"

/-- A reader of the start of a text, which leaves the rest. -/
abbrev Reader (α : Type) := StateT (List Char) (Except Fault) α

/-! ### Parts -/

/-- A fault where something else is due. -/
def unexpected {α : Type} (s : List Char) : Except Fault α :=
  .error (if s.isEmpty then .premature else .invalid)

/-- The greatest number that is read. -/
def maxNumber : Nat := Int64.maxValue.toInt.toNat

/-- Digits, at least one and at most so many as given, as a number. -/
def digits (most : Option Nat) : Reader Nat := fun s =>
  let run := s.takeWhile Char.isDigit
  let run := match most with
    | some n => run.take n
    | none => run
  if run.isEmpty then unexpected s
  else if maxNumber < digitsValue run then .error .outOfRange
  else .ok (digitsValue run, s.drop run.length)

/-- Leading blanks, maybe none. -/
def blanks : Reader Unit := fun s => .ok ((), skipBlanks s)

/-- A given character. -/
def literal (c : Char) : Reader Unit := fun s =>
  match s with
  | x :: rest => if x == c then .ok ((), rest) else .error .invalid
  | [] => .error .premature

/-- A fault unless a condition holds. -/
def inRange (condition : Bool) : Reader Unit :=
  fun s => if condition then .ok ((), s) else .error .outOfRange

/-- A number of one or two digits between two bounds, blanks in front. -/
def field (lo hi : Nat) : Reader Nat := do
  blanks
  let n ← digits (some 2)
  inRange (lo ≤ n && n ≤ hi)
  return n

/-- A year: any number of digits behind a sign, at most four without one. -/
def year : Reader Int := do
  blanks
  let s ← get
  let y : Int ← match s with
    | '-' :: rest => do
      set rest
      let n ← digits none
      pure (-(n : Int))
    | '+' :: rest => do
      set rest
      let n ← digits none
      pure (n : Int)
    | _ => do
      let n ← digits (some 4)
      pure (n : Int)
  inRange (Int32.minValue.toInt ≤ y && y ≤ Int32.maxValue.toInt)
  return y

/-- The end of the text. -/
def finished : Reader Unit := fun s => if s.isEmpty then .ok ((), s) else .error .trailing

/-- The numbers of a date, which may not exist. -/
def dateParts : Reader (Int × Nat × Nat) := do
  let y ← year
  literal '-'
  let m ← field 1 12
  literal '-'
  let d ← field 1 31
  return (y, m, d)

/-- The day with the given numbers. -/
def existing (parts : Int × Nat × Nat) : Except Fault Date :=
  match Date.of? parts.1 parts.2.1 parts.2.2 with
  | some d => .ok d
  | none => .error .outOfRange

/-- The nanoseconds that a fraction of a second spells; digits behind the ninth are dropped. -/
def fractionValue (run : List Char) : Nat :=
  digitsValue (run.take 9) * Nat.pow 10 (9 - (run.take 9).length)

/-- The fraction of a second behind a point, 0 without one. -/
def fraction : Reader Nat := fun s =>
  match s with
  | '.' :: rest =>
    let (run, rest) := spanDigits rest
    if run.isEmpty then unexpected rest else .ok (fractionValue run, rest)
  | s => .ok (0, s)

/-- A time of day. -/
def time : Reader TimeOfDay := do
  let h ← field 0 23
  literal ':'
  let m ← field 0 59
  literal ':'
  let s ← field 0 60
  let n ← fraction
  match TimeOfDay.ofClock? h m s n with
  | some t => return t
  | none => throw .outOfRange

/-- What stands between a date and a time. -/
inductive Separator where
  /-- Any blanks, maybe none. -/
  | blank
  /-- The letter T. -/
  | letter
  deriving DecidableEq, Repr

/-- Reads what stands between a date and a time. -/
def Separator.read : Separator → Reader Unit
  | .blank => blanks
  | .letter => literal 'T'

/-! ### Offsets -/

/-- The minutes of an offset: two digits, or nothing at the end of the text. -/
def offsetMinutes : Reader Nat := fun s =>
  match s with
  | [] => .ok (0, [])
  | a :: b :: rest =>
    if a.isDigit && b.isDigit then
      if digitsValue [a, b] < 60 then .ok (digitsValue [a, b], rest) else .error .outOfRange
    else .error .invalid
  | _ => .error .premature

/-- The size of an offset in minutes: two digits for the hours, colons and blanks, minutes. -/
def offsetSize : Reader Nat := fun s =>
  match s with
  | a :: b :: rest =>
    if a.isDigit && b.isDigit then
      (offsetMinutes (rest.dropWhile fun c => c == ':' || isBlank c)).map fun (m, rest) =>
        (digitsValue [a, b] * 60 + m, rest)
    else .error .invalid
  | _ => .error .premature

/-- An offset from UTC in minutes: `Z`, or a sign and a size. The typographic minus sign counts as
a sign too. -/
def offset : Reader Int := do
  blanks
  let s ← get
  match s with
  | 'Z' :: rest | 'z' :: rest => do
    set rest
    return 0
  | '+' :: rest => do
    set rest
    let n ← offsetSize
    return n
  | '-' :: rest | '\u2212' :: rest => do
    set rest
    let n ← offsetSize
    return -(n : Int)
  | [] => throw .premature
  | _ => throw .invalid

/-! ### Whole texts -/

/-- Reads a date. -/
def readDate (s : List Char) : Except Fault Date := do
  let (parts, rest) ← dateParts s
  let _ ← finished rest
  existing parts

/-- Reads a timestamp with a given separator. -/
def readTimestampWith (separator : Separator) (s : List Char) : Except Fault Timestamp := do
  let (parts, rest) ← dateParts s
  let (_, rest) ← separator.read rest
  let (t, rest) ← time rest
  let _ ← finished rest
  return ⟨← existing parts, t⟩

/-- Reads an instant with a given separator. The offset has to be less than a day, and the calendar
has to reach both the local time and that at offset zero. -/
def readInstantWith (separator : Separator) (s : List Char) : Except Fault Timestamp := do
  let (parts, rest) ← dateParts s
  let (_, rest) ← separator.read rest
  let (t, rest) ← time rest
  let (minutes, rest) ← offset rest
  let _ ← finished rest
  let local' : Timestamp := ⟨← existing parts, t⟩
  if minutes.natAbs < minutesPerDay then
    match local'.shift (-minutes) with
    | some utc => return utc
    | none => throw .outOfRange
  else throw .outOfRange

/-- Tries both separators, the blank first. -/
def eitherSeparator {α : Type} (read : Separator → List Char → Except Fault α) (s : List Char) :
    Option α :=
  match read .blank s with
  | .ok a => some a
  | .error _ => (read .letter s).toOption

/-- Reads a timestamp. -/
def readTimestamp (s : List Char) : Option Timestamp := eitherSeparator readTimestampWith s

/-- Reads an instant. -/
def readInstant (s : List Char) : Option Timestamp := eitherSeparator readInstantWith s

end SqlRecords.Calendar
