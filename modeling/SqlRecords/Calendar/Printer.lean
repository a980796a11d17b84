import SqlRecords.Calendar.Timestamp

/-!
# Writing dates and timestamps

A date is written `2024-02-29`, a timestamp `2024-02-29 03:04:05.678`, an instant with
`+00:00` behind it. A year has at least four digits, and a sign outside 0 to 9999; the
fraction of a second has 3, 6 or 9 digits, the fewest that hold it, or is left out. A
fraction of more than a second is written as one of the next second, which is 60 in a
leap second.
-/

namespace SqlRecords.Calendar

/-- A number with zeros in front up to a width. -/
def padded (width n : Nat) : List Char :=
  let digits := Nat.toDigits 10 n
  List.replicate (width - digits.length) '0' ++ digits

/-- The text of a year. -/
def yearChars (year : Int) : List Char :=
  if year < 0 then '-' :: padded 4 year.natAbs
  else if 9999 < year then '+' :: padded 4 year.natAbs
  else padded 4 year.natAbs

/-- The text of a day. -/
def dateChars (d : Date) : List Char :=
  yearChars d.year ++ '-' :: padded 2 d.month ++ '-' :: padded 2 d.day

/-- The text of a fraction of a second, given in nanoseconds. -/
def fractionChars (nano : Nat) : List Char :=
  if nano = 0 then []
  else if nano % 1000000 = 0 then '.' :: padded 3 (nano / 1000000)
  else if nano % 1000 = 0 then '.' :: padded 6 (nano / 1000)
  else '.' :: padded 9 nano

/-- The text of a time of day without the fraction of its second. -/
def clockChars (t : TimeOfDay) : List Char :=
  padded 2 t.hour ++ ':' :: padded 2 t.minute ++ ':' :: padded 2 t.clockSecond

/-- The text of a time of day. -/
def timeChars (t : TimeOfDay) : List Char := clockChars t ++ fractionChars t.clockNano

/-- The text of a timestamp. -/
def timestampChars (t : Timestamp) : List Char := dateChars t.date ++ ' ' :: timeChars t.time

/-- The text of an instant, at offset zero. -/
def instantChars (t : Timestamp) : List Char := timestampChars t ++ ['+', '0', '0', ':', '0', '0']

end SqlRecords.Calendar
