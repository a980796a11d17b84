import SqlRecords.Calendar.Date

/-!
# Timestamps

A day and a time of day down to nanoseconds. The fraction of a second may be that of the
second behind it as well, so that it reaches up to two seconds. Behind second 59, in any
minute, such a fraction stands for a leap second. Behind any other it stands for no more
than the next second has; only `TimeOfDay.normalize` makes the two the same. An instant is
a timestamp at offset zero; local time at another offset is reached by `Timestamp.shift`.
-/

namespace SqlRecords

namespace Calendar

/-- How many nanoseconds a second has. -/
def nanosPerSecond : Nat := 1000000000

/-- The time exists; the fraction of its second is less than two seconds. -/
def isTime (hour minute second nano : Nat) : Bool :=
  hour < 24 && minute < 60 && second < 60 && nano < 2 * nanosPerSecond

/-- How many minutes a day has. -/
def minutesPerDay : Nat := 1440

end Calendar

/-- A time of day. -/
structure TimeOfDay where
  /-- The hour, from 0 to 23. -/
  hour : Nat
  /-- The minute, from 0 to 59. -/
  minute : Nat
  /-- The second, from 0 to 59. -/
  second : Nat
  /-- The nanoseconds since the second began, those of a second behind it included. -/
  nano : Nat
  /-- There is such a time. -/
  isTime : Calendar.isTime hour minute second nano = true
  deriving DecidableEq, Repr

namespace TimeOfDay

/-- The time with the given numbers, if it exists. -/
def of? (hour minute second nano : Nat) : Option TimeOfDay :=
  if h : Calendar.isTime hour minute second nano = true then some ⟨hour, minute, second, nano, h⟩
  else none

/-- The time with the numbers that a clock shows, if it exists. Second 60 is a leap second behind
second 59. -/
def ofClock? (hour minute second nano : Nat) : Option TimeOfDay :=
  if second = 60 then of? hour minute 59 (Calendar.nanosPerSecond + nano)
  else of? hour minute second nano

/-- The second that a clock shows, 60 in a leap second. -/
def clockSecond (t : TimeOfDay) : Nat := t.second + t.nano / Calendar.nanosPerSecond

/-- The nanoseconds that a clock shows. -/
def clockNano (t : TimeOfDay) : Nat := t.nano % Calendar.nanosPerSecond

/-- The fraction is that of one second, but for a leap second. -/
def IsNormal (t : TimeOfDay) : Prop := t.nano < Calendar.nanosPerSecond ∨ t.second = 59

instance (t : TimeOfDay) : Decidable t.IsNormal := inferInstanceAs (Decidable (_ ∨ _))

/-- The time that a clock shows in the same way, with a fraction of one second, but for a leap
second. -/
def normalize (t : TimeOfDay) : TimeOfDay :=
  if h : t.IsNormal then t
  else
    { t with
      second := t.second + 1
      nano := t.nano - Calendar.nanosPerSecond
      isTime := by
        have ht := t.isTime
        simp only [Calendar.isTime, IsNormal, Bool.and_eq_true, decide_eq_true_eq] at ht h ⊢
        exact ⟨⟨ht.1.1, by omega⟩, by omega⟩ }

/-- The minutes since midnight. -/
def minuteOfDay (t : TimeOfDay) : Nat := t.hour * 60 + t.minute

/-- The time at another minute of the day, seconds unchanged. -/
def atMinute (t : TimeOfDay) (minute : Nat) : TimeOfDay :=
  { hour := minute / 60 % 24
    minute := minute % 60
    second := t.second
    nano := t.nano
    isTime := by
      have h := t.isTime
      simp only [Calendar.isTime, Bool.and_eq_true, decide_eq_true_eq] at h ⊢
      exact ⟨⟨⟨Nat.mod_lt _ (by decide), Nat.mod_lt _ (by decide)⟩, h.1.2⟩, h.2⟩ }

end TimeOfDay

/-- A day and a time of day. -/
structure Timestamp where
  /-- The day. -/
  date : Date
  /-- The time of day. -/
  time : TimeOfDay
  deriving DecidableEq, Repr

namespace Timestamp

/-- The fraction of a second is that of one second, but for a leap second. -/
def IsNormal (t : Timestamp) : Prop := t.time.IsNormal

instance decidableIsNormal (t : Timestamp) : Decidable t.IsNormal :=
  inferInstanceAs (Decidable t.time.IsNormal)

/-- The timestamp with a fraction of one second, but for a leap second. -/
def normalize (t : Timestamp) : Timestamp := { t with time := t.time.normalize }

/-- The timestamp some minutes later, or earlier if there are fewer than none, by less than a day;
`none` outside the calendar. Seconds stay as they are, leap seconds too. -/
def shift (t : Timestamp) (minutes : Int) : Option Timestamp :=
  let total : Int := t.time.minuteOfDay + minutes
  if total < 0 then
    t.date.previous?.map fun d => ⟨d, t.time.atMinute (total + Calendar.minutesPerDay).toNat⟩
  else if total < Calendar.minutesPerDay then some ⟨t.date, t.time.atMinute total.toNat⟩
  else t.date.next?.map fun d => ⟨d, t.time.atMinute (total - Calendar.minutesPerDay).toNat⟩

end Timestamp

end SqlRecords
