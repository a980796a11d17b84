import SqlRecords.Calendar.Timestamp

/-!
# What a clock shows

A time of day may have a fraction of more than a second. A clock shows it as a time with a
fraction of one second, in the next second, and this is second 60 behind second 59. So it shows
some times alike. Of those that it shows alike, one is the normal form, which is what is made of
the numbers that the clock shows.

## What is proved

* **`TimeOfDay.ofClock?_clock`**: what a clock shows is the normal form of the time.
* `TimeOfDay.normalize_eq_self_iff`: which times are their own normal forms.
* `TimeOfDay.clock_normalize`: a clock shows a time and its normal form alike.
-/

namespace SqlRecords

open Calendar

namespace TimeOfDay

theorem nano_lt (t : TimeOfDay) : t.nano < 2 * nanosPerSecond := by
  have htime := t.isTime
  simp only [Calendar.isTime, Bool.and_eq_true, decide_eq_true_eq] at htime
  exact htime.2

theorem second_lt (t : TimeOfDay) : t.second < 60 := by
  have htime := t.isTime
  simp only [Calendar.isTime, Bool.and_eq_true, decide_eq_true_eq] at htime
  exact htime.1.2

theorem clockNano_lt (t : TimeOfDay) : t.clockNano < nanosPerSecond :=
  Nat.mod_lt t.nano (by decide)

theorem clock_of_lt {t : TimeOfDay} (h : t.nano < nanosPerSecond) :
    t.clockSecond = t.second ∧ t.clockNano = t.nano := by
  simp only [clockSecond, clockNano, Nat.div_eq_of_lt h, Nat.mod_eq_of_lt h, Nat.add_zero, and_self]

theorem clock_of_le {t : TimeOfDay} (h : nanosPerSecond ≤ t.nano) :
    t.clockSecond = t.second + 1 ∧ t.clockNano = t.nano - nanosPerSecond := by
  have hnano := t.nano_lt
  have hrest : t.nano - nanosPerSecond < nanosPerSecond := by omega
  have hdiv : t.nano / nanosPerSecond = 1 := by
    rw [Nat.div_eq_sub_div (by decide) h, Nat.div_eq_of_lt hrest]
  have hmod : t.nano % nanosPerSecond = t.nano - nanosPerSecond := by
    rw [Nat.mod_eq_sub_mod h, Nat.mod_eq_of_lt hrest]
  exact ⟨by rw [clockSecond, hdiv], hmod⟩

theorem clockSecond_le (t : TimeOfDay) : t.clockSecond ≤ 60 := by
  have hsecond := t.second_lt
  rcases Nat.lt_or_ge t.nano nanosPerSecond with h | h
  · rw [(clock_of_lt h).1]
    omega
  · rw [(clock_of_le h).1]
    omega

/-- **What a clock shows is a time in its normal form**, that of the time it was shown for. -/
theorem ofClock?_clock (t : TimeOfDay) :
    ofClock? t.hour t.minute t.clockSecond t.clockNano = some t.normalize := by
  have hsecond := t.second_lt
  rcases Nat.lt_or_ge t.nano nanosPerSecond with h | h
  · obtain ⟨hshown, hnano⟩ := clock_of_lt h
    have hnormal : t.IsNormal := .inl h
    rw [ofClock?, hshown, hnano, if_neg (by omega), normalize, dif_pos hnormal]
    exact dif_pos t.isTime
  · obtain ⟨hshown, hnano⟩ := clock_of_le h
    by_cases hleap : t.second = 59
    · have hnormal : t.IsNormal := .inr hleap
      have hback : nanosPerSecond + (t.nano - nanosPerSecond) = t.nano := by omega
      rw [ofClock?, hshown, hnano, if_pos (by omega), normalize, dif_pos hnormal, hback, ← hleap]
      exact dif_pos t.isTime
    · have hnormal : ¬t.IsNormal := by
        rintro (hlt | hlast)
        · omega
        · exact hleap hlast
      rw [ofClock?, hshown, hnano, if_neg (by omega), normalize, dif_neg hnormal]
      exact dif_pos _

/-- A time is its normal form if it is in it. -/
theorem normalize_eq_self_iff {t : TimeOfDay} : t.normalize = t ↔ t.IsNormal := by
  unfold normalize
  split
  · next h => exact iff_of_true rfl h
  · next h =>
    refine iff_of_false (fun heq => ?_) h
    have hsecond := congrArg second heq
    exact absurd hsecond (Nat.succ_ne_self t.second)

theorem isNormal_normalize (t : TimeOfDay) : t.normalize.IsNormal := by
  unfold normalize
  split
  · next h => exact h
  · have hnano := t.nano_lt
    exact .inl (by simp only; omega)

/-- A clock shows the normal form of a time as it shows the time. -/
theorem clock_normalize (t : TimeOfDay) :
    t.normalize.hour = t.hour ∧ t.normalize.minute = t.minute ∧
      t.normalize.clockSecond = t.clockSecond ∧ t.normalize.clockNano = t.clockNano := by
  unfold normalize
  split
  · exact ⟨rfl, rfl, rfl, rfl⟩
  · next h =>
    have hle : nanosPerSecond ≤ t.nano := Nat.le_of_not_lt fun hlt => h (.inl hlt)
    have hnano := t.nano_lt
    obtain ⟨hshown, hrest⟩ := clock_of_le hle
    refine ⟨rfl, rfl, ?_, ?_⟩
    · rw [hshown, (clock_of_lt (by simp only; omega)).1]
    · rw [hrest, (clock_of_lt (by simp only; omega)).2]

end TimeOfDay

namespace Timestamp

theorem normalize_eq_self_iff {t : Timestamp} : t.normalize = t ↔ t.IsNormal := by
  rw [IsNormal, ← TimeOfDay.normalize_eq_self_iff]
  exact ⟨congrArg time, fun h => by rw [normalize, h]⟩

theorem isNormal_normalize (t : Timestamp) : t.normalize.IsNormal := t.time.isNormal_normalize

end Timestamp

end SqlRecords
