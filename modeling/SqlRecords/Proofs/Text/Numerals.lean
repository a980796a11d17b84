import Mathlib.Data.List.Basic
import SqlRecords.Text.Integer

/-!
# Numerals are read back

A whole number is written with the digits of its size, behind a minus sign if it is
negative. Every reader of such a text adds up digits from the left, so all that is to be
shown of it is that it does not stop before they end.

## What is proved

* `digitsValue_toDigits`: the digits of a number spell this number.
* `spanDigits_append`: digits end where no digit follows.
* **`readInteger_toString`**: a whole number within the bounds of a type is read back.
* `readInteger_mono`: a type that has room for more numbers reads the same ones.
-/

namespace SqlRecords.Text

/-! ### Digits -/

theorem digitsValue_toDigits (n : Nat) : digitsValue (Nat.toDigits 10 n) = n := by
  have hvalue : digitsValue (Nat.toDigits 10 n) = Nat.ofDigitChars 10 (Nat.toDigits 10 n) 0 := by
    simp only [digitsValue, digitValue, Nat.ofDigitChars, Nat.mul_comm]
  rw [hvalue, Nat.ofDigitChars_ten_toDigits]

theorem isDigit_of_mem_toDigits {n : Nat} {c : Char} (h : c ∈ Nat.toDigits 10 n) :
    c.isDigit = true :=
  Nat.isDigit_of_mem_toDigits (by omega) (by omega) h

theorem isDigit_of_mem_toString {n : Nat} {c : Char} (h : c ∈ (toString n).toList) :
    c.isDigit = true := by
  rw [Nat.toString_eq_repr, Nat.toList_repr] at h
  exact isDigit_of_mem_toDigits h

/-- Digits end where no digit follows. -/
theorem spanDigits_append {digits rest : List Char} (hdigits : ∀ c ∈ digits, c.isDigit = true)
    (hrest : rest.head?.any Char.isDigit = false) :
    spanDigits (digits ++ rest) = (digits, rest) := by
  have hstop : rest.takeWhile Char.isDigit = [] ∧ rest.dropWhile Char.isDigit = rest := by
    cases rest with
    | nil => exact ⟨rfl, rfl⟩
    | cons c rest =>
      have hc : ¬c.isDigit = true := by simpa using hrest
      exact ⟨List.takeWhile_cons_of_neg hc, List.dropWhile_cons_of_neg hc⟩
  rw [spanDigits, List.takeWhile_append_of_pos hdigits, List.dropWhile_append_of_pos hdigits,
    hstop.1, hstop.2, List.append_nil]

/-! ### Whole numbers -/

theorem toList_toString_of_nonneg {n : Int} (h : ¬ n < 0) :
    (toString n).toList = Nat.toDigits 10 n.natAbs := by
  cases n with
  | ofNat m => simp [toString, Int.repr]
  | negSucc m => exact absurd (Int.negSucc_lt_zero m) h

theorem toList_toString_of_neg {n : Int} (h : n < 0) :
    (toString n).toList = '-' :: Nat.toDigits 10 n.natAbs := by
  cases n with
  | ofNat m => exact absurd h (by simp)
  | negSucc m => simp [toString, Int.repr]

/-- The text of a whole number is its sign and its digits. -/
theorem toList_toString (n : Int) :
    (toString n).toList = (if n < 0 then ['-'] else []) ++ Nat.toDigits 10 n.natAbs := by
  by_cases h : n < 0
  · rw [toList_toString_of_neg h, if_pos h]
    rfl
  · rw [toList_toString_of_nonneg h, if_neg h]
    rfl

/-- The number that digits spell behind a number. -/
def digitsBehind (n : Nat) (digits : List Char) : Nat :=
  digits.foldl (fun n c => n * 10 + digitValue c) n

theorem le_digitsBehind : ∀ (n : Nat) (digits : List Char), n ≤ digitsBehind n digits
  | _, [] => Nat.le_refl _
  | n, c :: digits => by
    have h := le_digitsBehind (n * 10 + digitValue c) digits
    rw [digitsBehind, List.foldl_cons]
    exact Nat.le_trans (by omega) h

/-- Digits are read up to the bound. -/
theorem readUp_digits (hi : Int) : ∀ {digits : List Char} {n : Nat},
    (∀ c ∈ digits, c.isDigit = true) → digitsBehind n digits ≤ hi →
      readUp hi n digits = .ok (digitsBehind n digits)
  | [], _, _, _ => rfl
  | c :: digits, n, hdigits, hhi => by
    have hnext : (n : Int) * 10 + digitValue c = (n * 10 + digitValue c : Nat) := by simp
    have hle := le_digitsBehind (n * 10 + digitValue c) digits
    have hbound : ¬hi < (n * 10 + digitValue c : Nat) := by
      rw [digitsBehind, List.foldl_cons] at hhi
      exact Int.not_lt.mpr (Int.le_trans (Int.ofNat_le.mpr hle) hhi)
    simp only [readUp, hdigits c List.mem_cons_self, Bool.not_true, Bool.false_eq_true, if_false,
      hnext, hbound]
    exact readUp_digits hi (fun d hd => hdigits d (List.mem_cons_of_mem c hd)) hhi

/-- Digits behind a minus sign are read down to the bound. -/
theorem readDown_digits (lo : Int) : ∀ {digits : List Char} {n : Nat},
    (∀ c ∈ digits, c.isDigit = true) → lo ≤ -(digitsBehind n digits : Int) →
      readDown lo (-(n : Int)) digits = .ok (-(digitsBehind n digits : Int))
  | [], _, _, _ => rfl
  | c :: digits, n, hdigits, hlo => by
    have hnext : -(n : Int) * 10 - digitValue c = -((n * 10 + digitValue c : Nat) : Int) := by
      simp
      omega
    have hle := le_digitsBehind (n * 10 + digitValue c) digits
    have hbound : ¬-((n * 10 + digitValue c : Nat) : Int) < lo := by
      rw [digitsBehind, List.foldl_cons] at hlo
      have hneg := Int.neg_le_neg (Int.ofNat_le.mpr hle)
      exact Int.not_lt.mpr (Int.le_trans hlo hneg)
    simp only [readDown, hdigits c List.mem_cons_self, Bool.not_true, Bool.false_eq_true, if_false,
      hnext, hbound]
    exact readDown_digits lo (fun d hd => hdigits d (List.mem_cons_of_mem c hd)) hlo

/-- The first digit of a number is no sign. -/
theorem toDigits_eq_cons (n : Nat) :
    ∃ c rest, Nat.toDigits 10 n = c :: rest ∧ c.isDigit = true ∧ c ≠ '+' ∧ c ≠ '-' := by
  cases hdigits : Nat.toDigits 10 n with
  | nil => exact absurd hdigits Nat.toDigits_ne_nil
  | cons c rest =>
    have hc : c.isDigit = true := isDigit_of_mem_toDigits (hdigits ▸ List.mem_cons_self)
    refine ⟨c, rest, rfl, hc, ?_, ?_⟩ <;> rintro rfl <;> exact absurd hc (by decide)

/-- A number does not begin with a nought, unless it is nought. -/
theorem toDigits_head_ne_nought {n : Nat} (h : n ≠ 0) :
    (Nat.toDigits 10 n).head? ≠ some '0' := by
  induction n using Nat.strongRecOn with
  | _ n ih =>
    by_cases hn : n < 10
    · have hdigits : ∀ m < 10, m ≠ 0 → [m.digitChar].head? ≠ some '0' := by decide
      rw [Nat.toDigits_of_lt_base hn]
      exact hdigits n hn h
    · rw [Nat.toDigits_of_base_le (by omega) (by omega),
        List.head?_append_of_ne_nil _ Nat.toDigits_ne_nil]
      exact ih (n / 10) (by omega) (by omega)

/-- **Whole numbers are read back** by a type that they lie within the bounds of. -/
theorem readInteger_toString {lo hi n : Int} (hlo : lo ≤ n) (hhi : n ≤ hi) :
    readInteger lo hi (toString n).toList = .ok n := by
  obtain ⟨c, rest, hdigits, -, hplus, hminus⟩ := toDigits_eq_cons n.natAbs
  have hall : ∀ d ∈ c :: rest, d.isDigit = true := fun d hd =>
    isDigit_of_mem_toDigits (hdigits ▸ hd)
  have hvalue : digitsBehind 0 (c :: rest) = n.natAbs := by
    rw [← hdigits]
    exact digitsValue_toDigits _
  by_cases hneg : n < 0
  · have hread := readDown_digits lo (n := 0) hall (by rw [hvalue]; omega)
    have hback : -(n.natAbs : Int) = n := by omega
    rw [hvalue, hback] at hread
    rw [toList_toString_of_neg hneg, hdigits, readInteger, if_pos (by omega)]
    · exact hread
    · simp
  · have hread := readUp_digits hi (n := 0) hall (by rw [hvalue]; omega)
    have hback : (n.natAbs : Int) = n := by omega
    rw [hvalue, hback] at hread
    rw [toList_toString_of_nonneg hneg, hdigits, readInteger]
    · exact hread
    all_goals simp_all

/-! ### Wider types -/

theorem readUp_mono {hi hi' : Int} (h : hi ≤ hi') : ∀ {s : List Char} {n m : Int},
    readUp hi n s = .ok m → readUp hi' n s = .ok m
  | [], _, _, hread => hread
  | c :: rest, n, m, hread => by
    simp only [readUp] at hread ⊢
    split at hread
    · cases hread
    · next hdigit =>
      split at hread
      · cases hread
      · next hbound =>
        rw [if_neg hdigit, if_neg (by omega)]
        exact readUp_mono h hread

/-- A type with greater numbers reads all that one without them reads. -/
theorem readInteger_mono {lo hi hi' n : Int} (h : hi ≤ hi') {s : List Char}
    (hread : readInteger lo hi s = .ok n) : readInteger lo hi' s = .ok n := by
  unfold readInteger at hread ⊢
  split at hread
  · cases hread
  · cases hread
  · cases hread
  · exact readUp_mono h hread
  · exact hread
  · exact readUp_mono h hread

end SqlRecords.Text
