import SqlRecords.Decimal.Layout
import SqlRecords.Decimal.Reader
import SqlRecords.Proofs.Decimal.Shortest
import SqlRecords.Proofs.Text.Numerals

/-!
# Written numbers are read back

A number that is written positionally is its digits with a point among them, or with noughts
around them; where the point is says which power of ten the last digit has. A reader who takes the
text apart finds the very decimal that was written, not only one near to it.

## What is proved

* `isMantissa_positional`: digits and their point are read back.
* `readDecimal_toString`: so is a whole number with its sign.
* **`readDecimal_write`**: a floating point number that is written positionally is read as its
  shortest decimal.
-/

namespace SqlRecords.Decimal

open Text

/-- The number that a decimal with its sign stands for. -/
def Scientific.value (x : Scientific) : ℚ :=
  (if x.negative then -1 else 1) * (x.digits * 10 ^ x.exponent)

/-! ### Digits -/

theorem digitsValue_append (a b : List Char) :
    digitsValue (a ++ b) = digitsValue a * 10 ^ b.length + digitsValue b := by
  have hbehind (n : ℕ) (b : List Char) : digitsBehind n b = n * 10 ^ b.length + digitsValue b := by
    induction b generalizing n with
    | nil => simp [digitsBehind, digitsValue]
    | cons c b ih =>
      have hfirst : digitsValue (c :: b) = digitsBehind (digitValue c) b := by
        simp [digitsValue, digitsBehind]
      rw [hfirst, ih (digitValue c), digitsBehind, List.foldl_cons, ← digitsBehind, ih,
        List.length_cons, pow_succ']
      ring
  rw [digitsValue, List.foldl_append, ← digitsValue]
  exact hbehind _ b

theorem digitsValue_noughts (n : ℕ) : digitsValue (List.replicate n '0') = 0 := by
  induction n with
  | zero => rfl
  | succ n ih =>
    rw [List.replicate_succ', digitsValue_append, ih]
    decide

/-- The text is made of digits. -/
def IsDigits (s : List Char) : Prop := ∀ c ∈ s, c.isDigit = true

theorem isDigits_toDigits (n : ℕ) : IsDigits (Nat.toDigits 10 n) := fun _ => isDigit_of_mem_toDigits

theorem isDigits_noughts (n : ℕ) : IsDigits (List.replicate n '0') := by
  intro c hc
  rw [List.eq_of_mem_replicate hc]
  decide

variable {s t : List Char}

theorem IsDigits.append (hs : IsDigits s) (ht : IsDigits t) : IsDigits (s ++ t) := fun c hc =>
  (List.mem_append.mp hc).elim (hs c) (ht c)

/-! ### Mantissas -/

theorem readMantissa_whole (hs : IsDigits s) (hne : s ≠ []) :
    readMantissa s = some ((digitsValue s, 0), []) := by
  have hspan : spanDigits (s ++ []) = (s, []) := spanDigits_append hs rfl
  rw [List.append_nil] at hspan
  simp [readMantissa, hspan, hne]

theorem readMantissa_point (hs : IsDigits s) (ht : IsDigits t) (hne : s ≠ []) :
    readMantissa (s ++ '.' :: t) = some ((digitsValue (s ++ t), -(t.length : ℤ)), []) := by
  have hspan : spanDigits (s ++ '.' :: t) = (s, '.' :: t) := spanDigits_append hs rfl
  have hspan' : spanDigits (t ++ []) = (t, []) := spanDigits_append ht rfl
  rw [List.append_nil] at hspan'
  simp [readMantissa, hspan, hspan', hne]

/-- The text is a number without a sign, whatever power of ten its last digit stands for. -/
def IsMantissa (s : List Char) (v : ℚ) : Prop :=
  ∃ d e, readMantissa s = some ((d, e), []) ∧ (d : ℚ) * 10 ^ e = v

/-- Noughts between the point and the digits. -/
theorem isMantissa_fraction (hs : IsDigits s) (n : ℕ) :
    IsMantissa ('0' :: '.' :: (List.replicate n '0' ++ s))
      (digitsValue s * 10 ^ (-(n : ℤ) - s.length)) := by
  have hnought : IsDigits ['0'] := isDigits_noughts 1
  have hfraction := (isDigits_noughts n).append hs
  refine ⟨_, _, readMantissa_point hnought hfraction (List.cons_ne_nil _ _), ?_⟩
  have hvalue : digitsValue (['0'] ++ (List.replicate n '0' ++ s)) = digitsValue s := by
    rw [digitsValue_append, digitsValue_append, digitsValue_noughts,
      show digitsValue ['0'] = 0 by decide]
    ring
  have hlast : -((List.replicate n '0' ++ s).length : ℤ) = -(n : ℤ) - s.length := by
    simp only [List.length_append, List.length_replicate]
    omega
  rw [hvalue, hlast]

/-- Noughts between the digits and the point, which may be left out. -/
theorem isMantissa_whole (hs : IsDigits s) (hne : s ≠ []) (n : ℕ) (point : Bool) :
    IsMantissa (s ++ List.replicate n '0' ++ if point then ['.', '0'] else [])
      (digitsValue s * 10 ^ n) := by
  have hwhole := hs.append (isDigits_noughts n)
  have hne' : s ++ List.replicate n '0' ≠ [] := List.append_ne_nil_of_left_ne_nil hne _
  have hvalue : (digitsValue (s ++ List.replicate n '0') : ℚ) = digitsValue s * 10 ^ n := by
    rw [digitsValue_append, digitsValue_noughts, List.length_replicate]
    push_cast
    ring
  cases point with
  | false =>
    rw [if_neg Bool.false_ne_true, List.append_nil]
    refine ⟨_, _, readMantissa_whole hwhole hne', ?_⟩
    rw [zpow_zero, mul_one, hvalue]
  | true =>
    have hten : (10 : ℚ) ≠ 0 := by norm_num
    refine ⟨_, _, readMantissa_point hwhole (isDigits_noughts 1) hne', ?_⟩
    rw [digitsValue_append, show digitsValue ['0'] = 0 by decide, List.length_singleton,
      Nat.cast_one, zpow_neg_one, pow_one, add_zero, ← hvalue]
    push_cast
    exact mul_inv_cancel_right₀ hten _

/-- The point among the digits. -/
theorem isMantissa_point (hs : IsDigits s) {n : ℕ} (hn : 0 < n) (hlt : n < s.length) :
    IsMantissa (s.take n ++ '.' :: s.drop n) (digitsValue s * 10 ^ ((n : ℤ) - s.length)) := by
  have htake : IsDigits (s.take n) := fun c hc => hs c (List.mem_of_mem_take hc)
  have hdrop : IsDigits (s.drop n) := fun c hc => hs c (List.mem_of_mem_drop hc)
  have hne : s.take n ≠ [] := by
    rw [Ne, List.take_eq_nil_iff]
    rintro (hzero | rfl)
    · omega
    · simp at hlt
  refine ⟨_, _, readMantissa_point htake hdrop hne, ?_⟩
  have hlast : -((s.drop n).length : ℤ) = n - s.length := by
    rw [List.length_drop]
    omega
  rw [List.take_append_drop, hlast]

/-- **Digits and their point are read back.** -/
theorem isMantissa_positional (l : Layout) (hs : IsDigits s) (hne : s ≠ []) (point : ℤ) :
    IsMantissa (l.positional s point) (digitsValue s * 10 ^ (point - s.length)) := by
  unfold Layout.positional
  split
  · next hpoint =>
    have hnoughts : -((-point).toNat : ℤ) = point := by omega
    have hread := isMantissa_fraction hs (-point).toNat
    rwa [hnoughts] at hread
  · next hpoint =>
    split
    · next hlen =>
      have hpower : point - s.length = (point.toNat - s.length : ℕ) := by omega
      rw [hpower, zpow_natCast]
      exact isMantissa_whole hs hne _ l.wholePoint
    · next hlen =>
      have hpower : (point.toNat : ℤ) = point := by omega
      have hread := isMantissa_point hs (n := point.toNat) (by omega) (by omega)
      rwa [hpower] at hread

/-- A number begins with a digit. -/
theorem positional_head (l : Layout) (hs : IsDigits s) (hne : s ≠ []) (point : ℤ) :
    ∃ c rest, l.positional s point = c :: rest ∧ c.isDigit = true := by
  obtain ⟨c, s, rfl⟩ := List.exists_cons_of_ne_nil hne
  unfold Layout.positional
  split
  · exact ⟨'0', _, rfl, by decide⟩
  · split
    · exact ⟨c, _, rfl, hs c List.mem_cons_self⟩
    · next hpoint _ =>
      obtain ⟨n, hn⟩ : ∃ n, point.toNat = n + 1 := ⟨point.toNat - 1, by omega⟩
      rw [hn]
      exact ⟨c, _, rfl, hs c List.mem_cons_self⟩

/-! ### Signs -/

/-- What stands before a number. -/
inductive IsSign : Bool → List Char → Prop where
  | none : IsSign false []
  | plus : IsSign false ['+']
  | minus : IsSign true ['-']

theorem readDecimal_signed {negative : Bool} {sign : List Char} (hsign : IsSign negative sign)
    {c : Char} {rest : List Char} (hc : c.isDigit = true) {d : ℕ} {e : ℤ}
    (h : readMantissa (c :: rest) = some ((d, e), [])) :
    readDecimal (sign ++ c :: rest) = some ⟨negative, d, e⟩ := by
  have hread : readSign (sign ++ c :: rest) = (negative, c :: rest) := by
    cases hsign with
    | none =>
      unfold readSign
      split
      · next heq =>
        cases heq
        cases hc
      · next heq =>
        cases heq
        cases hc
      · rfl
    | plus => rfl
    | minus => rfl
  simp [readDecimal, hread, h, readExponent]

theorem isSign_sign (l : Layout) (negative : Bool) : IsSign negative (l.sign negative) := by
  unfold Layout.sign
  cases negative with
  | true => exact .minus
  | false =>
    cases l.plusSign with
    | true => exact .plus
    | false => exact .none

/-- The digits of a whole number are read behind any sign. -/
theorem readDecimal_toDigits {negative : Bool} {sign : List Char} (hsign : IsSign negative sign)
    (n : ℕ) : readDecimal (sign ++ Nat.toDigits 10 n) = some ⟨negative, n, 0⟩ := by
  have hmantissa := readMantissa_whole (isDigits_toDigits n) Nat.toDigits_ne_nil
  obtain ⟨c, rest, hdigits, hc, -⟩ := toDigits_eq_cons n
  rw [digitsValue_toDigits] at hmantissa
  rw [hdigits] at hmantissa ⊢
  exact readDecimal_signed hsign hc hmantissa

/-- A whole number is read back. -/
theorem readDecimal_toString (n : ℤ) :
    readDecimal (toString n).toList = some ⟨decide (n < 0), n.natAbs, 0⟩ := by
  rw [toList_toString]
  refine readDecimal_toDigits ?_ n.natAbs
  split
  · next h =>
    rw [decide_eq_true h]
    exact .minus
  · next h =>
    rw [decide_eq_false h]
    exact .none

/-- So is one whose sign is always written. -/
theorem readDecimal_signedInteger (n : ℤ) :
    readDecimal (signedInteger n).toList = some ⟨decide (n < 0), n.natAbs, 0⟩ := by
  by_cases h : n < 0
  · rw [signedInteger, if_pos h]
    exact readDecimal_toString n
  · rw [signedInteger, if_neg h, decide_eq_false h, String.toList_append,
      toList_toString_of_nonneg h]
    exact readDecimal_toDigits .plus n.natAbs

theorem value_integer (n : ℤ) : Scientific.value ⟨decide (n < 0), n.natAbs, 0⟩ = n := by
  have habs : (n.natAbs : ℚ) = |(n : ℚ)| := by rw [Nat.cast_natAbs, Int.cast_abs]
  rw [Scientific.value, zpow_zero, mul_one, habs]
  by_cases h : n < 0
  · have hneg : (n : ℚ) < 0 := by exact_mod_cast h
    simp [h, abs_of_neg hneg]
  · have hpos : (0 : ℚ) ≤ n := by exact_mod_cast not_lt.mp h
    simp [h, abs_of_nonneg hpos]

/-! ### Floating point numbers -/

/-- Digits with their point are read behind a sign. -/
theorem readDecimal_positional (l : Layout) (negative : Bool) (hs : IsDigits s) (hne : s ≠ [])
    (point : ℤ) : ∃ x, readDecimal (l.sign negative ++ l.positional s point) = some x ∧
      x.value = (if negative then -1 else 1) * (digitsValue s * 10 ^ (point - s.length)) := by
  obtain ⟨d, e, hmantissa, hvalue⟩ := isMantissa_positional l hs hne point
  obtain ⟨c, rest, hhead, hc⟩ := positional_head l hs hne point
  rw [hhead] at hmantissa ⊢
  refine ⟨_, readDecimal_signed (isSign_sign l negative) hc hmantissa, ?_⟩
  rw [Scientific.value, hvalue]

/-- **A floating point number is read as its shortest decimal** if it is written positionally. -/
theorem readDecimal_write {l : Layout} (hplain : ∀ p, l.isPlain p = true) (negative : Bool) {m : ℕ}
    (hm : 0 < m) (e : ℤ) (narrow : Bool) :
    ∃ x, readDecimal (l.write (.finite negative m e narrow)).toList = some x ∧
      x.value = (if negative then -1 else 1) * ((Span.around m e narrow).shortest l.tie).value := by
  obtain ⟨m, rfl⟩ : ∃ k, m = k + 1 := ⟨m - 1, by omega⟩
  have htext : (l.write (.finite negative (m + 1) e narrow)).toList =
      l.sign negative ++ l.magnitude ((Span.around (m + 1) e narrow).shortest l.tie) :=
    String.toList_ofList
  generalize (Span.around (m + 1) e narrow).shortest l.tie = d at *
  have hpoint : (Nat.toDigits 10 d.digits).length + d.exponent - 1 + 1 -
      (Nat.toDigits 10 d.digits).length = d.exponent := by omega
  have hmagnitude : l.magnitude d = l.positional (Nat.toDigits 10 d.digits)
      ((Nat.toDigits 10 d.digits).length + d.exponent - 1 + 1) := if_pos (hplain _)
  have hread := readDecimal_positional l negative (isDigits_toDigits d.digits) Nat.toDigits_ne_nil
    ((Nat.toDigits 10 d.digits).length + d.exponent - 1 + 1)
  rw [hpoint, digitsValue_toDigits] at hread
  rwa [htext, hmagnitude]

/-- A nought is read as such. -/
theorem readDecimal_write_nought (l : Layout) (negative : Bool) (e : ℤ) (narrow : Bool) :
    ∃ x, readDecimal (l.write (.finite negative 0 e narrow)).toList = some x ∧ x.value = 0 := by
  have htext : (l.write (.finite negative 0 e narrow)).toList =
      l.sign negative ++ l.positional ['0'] 1 := String.toList_ofList
  have hread := readDecimal_positional l negative (isDigits_noughts 1) (List.cons_ne_nil _ _) 1
  rw [digitsValue_noughts, Nat.cast_zero, zero_mul, mul_zero] at hread
  rwa [htext]

end SqlRecords.Decimal
