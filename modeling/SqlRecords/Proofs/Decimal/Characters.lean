import SqlRecords.Decimal.Layout

/-!
# The characters of written numbers

Whatever layout a number is written in, its text is made of digits, signs, a point, the
letter of an exponent, and the letters of the words for what is not finite. What none of
these characters is, the text does not hold.

## What is proved

* `isNumeral_of_mem_toString`: the characters of a whole number.
* **`isNumeric_write`**: the characters of a floating point number.
* `write_ne_nil`: there are some.
-/

namespace SqlRecords.Decimal

/-- The characters of written numbers that are no digits. -/
def numeralSigns : List Char := "+-.eNaNinf".toList

/-- The character can be part of a written number. -/
def IsNumeral (c : Char) : Prop := c.isDigit = true ∨ c ∈ numeralSigns

instance (c : Char) : Decidable (IsNumeral c) :=
  inferInstanceAs (Decidable (c.isDigit = true ∨ c ∈ numeralSigns))

/-- The text is made of such characters. -/
def IsNumeric (s : List Char) : Prop := ∀ c ∈ s, IsNumeral c

instance (s : List Char) : Decidable (IsNumeric s) := List.decidableBAll IsNumeral s

/-! ### Whole numbers -/

theorem isNumeral_of_mem_toDigits {n : Nat} {c : Char} (h : c ∈ Nat.toDigits 10 n) :
    IsNumeral c :=
  .inl (Nat.isDigit_of_mem_toDigits (by decide) (by decide) h)

theorem isNumeral_of_mem_toString {n : Int} {c : Char} (h : c ∈ (toString n).toList) :
    IsNumeral c := by
  have hnat {m : Nat} (hc : c ∈ (toString m).toList) : IsNumeral c := by
    rw [Nat.toString_eq_repr, Nat.toList_repr] at hc
    exact isNumeral_of_mem_toDigits hc
  cases n with
  | ofNat m => exact hnat h
  | negSucc m =>
    have htext : toString (Int.negSucc m) = "-" ++ toString (m + 1) := rfl
    rw [htext, String.toList_append] at h
    rcases List.mem_append.mp h with h | h
    · obtain rfl := List.mem_singleton.mp h
      decide
    · exact hnat h

/-! ### Floating point numbers -/

variable (l : Layout)

/-- A positional number is made of its digits, zeros and a point. -/
theorem isNumeric_positional {digits : List Char} (hd : IsNumeric digits) (point : Int) :
    IsNumeric (l.positional digits point) := by
  have hzeros (n : Nat) : IsNumeric (List.replicate n '0') := by
    intro c hc
    rw [List.eq_of_mem_replicate hc]
    decide
  intro c hc
  unfold Layout.positional at hc
  split at hc
  · simp only [List.mem_cons, List.mem_append] at hc
    rcases hc with (rfl | rfl | hc) | hc
    · decide
    · decide
    · exact hzeros _ c hc
    · exact hd c hc
  · split at hc
    · simp only [List.mem_append] at hc
      rcases hc with (hc | hc) | hc
      · exact hd c hc
      · exact hzeros _ c hc
      · split at hc
        · simp only [List.mem_cons, List.not_mem_nil, or_false] at hc
          rcases hc with rfl | rfl <;> decide
        · cases hc
    · simp only [List.mem_cons, List.mem_append] at hc
      rcases hc with hc | rfl | hc
      · exact hd c (List.mem_of_mem_take hc)
      · decide
      · exact hd c (List.mem_of_mem_drop hc)

/-- So is one with an exponent, but for the signs and the letter. -/
theorem isNumeric_scientific {digits : List Char} (hd : IsNumeric digits) (p : Int) :
    IsNumeric (l.scientific digits p) := by
  intro c hc
  simp only [Layout.scientific, List.mem_cons, List.mem_append] at hc
  rcases hc with ((hc | hc) | rfl | hc) | hc
  · exact hd c (List.mem_of_mem_take hc)
  · split at hc
    · cases hc
    · rcases List.mem_cons.mp hc with rfl | hc
      · decide
      · exact hd c (List.mem_of_mem_drop hc)
  · decide
  · split at hc
    · obtain rfl := List.mem_singleton.mp hc
      decide
    · cases hc
  · exact isNumeral_of_mem_toString hc

theorem isNumeric_sign (negative : Bool) : IsNumeric (l.sign negative) := by
  intro c hc
  unfold Layout.sign at hc
  split at hc
  · obtain rfl := List.mem_singleton.mp hc
    decide
  · split at hc
    · obtain rfl := List.mem_singleton.mp hc
      decide
    · cases hc

/-- **The characters of a written number.** -/
theorem isNumeric_write (u : Unpacked) : IsNumeric (l.write u).toList := by
  unfold Layout.write
  split
  · decide
  · split <;> decide
  · intro c hc
    rw [String.toList_ofList] at hc
    rcases List.mem_append.mp hc with hc | hc
    · exact isNumeric_sign l _ c hc
    · exact isNumeric_positional l (by decide) 1 c hc
  · intro c hc
    rw [String.toList_ofList] at hc
    rcases List.mem_append.mp hc with hc | hc
    · exact isNumeric_sign l _ c hc
    · simp only [Layout.magnitude] at hc
      split at hc
      · exact isNumeric_positional l (fun _ => isNumeral_of_mem_toDigits) _ c hc
      · exact isNumeric_scientific l (fun _ => isNumeral_of_mem_toDigits) _ c hc

theorem positional_ne_nil {digits : List Char} (hd : digits ≠ []) (point : Int) :
    l.positional digits point ≠ [] := by
  unfold Layout.positional
  split
  · exact List.cons_ne_nil _ _
  · split
    · exact List.append_ne_nil_of_left_ne_nil (List.append_ne_nil_of_left_ne_nil hd _) _
    · exact List.append_ne_nil_of_right_ne_nil _ (List.cons_ne_nil _ _)

/-- A written number is not the empty text. -/
theorem write_ne_nil (u : Unpacked) : (l.write u).toList ≠ [] := by
  have hsigned {negative : Bool} {s : List Char} (hs : s ≠ []) :
      (String.ofList (l.sign negative ++ s)).toList ≠ [] := by
    rw [String.toList_ofList]
    exact List.append_ne_nil_of_right_ne_nil _ hs
  unfold Layout.write
  split
  · decide
  · split <;> decide
  · exact hsigned (positional_ne_nil l (by decide) 1)
  · refine hsigned ?_
    simp only [Layout.magnitude]
    split
    · exact positional_ne_nil l Nat.toDigits_ne_nil _
    · simp [Layout.scientific]

end SqlRecords.Decimal
