import SqlRecords.Proofs.Decimal.Doubles
import SqlRecords.Proofs.Sqlite.Keeping

/-!
# Values that are stored again

A row that is changed is stored again as a whole, so its columns are given values that they made
themselves. They make nothing else of them, and NULL stays the only NULL. Values are compared the
same either way round.

A column of reals keeps whole numbers as reals. Such a real is a whole number again, which may not
be the one that was stored, but which is the real: the doubles of both are the same.

## What is proved

* `Number.toFloat_exact_ofInt`: the real of a whole number is what its own whole number is as a
  real.
* `Affinity.apply_apply`: what a column makes of a value that it made.
* `Stored.same_comm`: two values are equal as keys whichever comes first.
-/

namespace SqlRecords.Sqlite

open SqlRecords.Decimal Float.Model.UnpackedFloat

/-! ### Reals that are whole numbers -/

/-- The magnitude that a mantissa and an exponent say, if it is a whole number. -/
theorem ofNat_magnitude {m n : Nat} {e : Int} (h : IsNormal m e)
    (hn : (if 0 ≤ e then some (m * Nat.pow 2 e.toNat)
      else if m % Nat.pow 2 (-e).toNat == 0 then some (m / Nat.pow 2 (-e).toNat)
      else none) = some n) :
    0 < n ∧ Float.ofNat n = Float.ofModel (Float.Model.pack (.finite .positive m e h.pos)) := by
  have hexact : 0 ≤ e ∧ n = m * 2 ^ e.toNat ∨ e < 0 ∧ n * 2 ^ (-e).toNat = m := by
    split at hn
    · next he => exact .inl ⟨he, (Option.some.inj hn).symm⟩
    · next he =>
      split at hn
      · next hdvd =>
        refine .inr ⟨by omega, ?_⟩
        rw [← Option.some.inj hn]
        exact Nat.div_mul_cancel (Nat.dvd_of_mod_eq_zero (beq_iff_eq.mp hdvd))
      · cases hn
  refine ⟨?_, ofNat_exact h hexact⟩
  have hpos := h.pos
  rcases hexact with ⟨-, rfl⟩ | ⟨-, rfl⟩
  · positivity
  · exact Nat.pos_of_mul_pos_right hpos

/-- **A real that is a whole number** is the double of this number. -/
theorem ofInt_wholeNumber {m : Nat} {e k : Int} (h : IsNormal m e) (s : Sign)
    (hk : wholeNumber? (Float.ofModel (Float.Model.pack (.finite s m e h.pos))) = some k) :
    Float.ofInt k = Float.ofModel (Float.Model.pack (.finite s m e h.pos)) := by
  rw [wholeNumber?, ofFloat_pack h s] at hk
  obtain ⟨n', hn', rfl⟩ := Option.map_eq_some_iff.mp hk
  obtain ⟨n, hn, hcast⟩ := Option.bind_eq_some_iff.mp hn'
  obtain rfl : (n : Int) = n' := Option.some.inj hcast
  obtain ⟨hpos, hmagnitude⟩ := ofNat_magnitude h hn
  cases s with
  | positive =>
    have hsign : signOf n = .positive := if_neg (by omega)
    have hdouble := ofInt_of_ofNat (n := n) h hmagnitude
    rwa [hsign] at hdouble
  | negative =>
    have hsign : signOf (-n) = .negative := if_pos (by omega)
    have hdouble := ofInt_of_ofNat (n := -n) h (by rwa [Int.natAbs_neg])
    rwa [hsign] at hdouble

namespace Number

/-- A number is an integer, or a real that stays what it is. -/
theorem exact_cases (n : Number) :
    (∃ m, n.exact = .integer m) ∨ ∃ x, n = .real x ∧ n.exact = .real x := by
  cases n with
  | integer m => exact .inl ⟨m, rfl⟩
  | real x =>
    simp only [exact]
    split
    · split
      · exact .inl ⟨_, rfl⟩
      · exact .inr ⟨x, rfl, rfl⟩
    · exact .inr ⟨x, rfl, rfl⟩

/-- The real of a whole number is what its own whole number is as a real. -/
theorem toFloat_exact_ofInt (n : Int64) :
    (Number.real (Float.ofInt n.toInt)).exact.toFloat = Float.ofInt n.toInt := by
  by_cases hzero : n.toInt = 0
  · rw [hzero]
    decide +kernel
  · have hmin := n.minValue_le_toInt
    have hmax := n.toInt_le
    have hbounds : Int64.minValue.toInt = -2 ^ 63 ∧ Int64.maxValue.toInt = 2 ^ 63 - 1 := by decide
    obtain ⟨m, e, h, hmagnitude⟩ := ofNat_isNormal (n := n.toInt.natAbs) (by omega) (by omega)
    rw [ofInt_of_ofNat h hmagnitude]
    simp only [exact]
    split
    · next k hk =>
      split
      · next hfits =>
        rw [Bool.and_eq_true, decide_eq_true_eq, decide_eq_true_eq] at hfits
        rw [toFloat, Int64.toInt_ofInt_of_le (by omega) (by omega)]
        exact ofInt_wholeNumber h _ hk
      · rfl
    · rfl

end Number

namespace Affinity

/-- A column of integers has the same for a number that it made of another. -/
theorem apply_asInteger (n : Number) : integer.apply (asInteger n) = asInteger n := by
  obtain ⟨m, hm⟩ | ⟨x, rfl, hx⟩ := n.exact_cases
  · rw [asInteger, hm]
    rfl
  · have hreal : asInteger (.real x) = .real x := by rw [asInteger, hx, Stored.ofNumber]
    calc integer.apply (asInteger (.real x)) = integer.apply (.real x) := by rw [hreal]
      _ = asInteger (.real x) := rfl

/-- So has a column of reals. -/
theorem apply_asReal (n : Number) : real.apply (asReal n) = asReal n := by
  obtain ⟨m, hm⟩ | ⟨x, rfl, hx⟩ := n.exact_cases
  · rw [asReal, hm]
    exact congrArg Stored.real (Number.toFloat_exact_ofInt m)
  · have hreal : asReal (.real x) = .real x := by rw [asReal, hx, Number.toFloat]
    calc real.apply (asReal (.real x)) = real.apply (.real x) := by rw [hreal]
      _ = asReal (.real x) := rfl

/-- **A column makes nothing else of a value that it made.** -/
theorem apply_apply (a : Affinity) (v : Stored) : a.apply (a.apply v) = a.apply v := by
  cases a with
  | text => cases v <;> rfl
  | none => cases v <;> rfl
  | integer =>
    cases v with
    | real x => exact apply_asInteger (.real x)
    | text s =>
      simp only [apply]
      cases hnumber : numberText? s with
      | some n => exact apply_asInteger n
      | none => simp only [hnumber]
    | _ => rfl
  | real =>
    cases v with
    | integer n => exact apply_asReal (.integer n)
    | real x => exact apply_asReal (.real x)
    | text s =>
      simp only [apply]
      cases hnumber : numberText? s with
      | some n => exact apply_asReal n
      | none => simp only [hnumber]
    | _ => rfl

/-- A column makes NULL of NULL and of nothing else. -/
theorem isNull_apply (a : Affinity) (v : Stored) : (a.apply v).isNull = v.isNull := by
  have hinteger : ∀ n, (asInteger n).isNull = false := fun n => by
    cases h : n.exact <;> simp only [asInteger, h] <;> rfl
  cases a with
  | text => cases v <;> rfl
  | none => cases v <;> rfl
  | integer =>
    cases v with
    | real x => exact hinteger (.real x)
    | text s =>
      simp only [apply]
      cases numberText? s with
      | some n => exact hinteger n
      | none => rfl
    | _ => rfl
  | real =>
    cases v with
    | text s =>
      simp only [apply]
      cases numberText? s <;> rfl
    | _ => rfl

end Affinity

namespace Stored

/-- Two reals are equal as keys if neither is greater. -/
theorem same_real_iff {x y : Float} : (real x).same (real y) = true ↔
    x.toModel.unpack.compare y.toModel.unpack = some .eq := by
  rw [same, beq_iff_eq]
  change (if x < y then Ordering.lt else if x == y then .eq else .gt) = .eq ↔ _
  rw [← beq_iff]
  constructor
  · intro h
    split at h
    · cases h
    · split at h
      · next hequal => exact hequal
      · cases h
  · intro hequal
    have hnot : ¬x < y := fun hlt => by
      rw [lt_iff, beq_iff.mp hequal] at hlt
      cases hlt
    rw [if_neg hnot, if_pos hequal]

/-- **Two values are equal as keys whichever comes first.** -/
theorem same_comm (v w : Stored) : v.same w = w.same v := by
  have hbytes : ∀ v w : Stored,
      (Ord.compare v.rank w.rank).then (compareBytes v.bytes w.bytes) = .eq ↔
        (Ord.compare w.rank v.rank).then (compareBytes w.bytes v.bytes) = .eq := fun v w => by
    rw [Ordering.then_eq_eq, Ordering.then_eq_eq, Nat.compare_eq_eq, Nat.compare_eq_eq,
      compareBytes_eq_iff, compareBytes_eq_iff, eq_comm, @eq_comm _ v.bytes]
  have hmixed : ∀ o : Ordering, (o == .eq) = (o.swap == .eq) := fun o => by cases o <;> rfl
  have hplain : v.compare w = (Ord.compare v.rank w.rank).then (compareBytes v.bytes w.bytes) →
      w.compare v = (Ord.compare w.rank v.rank).then (compareBytes w.bytes v.bytes) →
        v.same w = w.same v := fun hv hw => by
    rw [same, same, hv, hw, Bool.eq_iff_iff, beq_iff_eq, beq_iff_eq]
    exact hbytes v w
  cases v with
  | integer m =>
    cases w with
    | integer n =>
      have hcompare : ∀ m n : Int64, same (.integer m) (.integer n) = true ↔ m.toInt = n.toInt :=
        fun m n => by rw [same, beq_iff_eq]; exact Int.compare_eq_eq
      rw [Bool.eq_iff_iff, hcompare, hcompare, eq_comm]
    | real y => exact hmixed (Number.compareMixed m.toInt y)
    | _ => exact hplain rfl rfl
  | real x =>
    cases w with
    | integer n => exact (hmixed (Number.compareMixed n.toInt x)).symm
    | real y =>
      rw [Bool.eq_iff_iff, same_real_iff, same_real_iff, compare_swap x.toModel.unpack]
      cases hxy : x.toModel.unpack.compare y.toModel.unpack with
      | none => simp
      | some o => cases o <;> simp
    | _ => exact hplain rfl rfl
  | _ => cases w <;> exact hplain rfl rfl

/-- A value that equals another as a key is NULL if the other is. -/
theorem isNull_eq_of_same {v w : Stored} (h : v.same w = true) : v.isNull = w.isNull := by
  cases v <;> cases w <;> first | rfl | cases h

end Stored

end SqlRecords.Sqlite
