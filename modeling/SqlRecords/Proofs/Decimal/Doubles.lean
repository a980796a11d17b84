import Mathlib
import SqlRecords.Decimal.Binary
import SqlRecords.Proofs.Decimal.Written

/-!
# Quotients of whole numbers in doubles

A whole number below `2 ^ 53` is a double, and the quotient of two doubles is a double that is
nearest to their exact quotient. If the denominator is a power of ten, the exact quotient is a
decimal with few digits behind the point. As long as the double has a last place that is smaller
than the steps between such decimals, it is nearest to one of them alone, and the shortest decimal
that reads back as the double is the exact quotient.

The steps of the library's own division are followed from the bits of a double to those of the
quotient: a double that is packed is unpacked as it was; the mantissas are divided as whole numbers,
with two bits for what is left over (`Locates`); and the first 53 bits are rounded by these two.

## What is proved

* `IsNormal.unpack_pack`: the sign, mantissa and exponent of a normal double are found in its bits.
* `ofNat_eq`, `ofInt_eq`: whole numbers below `2 ^ 53` are doubles.
* `ofNat_exact`: so are greater ones that a mantissa and an exponent say; of all those of 64 bits
  the double is normal (`ofNat_isNormal`).
* `compare_swap`: how two doubles compare does not depend on which is the first.
* `roundWithAccuracy_holds`: a number is rounded to a double nearest to it.
* **`ofFloat_div`**: the quotient of two doubles is a double nearest to their exact quotient.
* `shortest_quotient`: a fraction of a power of ten is its shortest decimal, if its numerator is not
  too great.
* **`readDecimal_quotient`**: a whole number that was divided by a power of ten is read as their
  exact quotient, if it is not too great.
-/

namespace SqlRecords.Decimal

open Float.Model Float.Model.UnpackedFloat

/-! ### Bits -/

/-- The mantissa and the exponent are those of a normal double. -/
structure IsNormal (m : ℕ) (e : ℤ) : Prop where
  low : 2 ^ 52 ≤ m
  high : m < 2 ^ 53
  least : -1074 ≤ e
  greatest : e ≤ 971

namespace IsNormal

variable {m : ℕ} {e : ℤ}

theorem pos (h : IsNormal m e) : 0 < m := Nat.lt_of_lt_of_le (by decide) h.low

theorem log2 (h : IsNormal m e) : m.log2 = 52 :=
  (Nat.log2_eq_iff (Nat.ne_of_gt h.pos)).mpr ⟨h.low, h.high⟩

/-- The exponent in the bits. -/
def biased (e : ℤ) : ℕ := (e + 1075).toNat

theorem biased_bounds (h : IsNormal m e) : 0 < biased e ∧ biased e < 2047 := by
  have hleast := h.least
  have hgreatest := h.greatest
  unfold biased
  omega

/-- The bits of a normal double: a sign, an exponent, and the mantissa without its first bit. -/
theorem pack_eq (h : IsNormal m e) (s : Sign) :
    UnpackedFloat.pack Format.binary64 (.finite s m e h.pos) =
      packComponents Format.binary64 s (BitVec.ofNat 11 (biased e)) (BitVec.ofNat 52 m) := by
  have hbounds := h.biased_bounds
  have hexponent : (e + Format.binary64.exponentBias +
      Format.binary64.mantissaBitsWithoutImplicit).toNat = biased e := by
    simp [biased, Format.exponentBias]
    omega
  simp only [UnpackedFloat.pack, hexponent, h.log2]
  rw [if_neg (by simp; omega)]
  exact if_pos rfl

end IsNormal

theorem toNat_append {v w : ℕ} (x : BitVec v) (y : BitVec w) :
    (x ++ y).toNat = x.toNat * 2 ^ w + y.toNat := by
  rw [BitVec.toNat_append, ← Nat.shiftLeft_add_eq_or_of_lt y.isLt, Nat.shiftLeft_eq]

namespace IsNormal

variable {m : ℕ} {e : ℤ}

theorem toNat_biased (h : IsNormal m e) : (BitVec.ofNat 11 (biased e)).toNat = biased e := by
  have hbounds := h.biased_bounds
  rw [BitVec.toNat_ofNat, Nat.mod_eq_of_lt (by omega)]

theorem toNat_mantissa (h : IsNormal m e) : (BitVec.ofNat 52 m).toNat = m - 2 ^ 52 := by
  have hlow := h.low
  have hhigh := h.high
  rw [BitVec.toNat_ofNat]
  omega

theorem ofNat_biased_ne (h : IsNormal m e) {x : BitVec 11} (hx : x.toNat = 0 ∨ x.toNat = 2047) :
    BitVec.ofNat 11 (biased e) ≠ x := by
  rintro rfl
  have hbounds := h.biased_bounds
  rw [h.toNat_biased] at hx
  omega

/-- **A normal double** is unpacked as it was packed. -/
theorem unpack_pack (h : IsNormal m e) (s : Sign) :
    (Float.Model.pack (.finite s m e h.pos)).unpack = .finite s m e h.pos := by
  have hmantissa : (1#1 ++ BitVec.ofNat 52 m).toNat = m := by
    have hlow := h.low
    rw [toNat_append, h.toNat_mantissa]
    simp
    omega
  have hexponent : ((biased e : ℕ) : ℤ) - ((Format.binary64.exponentBias : ℕ) + (52 : ℕ)) = e := by
    have hleast := h.least
    simp [biased, Format.exponentBias]
    omega
  have hsign : Sign.ofBitVec s.toBitVec = s := by cases s <;> rfl
  simp only [Float.Model.unpack, Float.Model.pack, h.pack_eq s, UnpackedFloat.unpack,
    unpackExponent_packComponents, unpackMantissa_packComponents, unpackSign_packComponents]
  rw [if_neg (h.ofNat_biased_ne (.inr (by decide))), if_neg (h.ofNat_biased_ne (.inl (by decide)))]
  simp only [hmantissa, h.toNat_biased, hsign]
  congr 1

end IsNormal

/-- The sign is a minus sign. -/
def isMinus : Sign → Bool
  | .negative => true
  | .positive => false

/-- The bits of a normal double as a number. -/
theorem toNat_toBits_pack {m : ℕ} {e : ℤ} (h : IsNormal m e) (s : Sign) :
    (Float.ofModel (Float.Model.pack (.finite s m e h.pos))).toBits.toNat =
      (s.toBitVec.toNat * 2 ^ 11 + IsNormal.biased e) * 2 ^ 52 + (m - 2 ^ 52) := by
  rw [← h.toNat_mantissa, ← h.toNat_biased, ← toNat_append, ← toNat_append]
  exact congrArg BitVec.toNat (h.pack_eq s)

/-- **A normal double** is what its mantissa and its exponent say. -/
theorem ofFloat_pack {m : ℕ} {e : ℤ} (h : IsNormal m e) (s : Sign) :
    ofFloat (Float.ofModel (Float.Model.pack (.finite s m e h.pos))) =
      .finite (isMinus s) m e (m == 2 ^ 52 && decide (-1074 < e)) := by
  have hlow := h.low
  have hhigh := h.high
  have hleast := h.least
  have hbounds := h.biased_bounds
  have hsign : s.toBitVec.toNat < 2 := s.toBitVec.isLt
  have hminus : (s.toBitVec.toNat == 1) = isMinus s := by cases s <;> rfl
  rw [ofFloat, toNat_toBits_pack h s]
  generalize hx : (s.toBitVec.toNat * 2 ^ 11 + IsNormal.biased e) * 2 ^ 52 + (m - 2 ^ 52) = x
  have hfraction : x % Nat.pow 2 binary64.fractionBits = m - 2 ^ 52 := by
    change x % 2 ^ 52 = _
    omega
  have hexponent : x / Nat.pow 2 binary64.fractionBits % Nat.pow 2 binary64.exponentBits =
      IsNormal.biased e := by
    change x / 2 ^ 52 % 2 ^ 11 = _
    omega
  have htop : x / Nat.pow 2 (binary64.fractionBits + binary64.exponentBits) % 2 =
      s.toBitVec.toNat := by
    change x / 2 ^ 63 % 2 = _
    omega
  have hlowest : (2 : ℤ) - Nat.pow 2 (binary64.exponentBits - 1) - binary64.fractionBits =
      -1074 := by decide
  simp only [BinaryFormat.unpack, hfraction, hexponent, htop, hminus, hlowest]
  have hbiased : (IsNormal.biased e : ℤ) = e + 1075 := by
    unfold IsNormal.biased
    omega
  have hfinite : ¬(IsNormal.biased e + 1 == Nat.pow 2 binary64.exponentBits) = true := by
    rw [beq_iff_eq]
    change ¬IsNormal.biased e + 1 = 2048
    omega
  have hsubnormal : ¬(IsNormal.biased e == 0) = true := by
    rw [beq_iff_eq]
    omega
  have hpow : Nat.pow 2 binary64.fractionBits = 2 ^ 52 := rfl
  have hmantissa : Nat.pow 2 binary64.fractionBits + (m - 2 ^ 52) = m := by
    rw [hpow]
    omega
  have hvalue : -1074 + (e + 1075) - 1 = e := by omega
  have hnarrow : (m - 2 ^ 52 == 0 && decide (1 < IsNormal.biased e)) =
      (m == 2 ^ 52 && decide (-1074 < e)) := by
    rw [Bool.eq_iff_iff]
    simp only [Bool.and_eq_true, beq_iff_eq, decide_eq_true_eq]
    omega
  rw [if_neg hfinite, if_neg hsubnormal, hmantissa, hnarrow, hbiased, hvalue]

/-! ### Rounding -/

/-- A mantissa and the two bits behind it say where a number lies. -/
structure Locates (em : ExtendedMantissa) (v : ℚ) : Prop where
  low : (em.mantissa : ℚ) ≤ v
  high : v < em.mantissa + 1
  round : em.roundBit = true ↔ (em.mantissa : ℚ) + 1 / 2 ≤ v
  sticky : em.stickyBit = false ↔ v = em.mantissa ∨ v = em.mantissa + 1 / 2

namespace Locates

variable {em : ExtendedMantissa} {v : ℚ}

/-- A mantissa without its last bit says where half of the number lies. -/
theorem shiftRightOne (h : Locates em v) : Locates em.shiftRightOne (v / 2) := by
  have hlow := h.low
  have hhigh := h.high
  have hexact : (em.roundBit || em.stickyBit) = false ↔ v = em.mantissa := by
    rw [Bool.or_eq_false_iff, ← Bool.not_eq_true, h.round, h.sticky]
    constructor
    · rintro ⟨hround, hv | hv⟩
      · exact hv
      · exact absurd hv.ge hround
    · rintro rfl
      exact ⟨by linarith, .inl rfl⟩
  have hm : (em.mantissa : ℚ) = 2 * (em.mantissa / 2 : ℕ) + (em.mantissa % 2 : ℕ) := by
    exact_mod_cast (Nat.div_add_mod em.mantissa 2).symm
  have hbit : ((em.mantissa % 2 : ℕ) : ℚ) ≤ 1 := by
    exact_mod_cast Nat.le_of_lt_succ (Nat.mod_lt _ two_pos)
  have hround : (em.mantissa % 2 != 0) = true ↔ ((em.mantissa / 2 : ℕ) : ℚ) + 1 / 2 ≤ v / 2 := by
    rcases Nat.mod_two_eq_zero_or_one em.mantissa with heven | hodd
    · rw [heven, Nat.cast_zero] at hm
      exact ⟨fun hne => absurd hne (by simp [heven]), fun hle => by linarith⟩
    · rw [hodd, Nat.cast_one] at hm
      exact ⟨fun _ => by linarith, fun _ => by simp [hodd]⟩
  have hsticky : v = em.mantissa ↔
      v / 2 = (em.mantissa / 2 : ℕ) ∨ v / 2 = (em.mantissa / 2 : ℕ) + 1 / 2 := by
    rcases Nat.mod_two_eq_zero_or_one em.mantissa with heven | hodd
    · rw [heven, Nat.cast_zero] at hm
      exact ⟨fun hv => .inl (by linarith), by rintro (hv | hv) <;> linarith⟩
    · rw [hodd, Nat.cast_one] at hm
      exact ⟨fun hv => .inr (by linarith), by rintro (hv | hv) <;> linarith⟩
  have hnonneg : (0 : ℚ) ≤ (em.mantissa % 2 : ℕ) := Nat.cast_nonneg _
  constructor
  · change ((em.mantissa / 2 : ℕ) : ℚ) ≤ v / 2
    linarith
  · change v / 2 < ((em.mantissa / 2 : ℕ) : ℚ) + 1
    linarith
  · exact hround
  · exact hexact.trans hsticky

theorem shiftRight (h : Locates em v) : ∀ n : ℕ, Locates (em >>> n) (v / 2 ^ n)
  | 0 => by
    rw [pow_zero, div_one]
    exact h
  | n + 1 => by
    have ih := (h.shiftRight n).shiftRightOne
    rwa [div_div, ← pow_succ] at ih

/-- **A rounded mantissa** is nearest to the number, and even if the number lies between two. -/
theorem rounded (h : Locates em v) :
    (em.roundedMantissa : ℚ) - 1 / 2 ≤ v ∧ v ≤ em.roundedMantissa + 1 / 2 ∧
      (em.roundedMantissa % 2 = 1 →
        (em.roundedMantissa : ℚ) - 1 / 2 < v ∧ v < em.roundedMantissa + 1 / 2) := by
  obtain ⟨m, round, sticky⟩ := em
  have hlow : (m : ℚ) ≤ v := h.low
  have hhigh : v < (m : ℚ) + 1 := h.high
  have hround : round = true ↔ (m : ℚ) + 1 / 2 ≤ v := h.round
  have hsticky : sticky = false ↔ v = m ∨ v = m + 1 / 2 := h.sticky
  cases round with
  | false =>
    have hbelow : v < (m : ℚ) + 1 / 2 := not_le.mp fun hle => Bool.false_ne_true (hround.mpr hle)
    have hresult : (ExtendedMantissa.mk m false sticky).roundedMantissa = m := by
      cases sticky <;> rfl
    rw [hresult]
    exact ⟨by linarith, by linarith, fun _ => ⟨by linarith, by linarith⟩⟩
  | true =>
    have habove : (m : ℚ) + 1 / 2 ≤ v := hround.mp rfl
    cases sticky with
    | false =>
      have hmiddle : v = m + 1 / 2 := by
        rcases hsticky.mp rfl with hv | hv <;> linarith
      have hresult : (ExtendedMantissa.mk m true false).roundedMantissa = m + m % 2 := rfl
      have hbit : ((m % 2 : ℕ) : ℚ) ≤ 1 := by
        exact_mod_cast Nat.le_of_lt_succ (Nat.mod_lt m two_pos)
      have hnonneg : (0 : ℚ) ≤ (m % 2 : ℕ) := Nat.cast_nonneg _
      rw [hresult]
      push_cast
      exact ⟨by linarith, by linarith, fun hodd => by omega⟩
    | true =>
      have hne : v ≠ m + 1 / 2 := fun hv => Bool.noConfusion (hsticky.mpr (.inr hv))
      have hlt : (m : ℚ) + 1 / 2 < v := lt_of_le_of_ne habove hne.symm
      have hresult : (ExtendedMantissa.mk m true true).roundedMantissa = m + 1 := rfl
      rw [hresult]
      push_cast
      exact ⟨by linarith, by linarith, fun _ => ⟨by linarith, by linarith⟩⟩

end Locates

theorem mantissa_shiftRight (em : ExtendedMantissa) : ∀ n : ℕ,
    (em >>> n).mantissa = em.mantissa / 2 ^ n
  | 0 => by
    rw [pow_zero, Nat.div_one]
    rfl
  | n + 1 => by
    have ih : (em >>> (n + 1)).mantissa = (em >>> n).mantissa / 2 := rfl
    rw [ih, mantissa_shiftRight em n, Nat.div_div_eq_div_mul, pow_succ]

/-- A mantissa of enough bits is cut down to those of a double. -/
theorem shiftToTargetExponent_eq {m : ℕ} {e : ℤ} (hm : 52 ≤ m.log2) (he : -1074 ≤ e)
    (accuracy : Accuracy) : shiftToTargetExponent Format.binary64 m e accuracy =
      (ExtendedMantissa.ofMantissaAndAccuracy m accuracy >>> (m.log2 - 52),
        e + (m.log2 - 52 : ℕ)) := by
  have htarget : Format.binary64.targetExponent (totalExponent m e) - e = (m.log2 - 52 : ℕ) := by
    simp only [Format.targetExponent, totalExponent, Format.mantissaBits, Format.minExponent]
    norm_num
    omega
  rw [shiftToTargetExponent, shiftToExponent]
  simp only [htarget, Int.toNat_natCast]

/-- A mantissa of enough bits has those of a double when it is cut. -/
theorem cut_bounds {m : ℕ} (hm : 52 ≤ m.log2) :
    2 ^ 52 ≤ m / 2 ^ (m.log2 - 52) ∧ m / 2 ^ (m.log2 - 52) < 2 ^ 53 := by
  have hne : m ≠ 0 := by
    rintro rfl
    simp at hm
  have hsplit : 52 + (m.log2 - 52) = m.log2 := by omega
  constructor
  · rw [Nat.le_div_iff_mul_le (by positivity), ← pow_add, hsplit]
    exact Nat.log2_self_le hne
  · have hlt := Nat.lt_log2_self (n := m)
    rw [Nat.div_lt_iff_lt_mul (by positivity), ← pow_add]
    rwa [← hsplit, add_right_comm] at hlt

theorem mantissa_ofMantissaAndAccuracy (m : ℕ) (accuracy : Accuracy) :
    (ExtendedMantissa.ofMantissaAndAccuracy m accuracy).mantissa = m := by
  cases accuracy with
  | exact => rfl
  | inexact o => cases o <;> rfl

theorem roundedMantissa_bounds (em : ExtendedMantissa) :
    em.mantissa ≤ em.roundedMantissa ∧ em.roundedMantissa ≤ em.mantissa + 1 := by
  obtain ⟨m, round, sticky⟩ := em
  cases round <;> cases sticky <;> simp [ExtendedMantissa.roundedMantissa,
    ExtendedMantissa.accuracy, Accuracy.roundToNearestEven]
  omega

/-- A mantissa and its exponent are rounded to those of a double. If the mantissa becomes too great
by that, it is the least of the next binade. -/
theorem roundWithAccuracy_cases {m : ℕ} {e : ℤ} (hm : 52 ≤ m.log2) (he : -1074 ≤ e)
    (accuracy : Accuracy) (s : Sign) :
    let em := ExtendedMantissa.ofMantissaAndAccuracy m accuracy >>> (m.log2 - 52)
    let t := e + (m.log2 - 52 : ℕ)
    (2 ^ 52 ≤ em.mantissa ∧ em.mantissa < 2 ^ 53) ∧
      ((em.roundedMantissa < 2 ^ 53 ∧ ∃ h, roundWithAccuracy Format.binary64 s m e accuracy =
          .finite s em.roundedMantissa t h) ∨
        (em.roundedMantissa = 2 ^ 53 ∧ ∃ h, roundWithAccuracy Format.binary64 s m e accuracy =
          .finite s (2 ^ 52) (t + 1) h)) := by
  intro em t
  have hcut : 2 ^ 52 ≤ em.mantissa ∧ em.mantissa < 2 ^ 53 := by
    rw [mantissa_shiftRight, mantissa_ofMantissaAndAccuracy]
    exact cut_bounds hm
  have hrounded := roundedMantissa_bounds em
  have ht : -1074 ≤ t := by omega
  have hfinal {r : ℕ} (hr : em.roundedMantissa = r) (hlog : 52 ≤ r.log2)
      (hpos : 0 < r / 2 ^ (r.log2 - 52)) : roundWithAccuracy Format.binary64 s m e accuracy =
        .finite s (r / 2 ^ (r.log2 - 52)) (t + (r.log2 - 52 : ℕ)) hpos := by
    have hmantissa : (ExtendedMantissa.ofMantissaAndAccuracy r .exact >>> (r.log2 - 52)).mantissa =
        r / 2 ^ (r.log2 - 52) := mantissa_shiftRight _ _
    rw [roundWithAccuracy, shiftToTargetExponent_eq hm he]
    simp only
    rw [hr, shiftToTargetExponent_eq hlog ht]
    simp only [hmantissa, hpos.ne', dite_false]
  refine ⟨hcut, ?_⟩
  rcases Nat.lt_or_ge em.roundedMantissa (2 ^ 53) with hlt | hge
  · have hlog : em.roundedMantissa.log2 = 52 :=
      (Nat.log2_eq_iff (by omega)).mpr ⟨by omega, hlt⟩
    have hpos : 0 < em.roundedMantissa := by omega
    have hresult := hfinal rfl hlog.ge (by rw [hlog]; simpa using hpos)
    refine .inl ⟨hlt, hpos, ?_⟩
    simpa [hlog] using hresult
  · have hr : em.roundedMantissa = 2 ^ 53 := by omega
    have hlog : (2 ^ 53).log2 = 53 := Nat.log2_two_pow
    exact .inr ⟨hr, by decide, hfinal hr (by rw [hlog]; decide) (by rw [hlog]; decide)⟩

theorem reach_of_ne {m : ℕ} (hm : m ≠ 2 ^ 52) : Span.reach (m == 2 ^ 52) = 1 / 2 :=
  if_neg fun h => hm (eq_of_beq h)

/-- **A number is rounded to a double nearest to it.** -/
theorem roundWithAccuracy_holds {m : ℕ} {e : ℤ} {accuracy : Accuracy} {v : ℚ} (hm : 52 ≤ m.log2)
    (he : -1074 ≤ e) (hv : Locates (.ofMantissaAndAccuracy m accuracy) v) (s : Sign) :
    ∃ (m' : ℕ) (e' : ℤ) (h : 0 < m'),
      roundWithAccuracy Format.binary64 s m e accuracy = .finite s m' e' h ∧
      (2 ^ 52 ≤ m' ∧ m' < 2 ^ 53) ∧ (e ≤ e' ∧ e' ≤ e + (m.log2 - 52 : ℕ) + 1) ∧
      (Span.around m' e' (m' == 2 ^ 52)).Holds (v * 2 ^ e) := by
  obtain ⟨⟨hleast, hgreatest⟩, hcases⟩ := roundWithAccuracy_cases hm he accuracy s
  have hcut := hv.shiftRight (m.log2 - 52)
  have hlow := hcut.low
  have hhigh := hcut.high
  obtain ⟨hbelow, habove, hodd⟩ := hcut.rounded
  have hbounds := roundedMantissa_bounds
    (ExtendedMantissa.ofMantissaAndAccuracy m accuracy >>> (m.log2 - 52))
  generalize hem : ExtendedMantissa.ofMantissaAndAccuracy m accuracy >>> (m.log2 - 52) = em at *
  generalize hj : m.log2 - 52 = j at *
  have hleast' : (2 : ℚ) ^ 52 ≤ em.mantissa := by exact_mod_cast hleast
  have hgreatest' : (em.mantissa : ℚ) + 1 ≤ 2 ^ 53 := by exact_mod_cast hgreatest
  generalize hr : em.roundedMantissa = r at *
  have hscale : v * 2 ^ e = v / 2 ^ j * 2 ^ (e + j) := by
    rw [zpow_add₀ two_ne_zero, zpow_natCast, mul_comm (2 ^ e), ← mul_assoc,
      div_mul_cancel₀ v (by positivity)]
  rw [hscale]
  generalize v / 2 ^ j = u at *
  rcases hcases with ⟨hlt, hpos, hresult⟩ | ⟨rfl, hpos, hresult⟩
  · refine ⟨r, e + j, hpos, hresult, ⟨by omega, hlt⟩, ⟨by omega, by omega⟩,
      (Span.holds_around hpos).mpr ?_⟩
    by_cases hedge : r = 2 ^ 52
    · -- Below the least mantissa the doubles are nearer, but the number is not below it.
      subst hedge
      norm_num [Span.reach] at habove ⊢
      constructor <;> linarith
    · rw [reach_of_ne hedge]
      split
      · exact ⟨hbelow, habove⟩
      · exact hodd (by omega)
  · have hhalf : u * 2 ^ (e + j : ℤ) = u / 2 * 2 ^ (e + j + 1 : ℤ) := by
      rw [zpow_add_one₀ two_ne_zero]
      ring
    refine ⟨2 ^ 52, e + j + 1, hpos, hresult, ⟨le_rfl, by decide⟩, ⟨by omega, by omega⟩, ?_⟩
    rw [hhalf, Span.holds_around hpos]
    norm_num [Span.reach] at hbelow hgreatest' ⊢
    constructor <;> linarith

/-! ### Whole numbers -/

/-- Noughts are cut off without a trace. -/
theorem shiftRight_noughts : ∀ m j : ℕ,
    (ExtendedMantissa.mk (m * 2 ^ j) false false) >>> j = ⟨m, false, false⟩
  | m, 0 => by
    rw [pow_zero, mul_one]
    rfl
  | m, j + 1 => by
    have hpow : m * 2 ^ (j + 1) = m * 2 * 2 ^ j := by rw [pow_succ', mul_assoc]
    have hlast : (ExtendedMantissa.mk (m * 2 ^ (j + 1)) false false) >>> (j + 1) =
        ((ExtendedMantissa.mk (m * 2 ^ (j + 1)) false false) >>> j).shiftRightOne := rfl
    rw [hlast, hpow, shiftRight_noughts (m * 2) j]
    simp [ExtendedMantissa.shiftRightOne]

/-- A mantissa with noughts behind it is cut down to what it was. -/
theorem roundWithAccuracy_exact {m : ℕ} {e : ℤ} (h : IsNormal m e) (j : ℕ) (hj : -1074 ≤ e - j)
    (s : Sign) : roundWithAccuracy Format.binary64 s (m * 2 ^ j) (e - j) .exact =
      .finite s m e h.pos := by
  have hlow := h.low
  have hhigh := h.high
  have hlog : (m * 2 ^ j).log2 = 52 + j := by
    refine (Nat.log2_eq_iff (Nat.mul_pos h.pos (by positivity)).ne').mpr ⟨?_, ?_⟩
    · rw [pow_add]
      exact Nat.mul_le_mul_right _ hlow
    · rw [add_right_comm, pow_add]
      exact Nat.mul_lt_mul_of_pos_right hhigh (by positivity)
  have hj' : (m * 2 ^ j).log2 - 52 = j := by omega
  have hcut : ExtendedMantissa.ofMantissaAndAccuracy (m * 2 ^ j) .exact >>> j = ⟨m, false, false⟩ :=
    shiftRight_noughts m j
  have hrounded : (ExtendedMantissa.mk m false false).roundedMantissa = m := rfl
  obtain ⟨-, hcases⟩ := roundWithAccuracy_cases (m := m * 2 ^ j) (by omega) hj .exact s
  rw [hj', hcut, hrounded, sub_add_cancel] at hcases
  rcases hcases with ⟨-, hpos, hresult⟩ | ⟨hr, -⟩
  · exact hresult
  · omega

/-- The mantissa of a whole number. -/
def wholeMantissa (n : ℕ) : ℕ := n * 2 ^ (52 - n.log2)

/-- Its exponent. -/
def wholeExponent (n : ℕ) : ℤ := n.log2 - 52

theorem isNormal_whole {n : ℕ} (hn : 0 < n) (hlt : n < 2 ^ 53) :
    IsNormal (wholeMantissa n) (wholeExponent n) := by
  have hlog : n.log2 < 53 := (Nat.log2_lt hn.ne').mpr hlt
  have hsplit : n.log2 + (52 - n.log2) = 52 := by omega
  constructor
  · rw [wholeMantissa, ← hsplit, pow_add]
    simp only [hsplit]
    exact Nat.mul_le_mul_right _ (Nat.log2_self_le hn.ne')
  · have hself := Nat.lt_log2_self (n := n)
    rw [wholeMantissa, show 53 = n.log2 + 1 + (52 - n.log2) by omega, pow_add]
    exact Nat.mul_lt_mul_of_pos_right hself (by positivity)
  · unfold wholeExponent
    omega
  · unfold wholeExponent
    omega

theorem whole_value {n : ℕ} (hn : 0 < n) (hlt : n < 2 ^ 53) :
    (wholeMantissa n : ℚ) * 2 ^ wholeExponent n = n := by
  have hlog : n.log2 < 53 := (Nat.log2_lt hn.ne').mpr hlt
  have hcancel : ((52 - n.log2 : ℕ) : ℤ) + wholeExponent n = 0 := by
    unfold wholeExponent
    omega
  rw [wholeMantissa, Nat.cast_mul, Nat.cast_pow, mul_assoc, ← zpow_natCast, Nat.cast_two,
    ← zpow_add₀ two_ne_zero, hcancel, zpow_zero, mul_one]

/-- A whole number is brought to the form of a normal double. -/
theorem ofUInt64_eq {n : ℕ} (hn : 0 < n) (hlt : n < 2 ^ 53) :
    UnpackedFloat.ofUInt64 Format.binary64 n.toUInt64 =
      .finite .positive (wholeMantissa n) (wholeExponent n) (isNormal_whole hn hlt).pos := by
  have hlog : n.log2 < 53 := (Nat.log2_lt hn.ne').mpr hlt
  have hnat : n.toUInt64.toNat = n := UInt64.toNat_ofNat_of_lt (hlt.trans (by decide))
  have hcompare : compare (n : ℤ) 0 = .gt := by
    rw [compare_gt_iff_gt]
    exact_mod_cast hn
  have htarget : Format.binary64.targetExponent (totalExponent n 0) = wholeExponent n := by
    simp only [Format.targetExponent, totalExponent, Format.mantissaBits, Format.minExponent,
      wholeExponent]
    norm_num
    omega
  have hshift : (0 - wholeExponent n).toNat = 52 - n.log2 := by
    unfold wholeExponent
    omega
  have hexponent : (0 : ℤ) - (52 - n.log2 : ℕ) = wholeExponent n := by
    unfold wholeExponent
    omega
  have hexact := roundWithAccuracy_exact (isNormal_whole hn hlt) 0
    (by simpa using (isNormal_whole hn hlt).least) .positive
  rw [pow_zero, mul_one, Nat.cast_zero, sub_zero] at hexact
  rw [UnpackedFloat.ofUInt64, hnat, UnpackedFloat.ofNat, UnpackedFloat.ofInt,
    UnpackedFloat.normalize, hcompare]
  simp only [Int.toNat_natCast, UnpackedFloat.round, htarget, decreaseExponent, hshift, hexponent,
    Nat.shiftLeft_eq]
  exact hexact

theorem isNormal_one : IsNormal (2 ^ 52) (-52) := ⟨le_rfl, by decide, by decide, by decide⟩

theorem ofBits_one : Float.ofBits 0x3FF0000000000000 =
    Float.ofModel (Float.Model.pack (.finite .positive (2 ^ 52) (-52) isNormal_one.pos)) := by
  decide +kernel

/-- The double of a whole number. -/
theorem ofNat_eq {n : ℕ} (hn : 0 < n) (hlt : n < 2 ^ 53) : Float.ofNat n =
    Float.ofModel (Float.Model.pack
      (.finite .positive (wholeMantissa n) (wholeExponent n) (isNormal_whole hn hlt).pos)) := by
  have hnormal := isNormal_whole hn hlt
  have hwhole : n.toUInt64.toFloat = Float.ofModel (Float.Model.pack
      (.finite .positive (wholeMantissa n) (wholeExponent n) hnormal.pos)) := by
    rw [← ofUInt64_eq hn hlt]
    rfl
  have hproduct : Float.ofNat n = n.toUInt64.toFloat * Float.ofBits 0x3FF0000000000000 :=
    dif_pos ⟨hlt, by decide⟩
  have hexact := roundWithAccuracy_exact hnormal 52
    (by have hleast : -52 ≤ wholeExponent n := by { unfold wholeExponent; omega }
        omega) .positive
  rw [hproduct, hwhole, ofBits_one]
  change Float.ofModel (Float.Model.pack (UnpackedFloat.mul Format.binary64
    (Float.Model.pack (.finite .positive (wholeMantissa n) (wholeExponent n) hnormal.pos)).unpack
    (Float.Model.pack (.finite .positive (2 ^ 52) (-52) isNormal_one.pos)).unpack)) = _
  rw [hnormal.unpack_pack, isNormal_one.unpack_pack]
  exact congrArg (fun u => Float.ofModel (Float.Model.pack u)) hexact

/-- The sign of a whole number. -/
def signOf (n : ℤ) : Sign := if n < 0 then .negative else .positive

theorem neg_pack {m : ℕ} {e : ℤ} (h : IsNormal m e) (s : Sign) :
    -Float.ofModel (Float.Model.pack (.finite s m e h.pos)) =
      Float.ofModel (Float.Model.pack (.finite (-s) m e h.pos)) :=
  congrArg (fun u => Float.ofModel (Float.Model.pack (UnpackedFloat.neg u))) (h.unpack_pack s)

/-- The double of a whole number has the bits of that of its magnitude, but for the sign. -/
theorem ofInt_of_ofNat {n : ℤ} {m : ℕ} {e : ℤ} (h : IsNormal m e)
    (hmagnitude : Float.ofNat n.natAbs =
      Float.ofModel (Float.Model.pack (.finite .positive m e h.pos))) :
    Float.ofInt n = Float.ofModel (Float.Model.pack (.finite (signOf n) m e h.pos)) := by
  cases n with
  | ofNat n => exact hmagnitude
  | negSucc n =>
    have hneg : Float.ofInt (.negSucc n) = -Float.ofNat (Int.negSucc n).natAbs := rfl
    have hsign : signOf (.negSucc n) = -.positive := if_pos (Int.negSucc_lt_zero n)
    rw [hneg, hsign, hmagnitude, neg_pack h]

/-- **The double of a whole number** that is not too great is this number. -/
theorem ofInt_eq {n : ℤ} (hn : 0 < n.natAbs) (hlt : n.natAbs < 2 ^ 53) : Float.ofInt n =
    Float.ofModel (Float.Model.pack (.finite (signOf n) (wholeMantissa n.natAbs)
      (wholeExponent n.natAbs) (isNormal_whole hn hlt).pos)) :=
  ofInt_of_ofNat (isNormal_whole hn hlt) (ofNat_eq hn hlt)

/-- A great whole number is rounded. -/
theorem ofNat_great {n : ℕ} (hn : 2 ^ 53 ≤ n) :
    Float.ofNat n = Float.ofModel (Float.Model.pack
      (roundWithAccuracy Format.binary64 .positive (n * 2 ^ 53) (-53) .exact)) := by
  have hslow : Float.ofNat n =
      Float.ofModel (Float.Model.pack (UnpackedFloat.ofScientific Format.binary64 n 0)) :=
    dif_neg fun h => absurd h.1 (Nat.not_lt.mpr hn)
  rw [hslow, UnpackedFloat.ofScientific]
  have hlow : ¬(0 : ℤ) < -((2 : ℤ) ^ Format.binary64.exponentBits + n.log2) := by
    simp
  have hsign : Sign.positive * Sign.positive = Sign.positive := rfl
  rw [dif_neg (by omega), if_neg (by simp), if_neg hlow, if_pos le_rfl]
  simp [UnpackedFloat.mul, Nat.shiftLeft_eq, Format.mantissaBits, hsign]

/-- **The double of a whole number that is a double** is this number. -/
theorem ofNat_exact {m n : ℕ} {e : ℤ} (h : IsNormal m e)
    (hn : 0 ≤ e ∧ n = m * 2 ^ e.toNat ∨ e < 0 ∧ n * 2 ^ (-e).toNat = m) :
    Float.ofNat n = Float.ofModel (Float.Model.pack (.finite .positive m e h.pos)) := by
  have hlow := h.low
  have hhigh := h.high
  by_cases hgreat : 2 ^ 53 ≤ n
  · -- Below `2 ^ 53` are all with a negative exponent, so this one has none.
    obtain ⟨he, rfl⟩ | ⟨-, hn⟩ := hn
    · obtain ⟨j, rfl⟩ := Int.eq_ofNat_of_zero_le he
      have hexact := roundWithAccuracy_exact h (j + 53) (by omega) .positive
      rw [ofNat_great hgreat, ← hexact, Int.toNat_natCast, mul_assoc, ← pow_add]
      congr 3
      omega
    · have hle : n ≤ n * 2 ^ (-e).toNat := Nat.le_mul_of_pos_right n (by positivity)
      omega
  · obtain ⟨i, rfl, rfl⟩ : ∃ i : ℕ, e = -i ∧ n * 2 ^ i = m := by
      obtain ⟨he, rfl⟩ | ⟨he, hn⟩ := hn
      · obtain ⟨j, rfl⟩ := Int.eq_ofNat_of_zero_le he
        rcases Nat.eq_zero_or_pos j with rfl | hj
        · exact ⟨0, by simp, by simp⟩
        · have hle : m * 2 ^ 1 ≤ m * 2 ^ j :=
            Nat.mul_le_mul_left m (Nat.pow_le_pow_right two_pos hj)
          rw [Int.toNat_natCast] at hgreat
          omega
      · exact ⟨(-e).toNat, by omega, hn⟩
    have hpos : 0 < n := Nat.pos_of_mul_pos_right h.pos
    have hlog : n.log2 + i = 52 := by
      rw [← h.log2, eq_comm, Nat.log2_eq_iff h.pos.ne', add_right_comm, pow_add, pow_add]
      exact ⟨Nat.mul_le_mul_right _ (Nat.log2_self_le hpos.ne'),
        Nat.mul_lt_mul_of_pos_right Nat.lt_log2_self (by positivity)⟩
    obtain rfl : 52 - n.log2 = i := by omega
    have hexponent : wholeExponent n = -(52 - n.log2 : ℕ) := by
      unfold wholeExponent
      omega
    simp only [← hexponent]
    exact ofNat_eq hpos (Nat.not_le.mp hgreat)

/-- The double of a whole number is normal. -/
theorem ofNat_isNormal {n : ℕ} (hn : 0 < n) (hlt : n < 2 ^ 64) : ∃ (m : ℕ) (e : ℤ)
    (h : IsNormal m e),
    Float.ofNat n = Float.ofModel (Float.Model.pack (.finite .positive m e h.pos)) := by
  by_cases hgreat : 2 ^ 53 ≤ n
  · have hne : n * 2 ^ 53 ≠ 0 := by omega
    have hlog : 52 ≤ (n * 2 ^ 53).log2 := (Nat.le_log2 hne).mpr (by omega)
    have hlog' : (n * 2 ^ 53).log2 < 117 := (Nat.log2_lt hne).mpr (by omega)
    obtain ⟨⟨hleast, -⟩, hcases⟩ := roundWithAccuracy_cases hlog (by decide : -1074 ≤ -53) .exact
      .positive
    have hrounded := (roundedMantissa_bounds (ExtendedMantissa.ofMantissaAndAccuracy
      (n * 2 ^ 53) .exact >>> ((n * 2 ^ 53).log2 - 52))).1
    rw [ofNat_great hgreat]
    rcases hcases with ⟨hbelow, hpos, hresult⟩ | ⟨-, hpos, hresult⟩
    · exact ⟨_, -53 + ((n * 2 ^ 53).log2 - 52 : ℕ),
        ⟨hleast.trans hrounded, hbelow, by omega, by omega⟩, by rw [hresult]⟩
    · exact ⟨2 ^ 52, -53 + ((n * 2 ^ 53).log2 - 52 : ℕ) + 1,
        ⟨le_rfl, by decide, by omega, by omega⟩, by rw [hresult]⟩
  · exact ⟨_, _, isNormal_whole hn (Nat.not_le.mp hgreat), ofNat_eq hn (Nat.not_le.mp hgreat)⟩

/-! ### Order -/

/-- How two doubles compare, said the other way round. -/
theorem compare_swap (a b : UnpackedFloat) : b.compare a = (a.compare b).map Ordering.swap := by
  have hmagnitudes : ∀ (m₁ m₂ : ℕ) (e₁ e₂ : ℤ), (compare e₂ e₁).then (compare m₂ m₁) =
      ((compare e₁ e₂).then (compare m₁ m₂)).swap := fun m₁ m₂ e₁ e₂ => by
    rw [Ordering.swap_then, Int.compare_swap, Nat.compare_swap]
  rcases a with ⟨_ | _⟩ | _ | ⟨_ | _⟩ | ⟨_ | _, m₁, e₁, -⟩ <;>
    rcases b with ⟨_ | _⟩ | _ | ⟨_ | _⟩ | ⟨_ | _, m₂, e₂, -⟩
  all_goals first
    | rfl
    | exact congrArg some (hmagnitudes m₁ m₂ e₁ e₂)
    | exact congrArg (fun o : Ordering => some o.swap) (hmagnitudes m₁ m₂ e₁ e₂)

theorem beq_iff {x y : Float} :
    (x == y) = true ↔ x.toModel.unpack.compare y.toModel.unpack = some .eq := by
  change UnpackedFloat.beq _ _ = true ↔ _
  rw [UnpackedFloat.beq, beq_iff_eq]

theorem lt_iff {x y : Float} :
    x < y ↔ x.toModel.unpack.compare y.toModel.unpack = some .lt := by
  change decide (x.toModel < y.toModel) = true ↔ _
  rw [decide_eq_true_eq]
  change UnpackedFloat.lt _ _ = true ↔ _
  rw [UnpackedFloat.lt, beq_iff_eq]

/-! ### Quotients -/

/-- Two bits say where a fraction behind a mantissa lies. -/
theorem locates_add {q : ℕ} {round sticky : Bool} {f : ℚ} (hnonneg : 0 ≤ f) (hlt : f < 1)
    (hround : round = true ↔ 1 / 2 ≤ f) (hsticky : sticky = false ↔ f = 0 ∨ f = 1 / 2) :
    Locates ⟨q, round, sticky⟩ (q + f) := by
  constructor
  · exact le_add_of_nonneg_right hnonneg
  · exact (add_lt_add_iff_left _).mpr hlt
  · exact hround.trans (add_le_add_iff_left _).symm
  · rw [add_eq_left, add_right_inj]
    exact hsticky

/-- A quotient with a remainder says where the exact quotient lies. -/
theorem locates_quotient (a : ℕ) {b : ℕ} (hb : 0 < b) :
    Locates (.ofMantissaAndAccuracy (a / b) (accuracyOfFraction (a % b) b)) ((a : ℚ) / b) := by
  have hbq : (0 : ℚ) < b := by exact_mod_cast hb
  have hrest : (a : ℚ) = (a / b : ℕ) * b + (a % b : ℕ) := by
    exact_mod_cast (Nat.div_add_mod' a b).symm
  have hquotient : (a : ℚ) / b = (a / b : ℕ) + (a % b : ℕ) / b := by
    rw [div_eq_iff hbq.ne', add_mul, div_mul_cancel₀ _ hbq.ne']
    exact hrest
  have hlt : ((a % b : ℕ) : ℚ) / b < 1 :=
    (div_lt_one hbq).mpr (by exact_mod_cast Nat.mod_lt a hb)
  rw [hquotient]
  generalize a / b = q
  generalize a % b = r at *
  have hhalf : (r : ℚ) / b = (2 * r : ℕ) / b / 2 := by
    push_cast
    ring
  unfold accuracyOfFraction
  split
  · next hr =>
    subst hr
    rw [Nat.cast_zero, zero_div]
    exact locates_add le_rfl one_pos (by norm_num) (by simp)
  · next hr =>
    have hpos : 0 < (r : ℚ) / b := div_pos (by exact_mod_cast Nat.pos_of_ne_zero hr) hbq
    cases hcompare : compare (2 * r) b with
    | lt =>
      have hbelow : ((2 * r : ℕ) : ℚ) / b < 1 :=
        (div_lt_one hbq).mpr (by exact_mod_cast Nat.compare_eq_lt.mp hcompare)
      exact locates_add hpos.le hlt ⟨nofun, fun hle => by linarith⟩
        ⟨nofun, by rintro (hf | hf) <;> linarith⟩
    | eq =>
      have hmiddle : ((2 * r : ℕ) : ℚ) / b = 1 :=
        (div_eq_one_iff_eq hbq.ne').mpr (by exact_mod_cast Nat.compare_eq_eq.mp hcompare)
      exact locates_add hpos.le hlt ⟨fun _ => by linarith, fun _ => rfl⟩
        ⟨fun _ => .inr (by linarith), fun _ => rfl⟩
    | gt =>
      have habove : 1 < ((2 * r : ℕ) : ℚ) / b :=
        (one_lt_div hbq).mpr (by exact_mod_cast Nat.compare_eq_gt.mp hcompare)
      exact locates_add hpos.le hlt ⟨fun _ => by linarith, fun _ => rfl⟩
        ⟨nofun, by rintro (hf | hf) <;> linarith⟩

section

variable {m₁ m₂ : ℕ} {e₁ e₂ : ℤ}

/-- The quotient of two mantissas has enough bits, one of which may be too many. -/
theorem quotient_bounds (h₁ : IsNormal m₁ e₁) (h₂ : IsNormal m₂ e₂) :
    2 ^ 52 ≤ m₁ * 2 ^ 53 / m₂ ∧ m₁ * 2 ^ 53 / m₂ < 2 ^ 54 := by
  have hlow₁ := h₁.low
  have hhigh₁ := h₁.high
  have hlow₂ := h₂.low
  have hhigh₂ := h₂.high
  rw [Nat.le_div_iff_mul_le h₂.pos, Nat.div_lt_iff_lt_mul h₂.pos]
  constructor <;> omega

theorem divCore_eq (h₁ : IsNormal m₁ e₁) (h₂ : IsNormal m₂ e₂) (hleast : -1074 ≤ e₁ - e₂ - 53) :
    divCore Format.binary64 m₁ e₁ m₂ e₂ = (m₁ * 2 ^ 53 / m₂, e₁ - e₂ - 53,
      accuracyOfFraction (m₁ * 2 ^ 53 % m₂) m₂) := by
  have htarget : min (e₁ - e₂) (Format.binary64.targetExponent
      (totalExponent m₁ e₁ - totalExponent m₂ e₂)) = e₁ - e₂ - 53 := by
    simp only [Format.targetExponent, totalExponent, Format.mantissaBits, Format.minExponent,
      h₁.log2, h₂.log2]
    norm_num
    omega
  have hshift : (e₁ - e₂ - (e₁ - e₂ - 53)).toNat = 53 := by omega
  simp only [divCore, htarget, hshift, Nat.shiftLeft_eq]

/-- **The quotient of two doubles** is a double nearest to their exact quotient. -/
theorem ofFloat_div (h₁ : IsNormal m₁ e₁) (h₂ : IsNormal m₂ e₂) (hleast : -1074 < e₁ - e₂ - 53)
    (hgreatest : e₁ - e₂ - 51 ≤ 971) (s₁ s₂ : Sign) : ∃ m e,
      ofFloat (Float.ofModel (Float.Model.pack (.finite s₁ m₁ e₁ h₁.pos)) /
        Float.ofModel (Float.Model.pack (.finite s₂ m₂ e₂ h₂.pos))) =
          .finite (isMinus (s₁ / s₂)) m e (m == 2 ^ 52) ∧ 2 ^ 52 ≤ m ∧
      (Span.around m e (m == 2 ^ 52)).Holds (m₁ * 2 ^ e₁ / (m₂ * 2 ^ e₂)) := by
  obtain ⟨hlow, hhigh⟩ := quotient_bounds h₁ h₂
  have hne : m₁ * 2 ^ 53 / m₂ ≠ 0 := by omega
  have hlog : 52 ≤ (m₁ * 2 ^ 53 / m₂).log2 := (Nat.le_log2 hne).mpr hlow
  have hlog' : (m₁ * 2 ^ 53 / m₂).log2 < 54 := (Nat.log2_lt hne).mpr hhigh
  obtain ⟨m, e, hpos, hround, ⟨hlow', hhigh'⟩, ⟨hleast', hgreatest'⟩, hholds⟩ :=
    roundWithAccuracy_holds hlog hleast.le (locates_quotient (m₁ * 2 ^ 53) h₂.pos) (s₁ / s₂)
  have hnormal : IsNormal m e := ⟨hlow', hhigh', by omega, by omega⟩
  have hquotient : Float.ofModel (Float.Model.pack (.finite s₁ m₁ e₁ h₁.pos)) /
      Float.ofModel (Float.Model.pack (.finite s₂ m₂ e₂ h₂.pos)) =
        Float.ofModel (Float.Model.pack (.finite (s₁ / s₂) m e hpos)) := by
    change Float.ofModel (Float.Model.pack (UnpackedFloat.div Format.binary64
      (Float.Model.pack (.finite s₁ m₁ e₁ h₁.pos)).unpack
      (Float.Model.pack (.finite s₂ m₂ e₂ h₂.pos)).unpack)) = _
    rw [h₁.unpack_pack, h₂.unpack_pack, UnpackedFloat.div, divCore_eq h₁ h₂ hleast.le]
    exact congrArg (fun u => Float.ofModel (Float.Model.pack u)) hround
  refine ⟨m, e, ?_, hlow', ?_⟩
  · have habove : decide (-1074 < e) = true := decide_eq_true (by omega)
    rw [hquotient, ofFloat_pack hnormal, habove, Bool.and_true]
  · have hvalue : ((m₁ * 2 ^ 53 : ℕ) : ℚ) / m₂ * 2 ^ (e₁ - e₂ - 53) =
        m₁ * 2 ^ e₁ / (m₂ * 2 ^ e₂) := by
      have hm₂ : (m₂ : ℚ) ≠ 0 := by exact_mod_cast h₂.pos.ne'
      rw [zpow_sub₀ two_ne_zero, zpow_sub₀ two_ne_zero]
      push_cast
      field_simp
    rw [← hvalue]
    exact hholds

end

/-! ### Fractions in decimal -/

theorem isMinus_signOf (n : ℤ) : isMinus (signOf n / .positive) = decide (n < 0) := by
  unfold signOf
  by_cases hneg : n < 0
  · rw [if_pos hneg, decide_eq_true hneg]
    rfl
  · rw [if_neg hneg, decide_eq_false hneg]
    rfl

theorem wholeExponent_bounds {n : ℕ} (hn : 0 < n) (hlt : n < 2 ^ 53) :
    -52 ≤ wholeExponent n ∧ wholeExponent n ≤ 0 := by
  have hlog : n.log2 < 53 := (Nat.log2_lt hn.ne').mpr hlt
  unfold wholeExponent
  omega

theorem ofInt_zero : Float.ofInt 0 = Float.ofModel (Float.Model.pack (.zero .positive)) := by
  decide +kernel

theorem unpack_pack_zero : (Float.Model.pack (.zero .positive)).unpack = .zero .positive := rfl

theorem ofFloat_zero_div {n : ℕ} (hn : 0 < n) (hlt : n < 2 ^ 53) :
    ofFloat (Float.ofInt 0 / Float.ofNat n) = .finite false 0 (-1074) false := by
  have hquotient : Float.ofInt 0 / Float.ofNat n =
      Float.ofModel (Float.Model.pack (.zero .positive)) := by
    rw [ofInt_zero, ofNat_eq hn hlt]
    change Float.ofModel (Float.Model.pack (UnpackedFloat.div Format.binary64
      (Float.Model.pack (.zero .positive)).unpack (Float.Model.pack _).unpack)) = _
    rw [unpack_pack_zero, (isNormal_whole hn hlt).unpack_pack]
    rfl
  rw [hquotient]
  decide +kernel

/-- The numbers that are rounded to a double are not much less than the least mantissa. -/
theorem le_sub_reach {m : ℕ} (hm : 2 ^ 52 ≤ m) :
    (2 : ℚ) ^ 52 - 1 / 4 ≤ m - Span.reach (m == 2 ^ 52) := by
  by_cases hedge : m = 2 ^ 52
  · subst hedge
    norm_num [Span.reach]
  · have habove : (2 : ℚ) ^ 52 + 1 ≤ m := by exact_mod_cast (by omega : 2 ^ 52 + 1 ≤ m)
    rw [reach_of_ne hedge]
    linarith

/-- A number below a mantissa, in units of its last place. -/
theorem add_one_mul_le {n d : ℕ} (hdlt : d.log2 < 53) (hlt : n < wholeMantissa d) :
    ((n : ℚ) + 1) * 2 ^ d.log2 ≤ d * 2 ^ 52 := by
  have hsplit : 52 = 52 - d.log2 + d.log2 := by omega
  have hnat : (n + 1) * 2 ^ d.log2 ≤ d * 2 ^ 52 := by
    rw [hsplit, pow_add, ← mul_assoc]
    exact Nat.mul_le_mul_right _ hlt
  exact_mod_cast hnat

/-- A double near a fraction whose numerator is below the mantissa of the denominator has a last
place that is smaller than the fraction. -/
theorem exponent_lt {n d m : ℕ} {e : ℤ} (hd : 0 < d) (hdlt : d < 2 ^ 53)
    (hlt : n < wholeMantissa d) (hm : 2 ^ 52 ≤ m)
    (hholds : (Span.around m e (m == 2 ^ 52)).Holds ((n : ℚ) / d)) : (2 : ℚ) ^ e < 1 / d := by
  have hdq : (0 : ℚ) < d := by exact_mod_cast hd
  have hpos : 0 < m := Nat.lt_of_lt_of_le (by decide) hm
  have hlog : d.log2 < 53 := (Nat.log2_lt hd.ne').mpr hdlt
  have hbinade : (d : ℚ) < 2 * 2 ^ d.log2 := by
    rw [← pow_succ']
    exact_mod_cast Nat.lt_log2_self
  have hlow := le_sub_reach hm
  have hexponent : e < -d.log2 := by
    by_contra hge
    have hp : (0 : ℚ) < 2 ^ d.log2 := by positivity
    have hpower : ((2 : ℚ) ^ d.log2)⁻¹ ≤ 2 ^ e := by
      rw [← zpow_natCast, ← zpow_neg]
      exact zpow_le_zpow_right₀ one_le_two (not_lt.mp hge)
    have hquotient : ((2 : ℚ) ^ 52 - 1 / 4) / 2 ^ d.log2 ≤ n / d :=
      (mul_le_mul hlow hpower (by positivity) (le_trans (by norm_num) hlow)).trans
        (hholds.around_le hpos)
    have hnumerator : ((2 : ℚ) ^ 52 - 1 / 4) * d ≤ n * 2 ^ d.log2 :=
      (div_le_div_iff₀ hp hdq).mp hquotient
    have hbelow := add_one_mul_le hlog hlt
    linarith
  have hlast : (2 : ℚ) ^ e ≤ 2 ^ (-(d.log2 + 1 : ℕ) : ℤ) :=
    zpow_le_zpow_right₀ one_le_two (by omega)
  refine hlast.trans_lt ?_
  rw [zpow_neg, zpow_natCast, ← one_div, pow_succ']
  exact one_div_lt_one_div_of_lt hdq hbinade

/-- **A fraction of a power of ten is its shortest decimal**, if its numerator is not too great. -/
theorem shortest_quotient {n : ℤ} {k : ℕ} (tie : Tie) (hk : 10 ^ k < 2 ^ 53) (hn : 0 < n.natAbs)
    (hlt : n.natAbs < wholeMantissa (10 ^ k)) : ∃ m e narrow, 0 < m ∧
      ofFloat (Float.ofInt n / Float.ofNat (10 ^ k)) = .finite (decide (n < 0)) m e narrow ∧
      ((Span.around m e narrow).shortest tie).value = n.natAbs * 10 ^ (-k : ℤ) := by
  have hten : 0 < 10 ^ k := by positivity
  have hnlt : n.natAbs < 2 ^ 53 := hlt.trans (isNormal_whole hten hk).high
  have hbounds₁ := wholeExponent_bounds hn hnlt
  have hbounds₂ := wholeExponent_bounds hten hk
  obtain ⟨m, e, hfloat, hlow, hholds⟩ := ofFloat_div (isNormal_whole hn hnlt)
    (isNormal_whole hten hk) (by omega) (by omega) (signOf n) .positive
  have hpos : 0 < m := Nat.lt_of_lt_of_le (by decide) hlow
  rw [whole_value hn hnlt, whole_value hten hk] at hholds
  have hlast := exponent_lt hten hk hlt hlow hholds
  have hdecimal : (n.natAbs : ℚ) / (10 ^ k : ℕ) = n.natAbs * 10 ^ (-k : ℤ) := by
    rw [zpow_neg, zpow_natCast, div_eq_mul_inv]
    push_cast
    rfl
  have hvalue := Span.value_around_bounds hpos e (m == 2 ^ 52)
  refine ⟨m, e, m == 2 ^ 52, hpos, ?_, ?_⟩
  · rw [ofInt_eq hn hnlt, ofNat_eq hten hk, hfloat, isMinus_signOf]
  · rw [hdecimal] at hholds
    refine Span.value_shortest hvalue.1 hvalue.2 hn hholds
      ((Span.width_around_le hpos).trans_lt (hlast.trans_le ?_))
    rw [zpow_neg, zpow_natCast, one_div]
    push_cast
    rfl

/-- **A whole number that was divided by a power of ten** is read as their exact quotient, if it is
not too great. -/
theorem readDecimal_quotient {l : Layout} (hplain : ∀ p, l.isPlain p = true) {n : ℤ} {k : ℕ}
    (hk : 10 ^ k < 2 ^ 53) (hlt : n.natAbs < wholeMantissa (10 ^ k)) :
    ∃ x, readDecimal (l.write (ofFloat (Float.ofInt n / Float.ofNat (10 ^ k)))).toList = some x ∧
      x.value = n / 10 ^ k := by
  rcases Nat.eq_zero_or_pos n.natAbs with hzero | hpos
  · obtain rfl := Int.natAbs_eq_zero.mp hzero
    rw [ofFloat_zero_div (by positivity) hk]
    obtain ⟨x, hread, hvalue⟩ := readDecimal_write_nought l false (-1074) false
    exact ⟨x, hread, by rw [hvalue, Int.cast_zero, zero_div]⟩
  · obtain ⟨m, e, narrow, hm, hfloat, hshortest⟩ := shortest_quotient l.tie hk hpos hlt
    obtain ⟨x, hread, hvalue⟩ := readDecimal_write hplain (decide (n < 0)) hm e narrow
    have hinteger := value_integer n
    rw [Scientific.value, zpow_zero, mul_one] at hinteger
    refine ⟨x, hfloat ▸ hread, ?_⟩
    rw [hvalue, hshortest, ← mul_assoc, hinteger, zpow_neg, zpow_natCast, div_eq_mul_inv]

end SqlRecords.Decimal
