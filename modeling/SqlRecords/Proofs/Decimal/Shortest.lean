import Mathlib.Algebra.Order.Field.Power
import Mathlib.Data.Rat.Lemmas
import Mathlib.Tactic.Linarith
import Mathlib.Tactic.Positivity
import Mathlib.Tactic.Ring
import SqlRecords.Decimal.Shortest

/-!
# Which decimal is the shortest

The interval around a binary number may hold a decimal that is known to be in it, because the
number was rounded from it. If the grid of that decimal has wider steps than the interval, no other
decimal of this grid is in the interval, and none of a coarser grid, whose points are points of this
one. The search for the shortest decimal then ends with the decimal that is known.

## What is proved

* `Span.holds_iff`: the interval in whole numbers is the interval in rational ones.
* `Span.holds_of_onGrid`, `Span.onGrid_ne_none`: a grid has a point in the interval exactly if one
  of the two neighbours of the number is in it.
* **`Span.value_shortest`**: a decimal in the interval is the shortest one if its grid is wide.
-/

namespace SqlRecords.Decimal

/-- The number that a decimal stands for. -/
def Scaled.value (x : Scaled) : ℚ := x.digits * 10 ^ x.exponent

namespace Span

/-- The interval holds a number. -/
def Holds (s : Span) (q : ℚ) : Prop :=
  if s.closed then s.low * 2 ^ s.exponent ≤ q ∧ q ≤ s.high * 2 ^ s.exponent
  else s.low * 2 ^ s.exponent < q ∧ q < s.high * 2 ^ s.exponent

variable {s : Span} {tie : Tie} {p q r : ℚ} {k : ℤ} {x y : ℕ}

theorem Holds.low_le (h : s.Holds q) : s.low * 2 ^ s.exponent ≤ q := by
  unfold Holds at h
  split at h
  · exact h.1
  · exact h.1.le

theorem Holds.le_high (h : s.Holds q) : q ≤ s.high * 2 ^ s.exponent := by
  unfold Holds at h
  split at h
  · exact h.2
  · exact h.2.le

/-- What is between two numbers of the interval is in it, too. -/
theorem Holds.between (hp : s.Holds p) (hr : s.Holds r) (hpq : p ≤ q) (hqr : q ≤ r) :
    s.Holds q := by
  by_cases hclosed : s.closed = true
  · simp only [Holds, if_pos hclosed] at hp hr ⊢
    exact ⟨hp.1.trans hpq, hqr.trans hr.2⟩
  · simp only [Holds, if_neg hclosed] at hp hr ⊢
    exact ⟨hp.1.trans_le hpq, hqr.trans_lt hr.2⟩

/-- The number itself is in its interval. -/
theorem holds_value (hlow : s.low < s.value) (hhigh : s.value < s.high) :
    s.Holds (s.value * 2 ^ s.exponent) := by
  have hpos : (0 : ℚ) < 2 ^ s.exponent := by positivity
  have hl : (s.low : ℚ) * 2 ^ s.exponent < s.value * 2 ^ s.exponent :=
    mul_lt_mul_of_pos_right (by exact_mod_cast hlow) hpos
  have hh : (s.value : ℚ) * 2 ^ s.exponent < s.high * 2 ^ s.exponent :=
    mul_lt_mul_of_pos_right (by exact_mod_cast hhigh) hpos
  unfold Holds
  split
  · exact ⟨hl.le, hh.le⟩
  · exact ⟨hl, hh⟩

/-! ### Grids -/

/-- How often the interval is stretched when it is laid on a grid. -/
def stretch (s : Span) (k : ℤ) : ℕ := 2 ^ s.exponent.toNat * 10 ^ (-k).toNat

/-- How wide the steps of a grid are then. -/
def step (s : Span) (k : ℤ) : ℕ := 2 ^ (-s.exponent).toNat * 10 ^ k.toNat

/-- The power that takes the denominators away. -/
def common (s : Span) (k : ℤ) : ℚ := 2 ^ (-s.exponent).toNat * 10 ^ (-k).toNat

theorem common_pos (s : Span) (k : ℤ) : 0 < s.common k := by
  unfold common
  positivity

theorem step_pos (s : Span) (k : ℤ) : 0 < s.step k := by
  unfold step
  positivity

/-- A power of an integer, as a quotient of two natural powers. -/
theorem zpow_mul_pow_toNat {b : ℚ} (hb : b ≠ 0) (e : ℤ) : b ^ e * b ^ (-e).toNat = b ^ e.toNat := by
  have he : e + (-e).toNat = e.toNat := by omega
  rw [← zpow_natCast, ← zpow_natCast, ← zpow_add₀ hb, he]

theorem cast_stretch (s : Span) (k : ℤ) : (s.stretch k : ℚ) = 2 ^ s.exponent * s.common k := by
  rw [stretch, common, ← mul_assoc, zpow_mul_pow_toNat two_ne_zero]
  push_cast
  rfl

theorem cast_step (s : Span) (k : ℤ) : (s.step k : ℚ) = 10 ^ k * s.common k := by
  rw [step, common, mul_left_comm, zpow_mul_pow_toNat (by norm_num)]
  push_cast
  rfl

/-- Stretched, a number and a point of a grid lie as they lay before. -/
theorem stretched_le_iff {m : ℕ} :
    m * s.stretch k ≤ x * s.step k ↔ (m : ℚ) * 2 ^ s.exponent ≤ x * 10 ^ k := by
  rw [← Nat.cast_le (α := ℚ)]
  push_cast
  rw [cast_stretch, cast_step, ← mul_assoc, ← mul_assoc]
  exact mul_le_mul_iff_left₀ (s.common_pos k)

theorem le_stretched_iff {m : ℕ} :
    x * s.step k ≤ m * s.stretch k ↔ (x : ℚ) * 10 ^ k ≤ m * 2 ^ s.exponent := by
  rw [← Nat.cast_le (α := ℚ)]
  push_cast
  rw [cast_stretch, cast_step, ← mul_assoc, ← mul_assoc]
  exact mul_le_mul_iff_left₀ (s.common_pos k)

/-- The interval holds a point of a grid. -/
theorem holds_iff : s.holds (s.stretch k) (s.step k) x = true ↔ s.Holds (x * 10 ^ k) := by
  unfold holds Holds
  split
  · simp only [Bool.and_eq_true, decide_eq_true_eq, stretched_le_iff, le_stretched_iff]
  · simp only [Bool.and_eq_true, decide_eq_true_eq, ← not_le, stretched_le_iff, le_stretched_iff]

/-- The point of a grid below the number, or at it. -/
def pointBelow (s : Span) (k : ℤ) : ℕ := s.value * s.stretch k / s.step k

theorem pointBelow_le (s : Span) (k : ℤ) :
    (s.pointBelow k : ℚ) * 10 ^ k ≤ s.value * 2 ^ s.exponent :=
  le_stretched_iff.mp (Nat.div_mul_le_self _ _)

theorem le_pointBelow_add_one (s : Span) (k : ℤ) :
    (s.value : ℚ) * 2 ^ s.exponent ≤ (s.pointBelow k + 1 : ℕ) * 10 ^ k := by
  refine stretched_le_iff.mp (Nat.le_of_lt ?_)
  exact Nat.lt_mul_of_div_lt (Nat.lt_succ_self _) (s.step_pos k)

theorem onGrid_eq (s : Span) (tie : Tie) (k : ℤ) : s.onGrid tie k =
    match s.holds (s.stretch k) (s.step k) (s.pointBelow k),
      s.holds (s.stretch k) (s.step k) (s.pointBelow k + 1) with
    | false, false => none
    | true, false => some (s.pointBelow k)
    | false, true => some (s.pointBelow k + 1)
    | true, true =>
      let under := s.value * s.stretch k - s.pointBelow k * s.step k
      let above := (s.pointBelow k + 1) * s.step k - s.value * s.stretch k
      if under < above then some (s.pointBelow k)
      else if above < under then some (s.pointBelow k + 1)
      else
        match tie with
        | .up => some (s.pointBelow k + 1)
        | .even => some (s.pointBelow k + s.pointBelow k % 2) := rfl

/-- **A point that is found** is in the interval. -/
theorem holds_of_onGrid (h : s.onGrid tie k = some x) : s.Holds (x * 10 ^ k) := by
  have hfound : x = s.pointBelow k ∧ s.holds (s.stretch k) (s.step k) (s.pointBelow k) = true ∨
      x = s.pointBelow k + 1 ∧ s.holds (s.stretch k) (s.step k) (s.pointBelow k + 1) = true := by
    rw [onGrid_eq] at h
    split at h
    · cases h
    · next hbelow _ => exact .inl ⟨(Option.some.inj h).symm, hbelow⟩
    · next _ habove => exact .inr ⟨(Option.some.inj h).symm, habove⟩
    · next hbelow habove =>
      simp only at h
      split_ifs at h
      · exact .inl ⟨(Option.some.inj h).symm, hbelow⟩
      · exact .inr ⟨(Option.some.inj h).symm, habove⟩
      · cases tie with
        | up => exact .inr ⟨(Option.some.inj h).symm, habove⟩
        | even =>
          have hx := Option.some.inj h
          rcases Nat.mod_two_eq_zero_or_one (s.pointBelow k) with heven | hodd
          · exact .inl ⟨by omega, hbelow⟩
          · exact .inr ⟨by omega, habove⟩
  rcases hfound with ⟨rfl, hx⟩ | ⟨rfl, hx⟩
  · exact holds_iff.mp hx
  · exact holds_iff.mp hx

/-- **A point is found** if there is one. -/
theorem onGrid_ne_none (hlow : s.low < s.value) (hhigh : s.value < s.high)
    (h : s.Holds (x * 10 ^ k)) : s.onGrid tie k ≠ none := by
  have hvalue := holds_value hlow hhigh
  have hneighbour : s.holds (s.stretch k) (s.step k) (s.pointBelow k) = true ∨
      s.holds (s.stretch k) (s.step k) (s.pointBelow k + 1) = true := by
    have hpos : (0 : ℚ) ≤ 10 ^ k := by positivity
    rcases Nat.lt_or_ge (s.pointBelow k) x with habove | hbelow
    · refine .inr (holds_iff.mpr (hvalue.between h (s.le_pointBelow_add_one k) ?_))
      exact mul_le_mul_of_nonneg_right (by exact_mod_cast habove) hpos
    · refine .inl (holds_iff.mpr (h.between hvalue ?_ (s.pointBelow_le k)))
      exact mul_le_mul_of_nonneg_right (by exact_mod_cast hbelow) hpos
  intro hnone
  rw [onGrid_eq] at hnone
  split at hnone
  · next hbelow habove =>
    rw [hbelow, habove] at hneighbour
    simp at hneighbour
  · cases hnone
  · cases hnone
  · simp only at hnone
    split_ifs at hnone
    cases tie <;> cases hnone

/-! ### The search -/

/-- The width of the interval. -/
def width (s : Span) : ℚ := (s.high - s.low) * 2 ^ s.exponent

/-- Of a grid whose steps are wider than the interval, it holds one point. -/
theorem Holds.point_unique {g : ℤ} (hx : s.Holds (x * 10 ^ g)) (hy : s.Holds (y * 10 ^ g))
    (hwidth : s.width < 10 ^ g) : x = y := by
  have hpos : (0 : ℚ) < 10 ^ g := by positivity
  have hnear {m n : ℕ} (hm : s.Holds (m * 10 ^ g)) (hn : s.Holds (n * 10 ^ g)) : m < n + 1 := by
    have hle : (m : ℚ) * 10 ^ g - n * 10 ^ g ≤ s.width := by
      have hhigh := hm.le_high
      have hlow := hn.low_le
      rw [width, sub_mul]
      linarith
    have hlt : (m : ℚ) * 10 ^ g < (n + 1) * 10 ^ g := by linarith
    exact_mod_cast lt_of_mul_lt_mul_right hlt hpos.le
  have hxy := hnear hx hy
  have hyx := hnear hy hx
  omega

/-- A point of a coarser grid is one of a finer grid. -/
theorem coarse_eq {g j : ℤ} (h : j ≤ g) (x : ℕ) :
    (x : ℚ) * 10 ^ g = (x * 10 ^ (g - j).toNat : ℕ) * 10 ^ j := by
  have hg : ((g - j).toNat : ℤ) + j = g := by omega
  push_cast
  rw [mul_assoc, ← zpow_natCast, ← zpow_add₀ (by norm_num : (10 : ℚ) ≠ 0), hg]

/-- **The search ends with the decimal that is known**, if it begins with a grid no finer than that
of this decimal. -/
theorem value_search {n : ℕ} {j : ℤ} (hlow : s.low < s.value) (hhigh : s.value < s.high)
    (hn : s.Holds (n * 10 ^ j)) (hwidth : s.width < 10 ^ j) (hfine : s.finest < j) :
    ∀ {steps : ℕ}, j ≤ s.finest + steps → (s.search tie steps).value = n * 10 ^ j
  | 0, hsteps => by omega
  | steps + 1, hsteps => by
    unfold search
    split
    · next digits hfound =>
      have hholds := holds_of_onGrid hfound
      rw [coarse_eq hsteps] at hholds
      rw [Scaled.value, coarse_eq hsteps, hholds.point_unique hn hwidth]
    · next hnone =>
      refine value_search hlow hhigh hn hwidth hfine ?_
      have hne : j ≠ s.finest + (steps + 1 : ℕ) := by
        rintro rfl
        exact onGrid_ne_none hlow hhigh hn hnone
      omega

/-- The interval ends below a power of two. -/
theorem high_lt (s : Span) :
    (s.high : ℚ) * 2 ^ s.exponent < 2 ^ ((s.high.log2 : ℤ) + 1 + s.exponent) := by
  have hpos : (0 : ℚ) < 2 ^ s.exponent := by positivity
  have hlog : (s.high : ℚ) < 2 ^ (s.high.log2 + 1) := by exact_mod_cast Nat.lt_log2_self
  rw [zpow_add₀ two_ne_zero]
  refine mul_lt_mul_of_pos_right ?_ hpos
  exact_mod_cast hlog

/-- The search begins with a grid no finer than any decimal in the interval has. -/
theorem le_coarsest {n k : ℕ} (hn : 0 < n) (h : s.Holds (n * 10 ^ (-k : ℤ))) :
    -(k : ℤ) ≤ s.coarsest := by
  have hten : (2 : ℚ) ^ (-(4 * k) : ℤ) ≤ 10 ^ (-k : ℤ) := by
    rw [zpow_neg, zpow_neg]
    refine inv_anti₀ (by positivity) ?_
    rw [show (4 * (k : ℤ)) = ((4 * k : ℕ) : ℤ) by push_cast; rfl, zpow_natCast, zpow_natCast,
      pow_mul]
    exact pow_le_pow_left₀ (by norm_num) (by norm_num) k
  have hone : (10 : ℚ) ^ (-k : ℤ) ≤ n * 10 ^ (-k : ℤ) :=
    le_mul_of_one_le_left (by positivity) (by exact_mod_cast hn)
  have hbits : -(4 * k : ℤ) < s.high.log2 + 1 + s.exponent :=
    (zpow_lt_zpow_iff_right₀ one_lt_two).mp
      (((hten.trans hone).trans h.le_high).trans_lt s.high_lt)
  unfold coarsest
  simp only
  split <;> omega

/-- An interval that is narrower than the steps of a grid has finer units. -/
theorem finest_lt {k : ℕ} (hlow : s.low < s.value) (hhigh : s.value < s.high)
    (hwidth : s.width < 10 ^ (-k : ℤ)) : s.finest < -k := by
  have hpos : (0 : ℚ) < 2 ^ s.exponent := by positivity
  have hten : (10 : ℚ) ^ (-k : ℤ) ≤ 2 ^ (-k : ℤ) := by
    rw [zpow_neg, zpow_neg, zpow_natCast, zpow_natCast]
    exact inv_anti₀ (by positivity) (pow_le_pow_left₀ (by norm_num) (by norm_num) k)
  have hunit : (2 : ℚ) ^ s.exponent ≤ s.width := by
    have hlt : (s.low : ℚ) + 1 ≤ s.high := by exact_mod_cast (by omega : s.low + 1 ≤ s.high)
    exact le_mul_of_one_le_left hpos.le (by linarith)
  have hexponent : s.exponent < -k :=
    (zpow_lt_zpow_iff_right₀ one_lt_two).mp ((hunit.trans_lt hwidth).trans_le hten)
  exact (min_le_left _ _).trans_lt hexponent

/-- **The shortest decimal** of an interval is the one that is known to be in it, if the grid of
that decimal has wider steps than the interval. -/
theorem value_shortest {n k : ℕ} (hlow : s.low < s.value) (hhigh : s.value < s.high) (hn : 0 < n)
    (h : s.Holds (n * 10 ^ (-k : ℤ))) (hwidth : s.width < 10 ^ (-k : ℤ)) :
    (s.shortest tie).value = n * 10 ^ (-k : ℤ) := by
  have hfine := finest_lt hlow hhigh hwidth
  have hcoarse := le_coarsest hn h
  exact value_search hlow hhigh h hwidth hfine (by omega)

/-! ### The interval of a binary number -/

/-- How far the interval of a binary number reaches down, in units of its last place. -/
def reach (narrowBelow : Bool) : ℚ := if narrowBelow then 1 / 4 else 1 / 2

variable {m : ℕ} {e : ℤ} {narrow : Bool} {u : ℚ}

theorem low_around (hm : 0 < m) (e : ℤ) (narrow : Bool) :
    ((around m e narrow).low : ℚ) = 4 * (m - reach narrow) := by
  cases narrow with
  | false =>
    have hlow : (around m e false).low + 2 = 4 * m := by
      change 4 * m - 2 + 2 = 4 * m
      omega
    have hcast : ((around m e false).low : ℚ) + 2 = 4 * m := by exact_mod_cast hlow
    simp only [reach, Bool.false_eq_true, if_false]
    linarith
  | true =>
    have hlow : (around m e true).low + 1 = 4 * m := by
      change 4 * m - 1 + 1 = 4 * m
      omega
    have hcast : ((around m e true).low : ℚ) + 1 = 4 * m := by exact_mod_cast hlow
    simp only [reach, if_true]
    linarith

theorem high_around (m : ℕ) (e : ℤ) (narrow : Bool) :
    ((around m e narrow).high : ℚ) = 4 * (m + 1 / 2) := by
  have hhigh : (around m e narrow).high = 4 * m + 2 := rfl
  rw [hhigh]
  push_cast
  ring

/-- A quarter of the last place is the unit of the interval. -/
theorem unit_around (m : ℕ) (e : ℤ) (narrow : Bool) :
    (2 : ℚ) ^ (around m e narrow).exponent * 4 = 2 ^ e := by
  have hexponent : (around m e narrow).exponent = e - 2 := rfl
  rw [hexponent, zpow_sub₀ two_ne_zero]
  norm_num

/-- **The numbers that are rounded to a binary number**: those nearest to it, and those in the
middle between two if it is even. -/
theorem holds_around (hm : 0 < m) : (around m e narrow).Holds (u * 2 ^ e) ↔
    if m % 2 = 0 then m - reach narrow ≤ u ∧ u ≤ m + 1 / 2
    else m - reach narrow < u ∧ u < m + 1 / 2 := by
  have hpos : (0 : ℚ) < 2 ^ e := by positivity
  have hclosed : (around m e narrow).closed = true ↔ m % 2 = 0 := by
    change (m % 2 == 0) = true ↔ m % 2 = 0
    rw [beq_iff_eq]
  have hunit (w : ℚ) : 4 * w * 2 ^ (around m e narrow).exponent = w * 2 ^ e := by
    rw [← unit_around m e narrow]
    ring
  simp only [Holds, hclosed, low_around hm, high_around, hunit]
  split
  · rw [mul_le_mul_iff_left₀ hpos, mul_le_mul_iff_left₀ hpos]
  · rw [mul_lt_mul_iff_left₀ hpos, mul_lt_mul_iff_left₀ hpos]

theorem value_around_bounds (hm : 0 < m) (e : ℤ) (narrow : Bool) :
    (around m e narrow).low < (around m e narrow).value ∧
      (around m e narrow).value < (around m e narrow).high := by
  have hvalue : (around m e narrow).value = 4 * m := rfl
  have hhigh : (around m e narrow).high = 4 * m + 2 := rfl
  have hlow : (around m e narrow).low = 4 * m - if narrow then 1 else 2 := rfl
  rw [hvalue, hhigh, hlow]
  split <;> omega

/-- No number of the interval is farther below the binary number than the interval reaches. -/
theorem Holds.around_le (hm : 0 < m) (h : (around m e narrow).Holds q) :
    (m - reach narrow) * 2 ^ e ≤ q := by
  have hlow := h.low_le
  rw [low_around hm, mul_right_comm, mul_comm 4] at hlow
  rw [← unit_around m e narrow]
  linarith

/-- The interval of a binary number is as wide as its last place, or less. -/
theorem width_around_le (hm : 0 < m) : (around m e narrow).width ≤ 2 ^ e := by
  have hpos : (0 : ℚ) < 2 ^ e := by positivity
  have hreach : reach narrow ≤ 1 / 2 := by
    cases narrow <;> norm_num [reach]
  have hwidth : (around m e narrow).width = (reach narrow + 1 / 2) * 2 ^ e := by
    rw [width, low_around hm, high_around, ← unit_around m e narrow]
    ring
  rw [hwidth]
  exact mul_le_of_le_one_left hpos.le (by linarith)

end Span

end SqlRecords.Decimal
