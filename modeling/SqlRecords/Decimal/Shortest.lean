import SqlRecords.Decimal.Binary

/-!
# The shortest decimal of a binary number

The decimals that read back as a given binary number are those of an interval around
it, its ends included when the mantissa is even. `Span.shortest` finds the decimal
of that interval with the fewest digits, and of those the nearest: it tries one
decimal grid after the other, the coarsest first, and on each grid only the two
neighbours of the number. The last grid it tries has the number itself on it.
-/

namespace SqlRecords.Decimal

/-- Which way to go when two decimals are equally near. -/
inductive Tie where
  /-- To the greater one. -/
  | up
  /-- To the one with an even last digit. -/
  | even
  deriving DecidableEq, Repr

/-- A decimal number, `digits · 10 ^ exponent`. -/
structure Scaled where
  /-- Its digits as one number. -/
  digits : Nat
  /-- The power of ten of the last digit. -/
  exponent : Int
  deriving DecidableEq, Repr

/-- A positive binary number and the interval that reads back as it, all three in units of
`2 ^ exponent`. -/
structure Span where
  /-- The lower end. -/
  low : Nat
  /-- The number. -/
  value : Nat
  /-- The upper end. -/
  high : Nat
  /-- The power of two they are counted in. -/
  exponent : Int
  /-- The ends belong to the interval. -/
  closed : Bool
  deriving DecidableEq, Repr

namespace Span

/-- The interval around `mantissa · 2 ^ exponent`. It reaches halfway to each neighbour, so half
as far down where the neighbour below is nearer. -/
def around (mantissa : Nat) (exponent : Int) (narrowBelow : Bool) : Span :=
  { low := 4 * mantissa - if narrowBelow then 1 else 2
    value := 4 * mantissa
    high := 4 * mantissa + 2
    exponent := exponent - 2
    closed := mantissa % 2 == 0 }

/-- The interval, stretched by `n`, holds `x` steps of `d`. -/
def holds (s : Span) (n d x : Nat) : Bool :=
  if s.closed then s.low * n ≤ x * d && x * d ≤ s.high * n
  else s.low * n < x * d && x * d < s.high * n

/-- The multiple of `10 ^ k` in the interval that is nearest to the number, as a count of
`10 ^ k`, if there is any. Only the two neighbours of the number have to be looked at. -/
def onGrid (s : Span) (tie : Tie) (k : Int) : Option Nat :=
  let n := Nat.pow 2 s.exponent.toNat * Nat.pow 10 (-k).toNat
  let d := Nat.pow 2 (-s.exponent).toNat * Nat.pow 10 k.toNat
  let below := s.value * n / d
  match s.holds n d below, s.holds n d (below + 1) with
  | false, false => none
  | true, false => some below
  | false, true => some (below + 1)
  | true, true =>
    let under := s.value * n - below * d
    let above := (below + 1) * d - s.value * n
    if under < above then some below
    else if above < under then some (below + 1)
    else
      match tie with
      | .up => some (below + 1)
      | .even => some (below + below % 2)

/-- The finest grid that is needed, on which the number itself lies. -/
def finest (s : Span) : Int := min s.exponent 0

/-- A power of ten above the whole interval, so that no coarser grid can have a point in it. -/
def coarsest (s : Span) : Int :=
  let bits : Int := s.high.log2 + 1 + s.exponent
  if 0 ≤ bits then bits / 3 + 1 else -(-bits / 4)

/-- Tries the grids from the finest one plus `steps` downwards. -/
def search (s : Span) (tie : Tie) : Nat → Scaled
  | 0 => ⟨s.value * Nat.pow 2 s.exponent.toNat * Nat.pow 5 (-s.exponent).toNat, s.finest⟩
  | steps + 1 =>
    match s.onGrid tie (s.finest + (steps + 1 : Nat)) with
    | some digits => ⟨digits, s.finest + (steps + 1 : Nat)⟩
    | none => s.search tie steps

/-- The decimal with the fewest digits that reads back as the number, the nearest of those. -/
def shortest (s : Span) (tie : Tie) : Scaled := s.search tie (s.coarsest - s.finest).toNat

end Span

end SqlRecords.Decimal
