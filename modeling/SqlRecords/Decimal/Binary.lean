/-!
# Binary floating point numbers

A bit pattern of a binary format is a number `±m · 2 ^ e`, an infinity or no number.
`BinaryFormat.unpack` reads a pattern, for double and single precision alike.
-/

namespace SqlRecords.Decimal

/-- The layout of a binary floating point format: a sign bit, exponent bits, fraction bits. -/
structure BinaryFormat where
  /-- How many bits the fraction has. -/
  fractionBits : Nat
  /-- How many bits the exponent has. -/
  exponentBits : Nat
  deriving DecidableEq, Repr

/-- Double precision. -/
def binary64 : BinaryFormat := ⟨52, 11⟩

/-- Single precision. -/
def binary32 : BinaryFormat := ⟨23, 8⟩

/-- What a bit pattern stands for. -/
inductive Unpacked where
  /-- No number. -/
  | nan
  | infinite (negative : Bool)
  /-- The number `±mantissa · 2 ^ exponent`. The number next to it towards zero is only half as
  far away as the one on the other side when `narrowBelow` holds. -/
  | finite (negative : Bool) (mantissa : Nat) (exponent : Int) (narrowBelow : Bool)
  deriving DecidableEq, Repr

/-- Reads a bit pattern. -/
def BinaryFormat.unpack (f : BinaryFormat) (bits : Nat) : Unpacked :=
  let fraction := bits % Nat.pow 2 f.fractionBits
  let biased := bits / Nat.pow 2 f.fractionBits % Nat.pow 2 f.exponentBits
  let negative := bits / Nat.pow 2 (f.fractionBits + f.exponentBits) % 2 == 1
  let lowest : Int := 2 - Nat.pow 2 (f.exponentBits - 1) - f.fractionBits
  if biased + 1 == Nat.pow 2 f.exponentBits then
    if fraction == 0 then .infinite negative else .nan
  else if biased == 0 then .finite negative fraction lowest false
  else
    .finite negative (Nat.pow 2 f.fractionBits + fraction) (lowest + biased - 1)
      (fraction == 0 && 1 < biased)

/-- What a double stands for. -/
def ofFloat (x : Float) : Unpacked := binary64.unpack x.toBits.toNat

/-- What a single stands for. -/
def ofFloat32 (x : Float32) : Unpacked := binary32.unpack x.toBits.toNat

/-- The number is neither infinite nor missing. -/
def Unpacked.isFinite : Unpacked → Bool
  | .finite .. => true
  | _ => false

end SqlRecords.Decimal
