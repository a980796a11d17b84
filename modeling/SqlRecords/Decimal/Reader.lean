import SqlRecords.Text.Digits

/-!
# Reading decimal numbers

A decimal number is a sign, digits with an optional point, and an optional exponent.
`readDecimal` takes it apart exactly; `Scientific.toFloat` and `Scientific.toFloat32`
give the nearest number of the format, infinity above the greatest one. Cells also
spell out infinities and the absence of a number (`readFloatWith`).
-/

namespace SqlRecords.Decimal

open SqlRecords.Text

/-- The number `±digits · 10 ^ exponent`. -/
structure Scientific where
  /-- The number is below zero, or a zero with a minus sign. -/
  negative : Bool
  /-- Its digits as one number. -/
  digits : Nat
  /-- The power of ten of the last digit. -/
  exponent : Int
  deriving DecidableEq, Repr

/-- A sign at the start of a text: whether it is a minus sign, and what follows. -/
def readSign : List Char → Bool × List Char
  | '-' :: rest => (true, rest)
  | '+' :: rest => (false, rest)
  | s => (false, s)

/-- Digits with an optional point among or around them, at least one digit; also what follows. -/
def readMantissa (s : List Char) : Option ((Nat × Int) × List Char) :=
  let (whole, rest) := spanDigits s
  match rest with
  | '.' :: rest =>
    let (fraction, rest) := spanDigits rest
    if whole.isEmpty && fraction.isEmpty then none
    else some ((digitsValue (whole ++ fraction), -fraction.length), rest)
  | rest => if whole.isEmpty then none else some ((digitsValue whole, 0), rest)

/-- An exponent up to the end of the text, or nothing at all. -/
def readExponent : List Char → Option Int
  | [] => some 0
  | c :: rest =>
    if c.toLower == 'e' then
      let (negative, rest) := readSign rest
      let (digits, rest) := spanDigits rest
      if digits.isEmpty || !rest.isEmpty then none
      else some (if negative then -(digitsValue digits : Int) else digitsValue digits)
    else none

/-- A text that is wholly a decimal number. -/
def readDecimal (s : List Char) : Option Scientific := do
  let (negative, rest) := readSign s
  let ((digits, exponent), rest) ← readMantissa rest
  let shift ← readExponent rest
  return ⟨negative, digits, exponent + shift⟩

namespace Scientific

/-- The number is at least `10 ^ 310` and so above every double. -/
def isHuge (x : Scientific) : Bool := 310 < (x.digits.log2 * 3 / 10 : Nat) + x.exponent

/-- The number is below `10 ^ -350` and so nearer to zero than to any other double. -/
def isTiny (x : Scientific) : Bool := (x.digits.log2 / 3 + 1 : Nat) + x.exponent < -350

/-- The nearest double. -/
def toFloat (x : Scientific) : Float :=
  let magnitude :=
    if x.digits == 0 || x.isTiny then 0.0
    else if x.isHuge then 1.0 / 0.0
    else Float.ofScientific x.digits (x.exponent < 0) x.exponent.natAbs
  if x.negative then -magnitude else magnitude

/-- The nearest single. -/
def toFloat32 (x : Scientific) : Float32 :=
  let magnitude :=
    if x.digits == 0 || x.isTiny then 0.0
    else if x.isHuge then 1.0 / 0.0
    else Float32.ofScientific x.digits (x.exponent < 0) x.exponent.natAbs
  if x.negative then -magnitude else magnitude

end Scientific

/-- Why a text is no floating point number. -/
inductive FloatFault where
  /-- There is no text. -/
  | empty
  /-- The text is no number. -/
  | invalid
  deriving DecidableEq, Repr

/-- The text of a fault. -/
def FloatFault.message : FloatFault → String
  | .empty => "cannot parse float from empty string"
  | .invalid => "invalid float literal"

/-- Reads a floating point number of some format, given how the format shows a decimal, the
infinities and the absence of a number. -/
def readFloatWith {α : Type} (ofDecimal : Scientific → α) (infinity : Bool → α) (nan : α)
    (s : List Char) : Except FloatFault α :=
  if s.isEmpty then .error .empty
  else
    let (negative, rest) := readSign s
    if isWord "inf" rest || isWord "infinity" rest then .ok (infinity negative)
    else if isWord "nan" rest then .ok nan
    else
      match readDecimal s with
      | some x => .ok (ofDecimal x)
      | none => .error .invalid

/-- Reads a double. -/
def readFloat (s : List Char) : Except FloatFault Float :=
  readFloatWith Scientific.toFloat (fun negative => if negative then -1.0 / 0.0 else 1.0 / 0.0)
    (0.0 / 0.0) s

/-- Reads a single, rounding only once. -/
def readFloat32 (s : List Char) : Except FloatFault Float32 :=
  readFloatWith Scientific.toFloat32 (fun negative => if negative then -1.0 / 0.0 else 1.0 / 0.0)
    (0.0 / 0.0) s

end SqlRecords.Decimal
