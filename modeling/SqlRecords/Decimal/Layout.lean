import SqlRecords.Decimal.Shortest

/-!
# How floating point numbers are written

A `Layout` lists the decisions a format makes about the text of a floating point
number: where positional notation ends, whether a whole number keeps its `.0`,
which signs are written, and which way a tie between two shortest decimals goes.
The formats of the library are the values `Layout.literal` (SQL literals and cells),
`Layout.json` (JSON documents) and `Layout.seconds` (amounts of seconds in a date
modifier).
-/

namespace SqlRecords.Decimal

/-- The decisions of a number format. -/
structure Layout where
  /-- The least power of ten of the first digit that is written positionally; no bound if `none`. -/
  plainFrom : Option Int
  /-- The power of ten of the first digit from which an exponent is written; no bound if `none`. -/
  plainBelow : Option Int
  /-- A whole number written positionally ends in `.0`. -/
  wholePoint : Bool
  /-- A positive number has a sign. -/
  plusSign : Bool
  /-- A positive exponent has a sign. -/
  exponentPlus : Bool
  /-- Which of two equally near shortest decimals is taken. -/
  tie : Tie
  deriving DecidableEq, Repr

/-- Literals and cells are positional from a ten-thousandth up to below `10 ^ 16`, keep `.0`, and
write a plain exponent; of two equally near decimals the greater is taken. -/
def Layout.literal : Layout := ⟨some (-4), some 16, true, false, false, .up⟩

/-- JSON numbers are positional from a hundred-thousandth up to below `10 ^ 16`, keep `.0`, and
write the sign of every exponent; of two equally near decimals the even one is taken. -/
def Layout.json : Layout := ⟨some (-5), some 16, true, false, true, .even⟩

/-- Seconds of a date modifier are always positional, without `.0`, and always signed. -/
def Layout.seconds : Layout := ⟨none, none, false, true, false, .up⟩

namespace Layout

/-- The leading digit's power of ten `p` is one of those written positionally. -/
def isPlain (l : Layout) (p : Int) : Bool :=
  l.plainFrom.all (· ≤ p) && l.plainBelow.all (p < ·)

/-- Digits with a point behind the first `point` of them, zeros filling the gaps. -/
def positional (l : Layout) (digits : List Char) (point : Int) : List Char :=
  if point ≤ 0 then '0' :: '.' :: List.replicate (-point).toNat '0' ++ digits
  else if digits.length ≤ point.toNat then
    digits ++ List.replicate (point.toNat - digits.length) '0' ++
      if l.wholePoint then ['.', '0'] else []
  else digits.take point.toNat ++ '.' :: digits.drop point.toNat

/-- Digits with a point behind the first, then the power of ten of the first. -/
def scientific (l : Layout) (digits : List Char) (p : Int) : List Char :=
  digits.take 1 ++ (if digits.length ≤ 1 then [] else '.' :: digits.drop 1) ++
    'e' :: (if l.exponentPlus && 0 ≤ p then ['+'] else []) ++ (toString p).toList

/-- The text of a decimal without its sign. -/
def magnitude (l : Layout) (d : Scaled) : List Char :=
  let digits := Nat.toDigits 10 d.digits
  let p : Int := digits.length + d.exponent - 1
  if l.isPlain p then l.positional digits (p + 1) else l.scientific digits p

/-- The sign in front of a number. -/
def sign (l : Layout) (negative : Bool) : List Char :=
  if negative then ['-'] else if l.plusSign then ['+'] else []

/-- The text of a number. -/
def write (l : Layout) : Unpacked → String
  | .nan => "NaN"
  | .infinite negative => if negative then "-inf" else "inf"
  | .finite negative 0 _ _ => String.ofList (l.sign negative ++ l.positional ['0'] 1)
  | .finite negative m e narrow =>
    String.ofList (l.sign negative ++ l.magnitude ((Span.around m e narrow).shortest l.tie))

end Layout

/-- The text of a double as a literal or cell. -/
def floatText (x : Float) : String := Layout.literal.write (ofFloat x)

/-- The text of a single as a literal or cell. -/
def float32Text (x : Float32) : String := Layout.literal.write (ofFloat32 x)

end SqlRecords.Decimal
