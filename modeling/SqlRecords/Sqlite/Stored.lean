import SqlRecords.Decimal.Layout
import SqlRecords.Decimal.Reader
import SqlRecords.Field.Basic
import SqlRecords.Text.Utf8

/-!
# Stored values

The values a SQLite database holds: NULL, integers of 64 bits, reals, texts and
blobs. A text need not be UTF-8. Here are how values are compared, how they are read
as numbers and texts where an operator or a column asks for one, and how they become
the cells of a row.
-/

namespace SqlRecords.Sqlite

open SqlRecords.Decimal SqlRecords.Text

/-- A value in a database. -/
inductive Stored where
  | null
  | integer (n : Int64)
  | real (x : Float)
  | text (s : String)
  /-- A text that is kept as bytes because they are not UTF-8. -/
  | garbled (bytes : List UInt8)
  | blob (bytes : List UInt8)
  deriving DecidableEq, Repr, Inhabited

/-- A number in a database. -/
inductive Number where
  | integer (n : Int64)
  | real (x : Float)
  deriving DecidableEq, Repr

namespace Stored

/-- A real as it is stored; no number is NULL. -/
def ofFloat (x : Float) : Stored := if x.isNaN then .null else .real x

/-- A number as it is stored. -/
def ofNumber : Number → Stored
  | .integer n => .integer n
  | .real x => .real x

/-- Bytes stored as text. -/
def ofTextBytes (bytes : List UInt8) : Stored :=
  match decodeUtf8 bytes with
  | .ok s => .text s
  | .error _ => .garbled bytes

/-- A cell as it is bound to a statement. -/
def ofCell : Cell → Stored
  | some s => .text s
  | none => .null

/-- The value is NULL. -/
def isNull : Stored → Bool
  | .null => true
  | _ => false

end Stored

/-! ### Numbers -/

/-- The number lies within 64 bits. -/
def fits (n : Int) : Bool := Int64.minValue.toInt ≤ n && n ≤ Int64.maxValue.toInt

/-- The characters that count as blank around a number. -/
def isSpace (c : Char) : Bool := c == ' ' || (9 ≤ c.toNat && c.toNat ≤ 13)

/-- A text without the blanks at its ends. -/
def trimSpaces (s : List Char) : List Char :=
  ((s.dropWhile isSpace).reverse.dropWhile isSpace).reverse

/-- The text has no point and no exponent. -/
def isWhole (s : List Char) : Bool :=
  s.all fun c => c.isDigit || c == '+' || c == '-'

/-- The whole number that a real is, if it is one. -/
def wholeNumber? (x : Float) : Option Int :=
  match ofFloat x with
  | .finite negative m e _ =>
    let magnitude : Option Nat :=
      if 0 ≤ e then some (m * Nat.pow 2 e.toNat)
      else if m % Nat.pow 2 (-e).toNat == 0 then some (m / Nat.pow 2 (-e).toNat)
      else none
    magnitude.map fun n => if negative then -(n : Int) else n
  | _ => none

namespace Number

/-- The number that a whole decimal text spells: an integer where it fits, else a real. -/
def ofText? (s : List Char) : Option Number :=
  (readDecimal s).map fun d =>
    let n : Int := if d.negative then -(d.digits : Int) else d.digits
    if isWhole s && fits n then .integer (Int64.ofInt n) else .real d.toFloat

/-- The number that the longest possible beginning of a text spells; zero if there is none. -/
def ofTextStart (s : List Char) : Number :=
  let s := s.dropWhile isSpace
  ((List.range (s.length + 1)).reverse.findSome? fun n => ofText? (s.take n)).getD (.integer 0)

/-- The number as a real. -/
def toFloat : Number → Float
  | .integer n => Float.ofInt n.toInt
  | .real x => x

/-- An integer in place of a real that is one, unless it is at an end of the range. -/
def exact : Number → Number
  | .integer n => .integer n
  | .real x =>
    match wholeNumber? x with
    | some n =>
      if Int64.minValue.toInt < n && n < Int64.maxValue.toInt then .integer (Int64.ofInt n)
      else .real x
    | none => .real x

/-- Compares an integer with a real. -/
def compareMixed (n : Int) (x : Float) : Ordering :=
  match Decimal.ofFloat x with
  | .nan => .gt
  | .infinite negative => if negative then .gt else .lt
  | .finite negative m e _ =>
    let m : Int := if negative then -(m : Int) else m
    compare (n * Nat.pow 2 (-e).toNat) (m * Nat.pow 2 e.toNat)

/-- Compares two numbers by what they stand for. -/
def compare : Number → Number → Ordering
  | .integer m, .integer n => Ord.compare m.toInt n.toInt
  | .integer m, .real y => compareMixed m.toInt y
  | .real x, .integer n => (compareMixed n.toInt x).swap
  | .real x, .real y => if x < y then .lt else if x == y then .eq else .gt

end Number

namespace Stored

/-- The characters of bytes, one for each. -/
def byteChars (bytes : List UInt8) : List Char := bytes.map fun b => Char.ofNat b.toNat

/-- The number an operator takes a value for; there is none for NULL. -/
def number? : Stored → Option Number
  | .null => none
  | .integer n => some (.integer n)
  | .real x => some (.real x)
  | .text s => some (.ofTextStart s.toList)
  | .garbled bytes | .blob bytes => some (.ofTextStart (byteChars bytes))

/-! ### Texts -/

/-- The decimal with at most fifteen digits that is nearest to `m · 2 ^ e`, a half going up. -/
def roundedTo15 (m : Nat) (e : Int) : Scaled :=
  let n := m * Nat.pow 2 e.toNat
  let d := Nat.pow 2 (-e).toNat
  let digits : Int :=
    if d ≤ n then (Nat.toDigits 10 (n / d)).length
    else 1 - (Nat.toDigits 10 ((d - 1) / n)).length
  let round (k : Int) : Nat :=
    let n := n * Nat.pow 10 (-k).toNat
    let d := d * Nat.pow 10 k.toNat
    (2 * n + d) / (2 * d)
  let k := digits - 15
  if round k < Nat.pow 10 15 then ⟨round k, k⟩ else ⟨round (k + 1), k + 1⟩

/-- A decimal without zeros at its end. -/
def stripZeros : Nat → Scaled → Scaled
  | 0, d => d
  | n + 1, d => if d.digits % 10 == 0 then stripZeros n ⟨d.digits / 10, d.exponent + 1⟩ else d

/-- The text of a real in a text column: at most fifteen digits, always with a point. -/
def realText (x : Float) : String :=
  match Decimal.ofFloat x with
  | .nan => ""
  | .infinite negative => if negative then "-Inf" else "Inf"
  | .finite negative 0 _ _ => if negative then "-0.0" else "0.0"
  | .finite negative m e _ =>
    let d := stripZeros 15 (roundedTo15 m e)
    let digits := Nat.toDigits 10 d.digits
    let p : Int := digits.length + d.exponent - 1
    let sign := if negative then "-" else ""
    if p < -4 || 14 < p then
      let fraction := if digits.length ≤ 1 then ['0'] else digits.drop 1
      let power := Nat.toDigits 10 p.natAbs
      let power := if power.length < 2 then '0' :: power else power
      sign ++ String.ofList
        (digits.take 1 ++ '.' :: fraction ++ 'e' :: (if p < 0 then '-' else '+') :: power)
    else sign ++ String.ofList (Layout.literal.positional digits (p + 1))

/-- The bytes of a value that is a text or a blob. -/
def bytes : Stored → List UInt8
  | .text s => utf8Bytes s
  | .garbled bytes | .blob bytes => bytes
  | _ => []

/-! ### Order -/

/-- Where a value stands among those of other classes: NULL first, then numbers, texts, blobs. -/
def rank : Stored → Nat
  | .null => 0
  | .integer _ | .real _ => 1
  | .text _ | .garbled _ => 2
  | .blob _ => 3

/-- Compares bytes, the first difference deciding. -/
def compareBytes : List UInt8 → List UInt8 → Ordering
  | [], [] => .eq
  | [], _ :: _ => .lt
  | _ :: _, [] => .gt
  | a :: as, b :: bs => (Ord.compare a.toNat b.toNat).then (compareBytes as bs)

/-- Compares two values: by class, numbers by what they stand for, texts and blobs by bytes. -/
def compare (a b : Stored) : Ordering :=
  match a, b with
  | .integer m, .integer n => Number.compare (.integer m) (.integer n)
  | .integer m, .real y => Number.compare (.integer m) (.real y)
  | .real x, .integer n => Number.compare (.real x) (.integer n)
  | .real x, .real y => Number.compare (.real x) (.real y)
  | a, b => (Ord.compare a.rank b.rank).then (compareBytes a.bytes b.bytes)

/-- The values are equal as keys. -/
def same (a b : Stored) : Bool := a.compare b == .eq

/-! ### Cells -/

/-- A text that is not UTF-8. -/
def notUtf8 (f : Utf8Fault) : Error :=
  (Error.withSource "Text value is not valid UTF-8" f.message).withKind .marshal

/-- A blob, for which there is no cell. -/
def unsupportedBlob (bytes : List UInt8) : Error :=
  (Error.marshal "Unsupported BLOB value").withField "len" (toString bytes.length)

/-- The cell of a value. -/
def toCell : Stored → Result Cell
  | .null => .ok none
  | .integer n => .ok (some (toString n.toInt))
  | .real x => .ok (some (floatText x))
  | .text s => .ok (some s)
  | .garbled bytes =>
    match decodeUtf8 bytes with
    | .ok s => .ok (some s)
    | .error f => .error (notUtf8 f)
  | .blob bytes => .error (unsupportedBlob bytes)

/-- The cells of some values, the first at a column; the first value without a cell is named by its
column. -/
def toCells (column : Nat) : List Stored → Result Row
  | [] => .ok []
  | v :: rest =>
    match v.toCell with
    | .error e => .error (e.withField "column" (toString column))
    | .ok cell => (toCells (column + 1) rest).map (cell :: ·)

/-- The row of some values. -/
def toRow (values : List Stored) : Result Row := toCells 0 values

end Stored

/-! ### Affinities -/

/-- What a column makes of the values it is given. -/
inductive Affinity where
  /-- Numbers become texts. -/
  | text
  /-- Texts of numbers become numbers, integers where possible. -/
  | integer
  /-- Texts of numbers become reals, and integers too. -/
  | real
  /-- Values stay as they are. -/
  | none
  deriving DecidableEq, Repr, Inhabited

namespace Affinity

/-- Numbers are kept as numbers. -/
def isNumeric : Affinity → Bool
  | .integer | .real => true
  | .text | .none => false

/-- A text as the number it spells, if it is wholly a number. -/
def numberText? (s : String) : Option Number := Number.ofText? (trimSpaces s.toList)

/-- A number in a column of integers. -/
def asInteger (n : Number) : Stored := .ofNumber n.exact

/-- A number in a column of reals. -/
def asReal (n : Number) : Stored := .real n.exact.toFloat

/-- What a column makes of a value. -/
def apply : Affinity → Stored → Stored
  | .text, .integer n => .text (toString n.toInt)
  | .text, .real x => .text (Stored.realText x)
  | .integer, .real x => asInteger (.real x)
  | .integer, .text s =>
    match numberText? s with
    | some n => asInteger n
    | Option.none => .text s
  | .real, .integer n => asReal (.integer n)
  | .real, .real x => asReal (.real x)
  | .real, .text s =>
    match numberText? s with
    | some n => asReal n
    | Option.none => .text s
  | _, v => v

/-- The affinity that both sides of a comparison take, given their own. A side that is not a column
has none. -/
def forComparison : Option Affinity → Option Affinity → Affinity
  | some a, some b => if a.isNumeric || b.isNumeric then .integer else .none
  | some a, Option.none | Option.none, some a => if a.isNumeric then .integer else a
  | Option.none, Option.none => .none

/-- What a comparison makes of a value. Numbers become texts only next to a text. -/
def forOperand (a : Affinity) (other v : Stored) : Stored :=
  match a, other with
  | .text, .text _ | .text, .garbled _ => apply .text v
  | .text, _ => v
  | .none, _ => v
  | _, _ =>
    match v with
    | .text s => ((numberText? s).map Stored.ofNumber).getD (.text s)
    | v => v

end Affinity

end SqlRecords.Sqlite
