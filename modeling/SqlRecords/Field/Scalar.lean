import SqlRecords.Decimal.Layout
import SqlRecords.Decimal.Reader
import SqlRecords.Field.Basic
import SqlRecords.Text.Integer

/-!
# Fields of truth values, numbers and texts
-/

namespace SqlRecords

open SqlRecords.Text

/-! ### Whole numbers -/

/-- The sizes of whole numbers. -/
inductive IntSize where
  | int8
  | int16
  | int32
  | int64
  | uint8
  | uint16
  | uint32
  | uint64
  deriving DecidableEq, Repr, Inhabited

namespace IntSize

/-- The sizes, each once. -/
def all : List IntSize := [.int8, .int16, .int32, .int64, .uint8, .uint16, .uint32, .uint64]

/-- The least number of a size. -/
def low : IntSize → Int
  | .int8 => Int8.minValue.toInt
  | .int16 => Int16.minValue.toInt
  | .int32 => Int32.minValue.toInt
  | .int64 => Int64.minValue.toInt
  | .uint8 | .uint16 | .uint32 | .uint64 => 0

/-- The greatest number of a size. -/
def high : IntSize → Int
  | .int8 => Int8.maxValue.toInt
  | .int16 => Int16.maxValue.toInt
  | .int32 => Int32.maxValue.toInt
  | .int64 => Int64.maxValue.toInt
  | .uint8 => UInt8.size - 1
  | .uint16 => UInt16.size - 1
  | .uint32 => UInt32.size - 1
  | .uint64 => UInt64.size - 1

/-- The kind of a column of such numbers. -/
def kind : IntSize → Kind
  | .int8 => .int8
  | .int16 => .int16
  | .int32 => .int32
  | .int64 => .int64
  | .uint8 => .uint8
  | .uint16 => .uint16
  | .uint32 => .uint32
  | .uint64 => .uint64

theorem low_nonpos (w : IntSize) : w.low ≤ 0 := by cases w <;> decide

theorem high_nonneg (w : IntSize) : 0 ≤ w.high := by cases w <;> decide

theorem isIntegral_kind (w : IntSize) : w.kind.isIntegral = true := by cases w <;> rfl

/-- A whole number of a size. -/
abbrev Number (w : IntSize) := { n : Int // w.low ≤ n ∧ n ≤ w.high }

/-- Reads a whole number of a size. -/
def read (w : IntSize) (s : List Char) : Except IntegerFault w.Number :=
  match h : readInteger w.low w.high s with
  | .ok n => .ok ⟨n, mem_of_readInteger w.low_nonpos w.high_nonneg h⟩
  | .error e => .error e

end IntSize

namespace Field

/-- Whole numbers, in decimal. -/
def int (w : IntSize) : Field w.Number :=
  ofText w.kind
    (fun text => (w.read text.toList).mapError fun e => unreadable "cell" text e.message)
    (fun n => toString n.1)

/-! ### Floating point numbers -/

/-- Doubles, as the shortest text that reads back. -/
def float : Field Float :=
  ofText .float64
    (fun text => (Decimal.readFloat text.toList).mapError fun e => unreadable "cell" text e.message)
    Decimal.floatText

/-- Singles, as the shortest text that reads back. -/
def float32 : Field Float32 :=
  ofText .float32
    (fun text =>
      (Decimal.readFloat32 text.toList).mapError fun e => unreadable "cell" text e.message)
    Decimal.float32Text

/-! ### Truth values and texts -/

/-- Reads a truth value: a digit, a letter or a word, letters in either case. -/
def readBool (s : List Char) : Option Bool :=
  if isWord "1" s || isWord "t" s || isWord "true" s then some true
  else if isWord "0" s || isWord "f" s || isWord "false" s then some false
  else none

/-- Truth values, as 1 and 0. -/
def bool : Field Bool :=
  ofText .boolean
    (fun text =>
      match readBool text.toList with
      | some b => .ok b
      | none => .error (unreadableText "boolean" text))
    (fun b => if b then "1" else "0")

/-- Texts. -/
def text : Field String := ofText .text .ok id

/-- Texts of at most so many characters. -/
abbrev BoundedText (max : UInt32) := { s : String // s.length ≤ max.toNat }

/-- A text with too many characters. -/
def tooLong (max : UInt32) (s : String) : Error :=
  ((Error.marshal "String exceeds varchar length").withField "max" (toString max.toNat)).withField
    "actual" (toString s.length)

/-- A text as one of bounded length. -/
def boundedText (max : UInt32) (s : String) : Result (BoundedText max) :=
  if h : s.length ≤ max.toNat then .ok ⟨s, h⟩ else .error (tooLong max s)

/-- Texts of bounded length. -/
def varchar (max : UInt32) : Field (BoundedText max) :=
  ofText (.varchar max) (boundedText max) (·.1)

end Field

end SqlRecords
