import SqlRecords.Json.Basic
import SqlRecords.Text.Digits

/-!
# Reading JSON

A reader of JSON documents that accepts exactly the grammar of the format: no
trailing comma, no leading zero, no comment, no lone half of a surrogate pair, and
arrays and objects nested to a given depth.

A whole number of 64 bits stays a whole number. Any other number is read into a
64 bit significand, digits that no longer fit being dropped, and a power of ten; the
double is the significand multiplied or divided by that power, which for long
numbers may differ from the nearest double in the last place. A number above every
double is refused.
-/

namespace SqlRecords.Json

open SqlRecords.Text

/-! ### Numbers -/

/-- The greatest significand. -/
def maxSignificand : Nat := UInt64.size - 1

/-- Takes leading digits into a significand as long as they fit; also how many were taken. -/
def fillSignificand (significand : Nat) : List Char → Nat × Nat
  | [] => (significand, 0)
  | c :: rest =>
    let next := significand * 10 + digitValue c
    if maxSignificand < next then (significand, 0)
    else
      let (s, taken) := fillSignificand next rest
      (s, taken + 1)

/-- The power of ten, for exponents that doubles have. -/
def powerOfTen (n : Nat) : Float := Float.ofScientific 1 false n

/-- A significand times a power of ten: one multiplication or division, preceded by a division by
`10 ^ 308` where the power is below every double. `none` above every double. -/
def scale (significand : Nat) (exponent : Int) : Option Float :=
  let f := Float.ofNat significand
  if significand == 0 then some 0.0
  else if 308 < exponent then none
  else if 0 ≤ exponent then
    let x := f * powerOfTen exponent.toNat
    if x.isInf then none else some x
  else if -308 ≤ exponent then some (f / powerOfTen (-exponent).toNat)
  else if -616 ≤ exponent then some (f / powerOfTen 308 / powerOfTen (-exponent - 308).toNat)
  else some 0.0

/-- The double of a number with a fraction or an exponent, or with too many digits. -/
def toDouble (negative : Bool) (whole fraction : List Char) (exponent : Int) : Option Float := do
  let (significand, taken) := fillSignificand 0 whole
  let dropped := whole.length - taken
  let (significand, taken) := fillSignificand significand fraction
  let x ← scale significand (dropped - taken + exponent)
  return if negative then -x else x

/-- A whole number, which becomes a double when it is `-0` or has more than 64 bits. -/
def wholeNumber (negative : Bool) (digits : List Char) : Option Json :=
  let n := digitsValue digits
  if negative && n == 0 then some (.float (-0.0))
  else
    let signed : Int := if negative then -n else n
    if isWhole signed then some (.int signed) else (toDouble negative digits [] 0).map .float

/-- The exponent at the start of a text, if there is one, and what follows. -/
def readExponent : List Char → Option (Option Int × List Char)
  | [] => some (none, [])
  | c :: rest =>
    if c == 'e' || c == 'E' then
      let (negative, rest) :=
        match rest with
        | '-' :: rest => (true, rest)
        | '+' :: rest => (false, rest)
        | rest => (false, rest)
      let (digits, rest) := spanDigits rest
      if digits.isEmpty then none
      else some (some (if negative then -(digitsValue digits : Int) else digitsValue digits), rest)
    else some (none, c :: rest)

/-- The fraction at the start of a text, if there is one, and what follows. -/
def readFraction : List Char → Option (Option (List Char) × List Char)
  | '.' :: rest =>
    let (digits, rest) := spanDigits rest
    if digits.isEmpty then none else some (some digits, rest)
  | rest => some (none, rest)

/-- The number at the start of a text, and what follows. -/
def readNumber (s : List Char) : Option (Json × List Char) := do
  let (negative, rest) :=
    match s with
    | '-' :: rest => (true, rest)
    | rest => (false, rest)
  let (whole, rest) := spanDigits rest
  match whole with
  | [] => none
  | '0' :: _ :: _ => none
  | _ =>
    let (fraction, rest) ← readFraction rest
    let (exponent, rest) ← readExponent rest
    match fraction, exponent with
    | none, none => return (← wholeNumber negative whole, rest)
    | _, _ => return (.float (← toDouble negative whole (fraction.getD []) (exponent.getD 0)), rest)

/-! ### Strings -/

/-- The value of a hexadecimal digit. -/
def hexValue (c : Char) : Option Nat :=
  if c.isDigit then some (digitValue c)
  else if 'a' ≤ c && c ≤ 'f' then some (c.toNat - 'a'.toNat + 10)
  else if 'A' ≤ c && c ≤ 'F' then some (c.toNat - 'A'.toNat + 10)
  else none

/-- The number that four hexadecimal digits spell. -/
def hexUnit (a b c d : Char) : Option Nat := do
  return (((← hexValue a) * 16 + (← hexValue b)) * 16 + (← hexValue c)) * 16 + (← hexValue d)

/-- The character that a letter behind a backslash stands for. -/
def escaped : Char → Option Char
  | '"' => some '"'
  | '\\' => some '\\'
  | '/' => some '/'
  | 'b' => some '\x08'
  | 'f' => some '\x0c'
  | 'n' => some '\n'
  | 'r' => some '\r'
  | 't' => some '\t'
  | _ => none

/-- The rest of a string behind its opening quote, and what follows the closing one. -/
def readString : List Char → Option (List Char × List Char)
  | [] => none
  | '"' :: rest => some ([], rest)
  | '\\' :: 'u' :: a :: b :: c :: d :: rest => do
    let unit ← hexUnit a b c d
    if 0xD800 ≤ unit && unit < 0xDC00 then
      match rest with
      | '\\' :: 'u' :: e :: f :: g :: h :: rest => do
        let low ← hexUnit e f g h
        if 0xDC00 ≤ low && low < 0xE000 then
          let (s, rest) ← readString rest
          return (Char.ofNat (0x10000 + (unit - 0xD800) * 0x400 + (low - 0xDC00)) :: s, rest)
        else none
      | _ => none
    else if 0xDC00 ≤ unit && unit < 0xE000 then none
    else
      let (s, rest) ← readString rest
      return (Char.ofNat unit :: s, rest)
  | '\\' :: c :: rest => do
    let e ← escaped c
    let (s, rest) ← readString rest
    return (e :: s, rest)
  | c :: rest =>
    if c.toNat < 0x20 || c == '\\' then none
    else do
      let (s, rest) ← readString rest
      return (c :: s, rest)

/-! ### Values -/

/-- The text behind its leading blanks. -/
def skipBlanks (s : List Char) : List Char :=
  s.dropWhile fun c => c == ' ' || c == '\t' || c == '\n' || c == '\r'

/-- A way to read one item at the start of a text. -/
abbrev ItemReader (α : Type) := List Char → Option (α × List Char)

/-- The items of a list, separated by commas, up to the closing character; at least one item. The
number bounds how many there are. -/
def readItems {α : Type} (item : ItemReader α) (close : Char) : Nat → ItemReader (List α)
  | 0, _ => none
  | n + 1, s => do
    let (x, rest) ← item (skipBlanks s)
    match skipBlanks rest with
    | c :: rest =>
      if c == close then return ([x], rest)
      else if c == ',' then
        let (xs, rest) ← readItems item close n rest
        return (x :: xs, rest)
      else none
    | [] => none

/-- The items of a list up to the closing character, maybe none. -/
def readList {α : Type} (item : ItemReader α) (close : Char) (s : List Char) :
    Option (List α × List Char) :=
  match skipBlanks s with
  | [] => none
  | c :: rest => if c == close then some ([], rest) else readItems item close s.length (c :: rest)

/-- A member of an object: a string, a colon and a value. -/
def readMember (value : ItemReader Json) : ItemReader (String × Json)
  | '"' :: rest => do
    let (key, rest) ← readString rest
    match skipBlanks rest with
    | ':' :: rest =>
      let (v, rest) ← value (skipBlanks rest)
      return ((String.ofList key, v), rest)
    | _ => none
  | _ => none

/-- The value at the start of a text without leading blanks, arrays and objects nested at most
`depth` levels, and what follows. -/
def readValue (depth : Nat) (s : List Char) : Option (Json × List Char) :=
  match s with
  | 'n' :: 'u' :: 'l' :: 'l' :: rest => some (.null, rest)
  | 't' :: 'r' :: 'u' :: 'e' :: rest => some (.bool true, rest)
  | 'f' :: 'a' :: 'l' :: 's' :: 'e' :: rest => some (.bool false, rest)
  | '"' :: rest => (readString rest).map fun (s, rest) => (.str (String.ofList s), rest)
  | '[' :: rest =>
    match depth with
    | 0 => none
    | d + 1 => (readList (readValue d) ']' rest).map fun (items, rest) => (.arr items, rest)
  | '\x7b' :: rest =>
    match depth with
    | 0 => none
    | d + 1 =>
      (readList (readMember (readValue d)) '\x7d' rest).map fun (ms, rest) => (.obj ms, rest)
  | s => readNumber s
termination_by structural depth

/-- Reads a document, arrays and objects nested at most `depth` levels. -/
def parse (depth : Nat) (s : String) : Option Json :=
  match readValue depth (skipBlanks s.toList) with
  | some (j, rest) => if (skipBlanks rest).isEmpty then some j else none
  | none => none

end SqlRecords.Json
