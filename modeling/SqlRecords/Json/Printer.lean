import SqlRecords.Json.Basic
import SqlRecords.Decimal.Layout

/-!
# Writing JSON

The text of a JSON value without any blanks. A quote, a backslash and the control
characters are escaped, everything else in a string is written as it is.
-/

namespace SqlRecords.Json

open SqlRecords.Decimal

/-- A hexadecimal digit, small letters. -/
def hexDigit (n : Nat) : Char := if n < 10 then Char.ofNat (48 + n) else Char.ofNat (87 + n)

/-- A character inside a string. -/
def escape (c : Char) : List Char :=
  if c == '"' then ['\\', '"']
  else if c == '\\' then ['\\', '\\']
  else if c == '\x08' then ['\\', 'b']
  else if c == '\x0c' then ['\\', 'f']
  else if c == '\n' then ['\\', 'n']
  else if c == '\r' then ['\\', 'r']
  else if c == '\t' then ['\\', 't']
  else if c.toNat < 0x20 then
    ['\\', 'u', '0', '0', hexDigit (c.toNat / 16), hexDigit (c.toNat % 16)]
  else [c]

/-- A string in its quotes. -/
def quoted (s : String) : List Char := '"' :: s.toList.flatMap escape ++ ['"']

mutual

/-- The characters of a value. -/
def chars : Json → List Char
  | .null => ['n', 'u', 'l', 'l']
  | .bool true => ['t', 'r', 'u', 'e']
  | .bool false => ['f', 'a', 'l', 's', 'e']
  | .int n => (toString n).toList
  | .float x =>
    match ofFloat x with
    | .finite negative m e narrow => (Layout.json.write (.finite negative m e narrow)).toList
    | _ => ['n', 'u', 'l', 'l']
  | .str s => quoted s
  | .arr items => '[' :: itemChars items
  | .obj members => '\x7b' :: memberChars members

/-- The items of an array and its closing bracket. -/
def itemChars : List Json → List Char
  | [] => [']']
  | [j] => j.chars ++ [']']
  | j :: rest => j.chars ++ ',' :: itemChars rest

/-- The members of an object and its closing brace. -/
def memberChars : List (String × Json) → List Char
  | [] => ['\x7d']
  | [(k, v)] => quoted k ++ ':' :: v.chars ++ ['\x7d']
  | (k, v) :: rest => quoted k ++ ':' :: v.chars ++ ',' :: memberChars rest

end

/-- The text of a value. -/
def text (j : Json) : String := String.ofList j.chars

end SqlRecords.Json
