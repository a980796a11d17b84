/-!
# UTF-8

Reading bytes as text. The reader goes byte by byte: the first byte of a character
says how many more there are and what the next may be, the further ones lie between
`0x80` and `0xBF`. The bytes that no character can begin or go on with are reported
with the place where the character began.
-/

namespace SqlRecords.Text

/-- Why bytes are not UTF-8. -/
inductive Utf8Fault where
  /-- The text ends inside the character that begins at `start`. -/
  | incomplete (start : Nat)
  /-- No character begins with the bytes at `start`; `length` of them could begin one. -/
  | invalid (start length : Nat)
  deriving DecidableEq, Repr

/-- The text of a fault. -/
def Utf8Fault.message : Utf8Fault → String
  | .incomplete start => "incomplete utf-8 byte sequence from index " ++ toString start
  | .invalid start length =>
    "invalid utf-8 sequence of " ++ toString length ++ " bytes from index " ++ toString start

/-- A character whose last bytes are still to come. -/
structure Utf8Part where
  /-- Where it began. -/
  start : Nat
  /-- How many bytes of it have been read. -/
  length : Nat
  /-- How many bytes are missing. -/
  missing : Nat
  /-- The least next byte. -/
  low : Nat
  /-- The greatest next byte. -/
  high : Nat
  /-- The number the bytes read so far spell. -/
  value : Nat
  deriving DecidableEq, Repr

/-- The character that a byte above `0x7F` begins, if it can begin one. -/
def Utf8Part.ofByte (start byte : Nat) : Option Utf8Part :=
  if 0xC2 ≤ byte && byte ≤ 0xDF then some ⟨start, 1, 1, 0x80, 0xBF, byte - 0xC0⟩
  else if byte == 0xE0 then some ⟨start, 1, 2, 0xA0, 0xBF, 0⟩
  else if byte == 0xED then some ⟨start, 1, 2, 0x80, 0x9F, 13⟩
  else if 0xE1 ≤ byte && byte ≤ 0xEF then some ⟨start, 1, 2, 0x80, 0xBF, byte - 0xE0⟩
  else if byte == 0xF0 then some ⟨start, 1, 3, 0x90, 0xBF, 0⟩
  else if byte == 0xF4 then some ⟨start, 1, 3, 0x80, 0x8F, 4⟩
  else if 0xF1 ≤ byte && byte ≤ 0xF3 then some ⟨start, 1, 3, 0x80, 0xBF, byte - 0xF0⟩
  else none

/-- Reads bytes behind the part of a character, the first of them at `index`. -/
def readUtf8 (part : Option Utf8Part) (index : Nat) : List UInt8 → Except Utf8Fault (List Char)
  | [] =>
    match part with
    | none => .ok []
    | some p => .error (.incomplete p.start)
  | b :: rest =>
    let byte := b.toNat
    match part with
    | none =>
      if byte < 0x80 then (readUtf8 none (index + 1) rest).map (Char.ofNat byte :: ·)
      else
        match Utf8Part.ofByte index byte with
        | some p => readUtf8 (some p) (index + 1) rest
        | none => .error (.invalid index 1)
    | some p =>
      if byte < p.low || p.high < byte then .error (.invalid p.start p.length)
      else
        let value := p.value * 64 + (byte - 0x80)
        if p.missing ≤ 1 then (readUtf8 none (index + 1) rest).map (Char.ofNat value :: ·)
        else
          readUtf8 (some ⟨p.start, p.length + 1, p.missing - 1, 0x80, 0xBF, value⟩) (index + 1) rest

/-- Reads bytes as text. -/
def decodeUtf8 (bytes : List UInt8) : Except Utf8Fault String :=
  (readUtf8 none 0 bytes).map String.ofList

/-- The bytes of a text. -/
def utf8Bytes (s : String) : List UInt8 := s.toUTF8.data.toList

end SqlRecords.Text
