import SqlRecords.Decimal.Reader
import SqlRecords.Text.Quoted

/-!
# Lexemes of SQL text

SQL text is cut into words, quoted names, strings, numbers and signs. A quote inside
a name or string is written twice, blanks and comments separate, and of two signs
that fit the longer one is taken.
-/

namespace SqlRecords.Sqlite

open SqlRecords.Decimal SqlRecords.Text

/-- A piece of SQL text with a meaning of its own. -/
inductive Lexeme where
  /-- A word that is not quoted, in small letters. -/
  | word (w : String)
  /-- A name in double quotes. -/
  | name (n : String)
  /-- A string in single quotes. -/
  | string (s : String)
  /-- A number without a sign; it is whole if it has neither point nor exponent. -/
  | number (whole : Bool) (value : Scientific)
  /-- An operator, a bracket or the place of a bound value. -/
  | sign (s : String)
  deriving DecidableEq, Repr

namespace Lexeme

/-- The signs of two characters. -/
def longSigns : List String := ["!=", "<>", "<=", ">=", "==", "||"]

/-- The signs of one character. -/
def shortSigns : List Char :=
  ['(', ')', ',', '.', '=', '<', '>', '+', '-', '*', '/', '%', ';', '?']

/-- The character can begin a word. -/
def startsWord (c : Char) : Bool := c.isAlpha || c == '_' || 0x80 ≤ c.toNat

/-- The character can stand inside a word. -/
def inWord (c : Char) : Bool := startsWord c || c.isDigit || c == '$'

/-- Reads a name or string behind the quote that opens it; also what follows. -/
def readQuoted (quote : Char) : List Char → Option (List Char × List Char)
  | [] => none
  | c :: rest =>
    if c = quote then
      match rest with
      | d :: more =>
        if d = quote then (readQuoted quote more).map fun (s, rest) => (quote :: s, rest)
        else some ([], d :: more)
      | [] => some ([], [])
    else (readQuoted quote rest).map fun (s, rest) => (c :: s, rest)

/-- The exponent at the start of a text, if there is one with digits, and what follows. -/
def readPower (s : List Char) : Option (Int × List Char) :=
  match s with
  | c :: rest =>
    if c.toLower == 'e' then
      let (negative, rest) := readSign rest
      let (digits, rest) := spanDigits rest
      if digits.isEmpty then none
      else some (if negative then -(digitsValue digits : Int) else digitsValue digits, rest)
    else none
  | [] => none

/-- Reads a number; also what follows. -/
def readNumber (s : List Char) : Option (Lexeme × List Char) := do
  let ((digits, exponent), rest) ← readMantissa s
  let whole := s.takeWhile Char.isDigit ++ rest == s
  match readPower rest with
  | some (power, rest) => some (.number false ⟨false, digits, exponent + power⟩, rest)
  | none => some (.number whole ⟨false, digits, exponent⟩, rest)

/-- The text of a comment ends with the line. -/
def skipLine (s : List Char) : List Char := s.dropWhile (· != '\n')

/-- Reads the first lexeme of a text that does not begin with a blank; also what follows. -/
def readFirst (s : List Char) : Option (Lexeme × List Char) :=
  match s with
  | [] => none
  | '"' :: rest => (readQuoted '"' rest).map fun (n, rest) => (.name (String.ofList n), rest)
  | '\'' :: rest => (readQuoted '\'' rest).map fun (t, rest) => (.string (String.ofList t), rest)
  | c :: rest =>
    if c.isDigit then readNumber s
    else if c == '.' && (rest.head?.any Char.isDigit) then readNumber s
    else if startsWord c then
      some (.word (String.ofList ((s.takeWhile inWord).map Char.toLower)), s.dropWhile inWord)
    else if longSigns.contains (String.ofList (s.take 2)) then
      some (.sign (String.ofList (s.take 2)), s.drop 2)
    else if shortSigns.contains c then some (.sign (String.singleton c), rest)
    else none

/-- Reads the lexemes of a text in at most so many steps. -/
def readWithin : Nat → List Char → Option (List Lexeme)
  | _, [] => some []
  | 0, _ => none
  | steps + 1, '-' :: '-' :: rest => readWithin steps (skipLine rest)
  | steps + 1, c :: rest =>
    if c == ' ' || (9 ≤ c.toNat && c.toNat ≤ 13) then readWithin steps rest
    else do
      let (lexeme, rest) ← readFirst (c :: rest)
      return lexeme :: (← readWithin steps rest)

/-- The lexemes of a text. Each step uses up a character at least. -/
def read (s : List Char) : Option (List Lexeme) := readWithin s.length s

end Lexeme

end SqlRecords.Sqlite
