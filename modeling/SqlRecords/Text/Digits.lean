/-!
# Runs of decimal digits

Splitting a text behind its leading decimal digits, and the number such digits
spell. Only the ten ASCII digits count.
-/

namespace SqlRecords.Text

/-- The number a decimal digit stands for; the digits are the ten of ASCII. -/
def digitValue (c : Char) : Nat := c.toNat - '0'.toNat

/-- The leading digits of a text, and what follows them. -/
def spanDigits (s : List Char) : List Char × List Char :=
  (s.takeWhile Char.isDigit, s.dropWhile Char.isDigit)

/-- The number that some digits spell, the first digit being the greatest. -/
def digitsValue (digits : List Char) : Nat :=
  digits.foldl (fun n c => n * 10 + digitValue c) 0

/-- The text is the given word of small letters, letters in either case. -/
def isWord (word : String) (s : List Char) : Bool :=
  s.map Char.toLower == word.toList

end SqlRecords.Text
