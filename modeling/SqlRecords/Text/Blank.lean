/-!
# Blanks

The characters that count as white space in dates: those with the Unicode property
of that name.
-/

namespace SqlRecords.Text

/-- The blank characters outside ASCII. -/
def wideBlanks : List Nat :=
  [0x85, 0xA0, 0x1680, 0x2000, 0x2001, 0x2002, 0x2003, 0x2004, 0x2005, 0x2006, 0x2007, 0x2008,
    0x2009, 0x200A, 0x2028, 0x2029, 0x202F, 0x205F, 0x3000]

/-- The character is white space. -/
def isBlank (c : Char) : Bool :=
  c == ' ' || (9 ≤ c.toNat && c.toNat ≤ 13) || wideBlanks.contains c.toNat

/-- A text behind its leading blanks. -/
def skipBlanks (s : List Char) : List Char := s.dropWhile isBlank

end SqlRecords.Text
