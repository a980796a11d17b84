import SqlRecords.Text.Digits

/-!
# Reading whole numbers

A whole number is an optional sign and decimal digits, within the bounds of the
type it is read as. The first character that makes the text wrong decides which
fault is reported: a character that is no digit, or the digit at which the number
leaves the bounds.
-/

namespace SqlRecords.Text

/-- Why a text is not a whole number of some type. -/
inductive IntegerFault where
  /-- There is no text. -/
  | empty
  /-- A character is no digit, or there is none behind the sign. -/
  | invalidDigit
  /-- The number is above the greatest one of the type. -/
  | tooLarge
  /-- The number is below the least one of the type. -/
  | tooSmall
  deriving DecidableEq, Repr

/-- The text of a fault. -/
def IntegerFault.message : IntegerFault → String
  | .empty => "cannot parse integer from empty string"
  | .invalidDigit => "invalid digit found in string"
  | .tooLarge => "number too large to fit in target type"
  | .tooSmall => "number too small to fit in target type"

/-- Reads digits behind a number that is not negative, up to the bound `hi`. -/
def readUp (hi : Int) (n : Int) : List Char → Except IntegerFault Int
  | [] => .ok n
  | c :: rest =>
    if !c.isDigit then .error .invalidDigit
    else
      let next := n * 10 + digitValue c
      if hi < next then .error .tooLarge else readUp hi next rest

/-- Reads digits behind a number that is not positive, down to the bound `lo`. -/
def readDown (lo : Int) (n : Int) : List Char → Except IntegerFault Int
  | [] => .ok n
  | c :: rest =>
    if !c.isDigit then .error .invalidDigit
    else
      let next := n * 10 - digitValue c
      if next < lo then .error .tooSmall else readDown lo next rest

/-- Reads a whole number between `lo` and `hi`. A minus sign is taken only where there are
negative numbers; elsewhere it is a character that is no digit. -/
def readInteger (lo hi : Int) (s : List Char) : Except IntegerFault Int :=
  match s with
  | [] => .error .empty
  | ['+'] | ['-'] => .error .invalidDigit
  | '+' :: rest => readUp hi 0 rest
  | '-' :: rest => if lo < 0 then readDown lo 0 rest else .error .invalidDigit
  | s => readUp hi 0 s

theorem mem_of_readUp {hi : Int} : ∀ {s : List Char} {n m : Int},
    0 ≤ n → n ≤ hi → readUp hi n s = .ok m → 0 ≤ m ∧ m ≤ hi
  | [], n, m, h0, h1, h => by
    rw [readUp] at h
    cases h
    exact ⟨h0, h1⟩
  | c :: rest, n, m, h0, _, h => by
    simp only [readUp] at h
    split at h
    · cases h
    · split at h
      · cases h
      · exact mem_of_readUp (by omega) (by omega) h

theorem mem_of_readDown {lo : Int} : ∀ {s : List Char} {n m : Int},
    lo ≤ n → n ≤ 0 → readDown lo n s = .ok m → lo ≤ m ∧ m ≤ 0
  | [], n, m, h0, h1, h => by
    rw [readDown] at h
    cases h
    exact ⟨h0, h1⟩
  | c :: rest, n, m, _, h1, h => by
    simp only [readDown] at h
    split at h
    · cases h
    · split at h
      · cases h
      · exact mem_of_readDown (by omega) (by omega) h

/-- What is read lies within the bounds. -/
theorem mem_of_readInteger {lo hi : Int} {s : List Char} {n : Int} (hlo : lo ≤ 0) (hhi : 0 ≤ hi)
    (h : readInteger lo hi s = .ok n) : lo ≤ n ∧ n ≤ hi := by
  unfold readInteger at h
  split at h
  · cases h
  · cases h
  · cases h
  · have := mem_of_readUp (by omega) hhi h
    omega
  · split at h
    · have := mem_of_readDown hlo (by omega) h
      omega
    · cases h
  · have := mem_of_readUp (by omega) hhi h
    omega

/-- A whole number as text, with a sign even when it is not negative. -/
def signedInteger (n : Int) : String :=
  if n < 0 then toString n else "+" ++ toString n

end SqlRecords.Text
