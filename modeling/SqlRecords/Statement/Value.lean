import SqlRecords.Statement.Kind

/-!
# Literals

The literals a statement can contain: whole numbers of 64 bits, floating point
numbers and strings. A truth value is the number 0 or 1. How a literal is written
is up to the dialect; see `SqlRecords.Dialect.Token`.
-/

namespace SqlRecords

/-- A literal of a statement. -/
inductive Value where
  | integer (n : Int64)
  | float (x : Float)
  | string (s : String)
  deriving DecidableEq, Repr, Inhabited

/-- A truth value as a literal. -/
def Value.ofBool (b : Bool) : Value := .integer (if b then 1 else 0)

/-- A whole number as a literal; the number has to fit in 64 bits. -/
def Value.ofInt (n : Int) : Value := .integer (Int64.ofInt n)

end SqlRecords
