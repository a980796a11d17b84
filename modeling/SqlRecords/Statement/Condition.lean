import SqlRecords.Statement.Operation

/-!
# Conditions

The truth values of a statement: comparisons and tests of operations, joined by
AND, OR and NOT to any depth.
-/

namespace SqlRecords

/-- The comparison operators. -/
inductive Comparison where
  | equal
  | notEqual
  | less
  | lessEqual
  | greater
  | greaterEqual
  deriving DecidableEq, Repr, Inhabited

/-- The comparison operators, each once. -/
def Comparison.all : List Comparison :=
  [.equal, .notEqual, .less, .lessEqual, .greater, .greaterEqual]

/-- A truth value of a statement. -/
inductive Condition where
  | and (lhs rhs : Condition)
  | or (lhs rhs : Condition)
  | not (c : Condition)
  | compare (o : Comparison) (lhs rhs : Operation)
  | isNull (arg : Operation)
  | isNotNull (arg : Operation)
  /-- A text matches a pattern of wildcards. -/
  | like (arg : Operation) (pattern : String)
  /-- A text does not match a pattern of wildcards. -/
  | notLike (arg : Operation) (pattern : String)
  deriving Repr, Inhabited

end SqlRecords
