import SqlRecords.Sqlite.Stored
import SqlRecords.Statement.Condition

/-!
# Expressions

The expressions of a SQLite statement, over any way `κ` to name a column, and what
they give on a row. NULL makes the result of an operator NULL, except where AND and
OR know their result from one side. A truth value is the integer 1 or 0, or NULL when
it is unknown.
-/

namespace SqlRecords.Sqlite

/-- The arithmetic operators. -/
inductive ArithmeticOperator where
  | plus
  | minus
  | multiplies
  deriving DecidableEq, Repr

/-- An expression; `κ` names columns. -/
inductive Expr (κ : Type) where
  | literal (v : Stored)
  | column (c : κ)
  | abs (arg : Expr κ)
  | arith (o : ArithmeticOperator) (lhs rhs : Expr κ)
  | compare (o : Comparison) (lhs rhs : Expr κ)
  | isNull (arg : Expr κ)
  | isNotNull (arg : Expr κ)
  | not (arg : Expr κ)
  | and (lhs rhs : Expr κ)
  | or (lhs rhs : Expr κ)
  deriving DecidableEq, Repr

/-! ### Operators -/

namespace ArithmeticOperator

/-- The operator on integers. -/
def onInt : ArithmeticOperator → Int → Int → Int
  | .plus, a, b => a + b
  | .minus, a, b => a - b
  | .multiplies, a, b => a * b

/-- The operator on reals. -/
def onFloat : ArithmeticOperator → Float → Float → Float
  | .plus, a, b => a + b
  | .minus, a, b => a - b
  | .multiplies, a, b => a * b

/-- The operator on numbers: exact on integers as long as the result is one, else on reals. -/
def onNumbers (o : ArithmeticOperator) (a b : Number) : Stored :=
  match a, b with
  | .integer m, .integer n =>
    let result := o.onInt m.toInt n.toInt
    if fits result then .integer (Int64.ofInt result) else .ofFloat (o.onFloat a.toFloat b.toFloat)
  | a, b => .ofFloat (o.onFloat a.toFloat b.toFloat)

/-- The operator on values. -/
def apply (o : ArithmeticOperator) (a b : Stored) : Stored :=
  match a.number?, b.number? with
  | some m, some n => o.onNumbers m n
  | _, _ => .null

end ArithmeticOperator

namespace Stored

/-- A truth value. -/
def ofBool (b : Bool) : Stored := .integer (if b then 1 else 0)

/-- A truth value that may be unknown. -/
def ofTruth : Option Bool → Stored
  | some b => ofBool b
  | none => .null

/-- The truth value of a value: unknown for NULL, else whether its number is not zero. -/
def truth (v : Stored) : Option Bool :=
  v.number?.map fun n =>
    match n with
    | .integer n => n != 0
    | .real x => x != 0.0

/-- The absolute value. The least integer has none. -/
def abs : Stored → Except String Stored
  | .null => .ok .null
  | .integer n =>
    if 0 ≤ n.toInt then .ok (.integer n)
    else if fits (-n.toInt) then .ok (.integer (Int64.ofInt (-n.toInt)))
    else .error "integer overflow"
  | .blob _ => .ok (.real 0.0)
  | v => .ok (.ofFloat (((v.number?.getD (.integer 0)).toFloat).abs))

end Stored

/-- The ordering of two values is one that a comparison asks for. -/
def comparisonHolds : Comparison → Ordering → Bool
  | .equal, o => o == .eq
  | .notEqual, o => o != .eq
  | .less, o => o == .lt
  | .lessEqual, o => o != .gt
  | .greater, o => o == .gt
  | .greaterEqual, o => o != .lt

/-- Compares two values that have, or have not, the affinities of columns. -/
def compareValues (o : Comparison) (aff₁ aff₂ : Option Affinity) (a b : Stored) : Stored :=
  if a.isNull || b.isNull then .null
  else
    let affinity := Affinity.forComparison aff₁ aff₂
    .ofBool (comparisonHolds o ((affinity.forOperand b a).compare (affinity.forOperand a b)))

/-- AND of truth values that may be unknown. -/
def andTruth : Option Bool → Option Bool → Option Bool
  | some false, _ | _, some false => some false
  | some true, some true => some true
  | _, _ => none

/-- OR of truth values that may be unknown. -/
def orTruth : Option Bool → Option Bool → Option Bool
  | some true, _ | _, some true => some true
  | some false, some false => some false
  | _, _ => none

/-! ### Evaluation -/

namespace Expr

variable {κ ι : Type}

/-- The affinity of an expression: that of a column, if it is one. -/
def affinity (affinities : κ → Affinity) : Expr κ → Option Affinity
  | .column c => some (affinities c)
  | _ => none

/-- What an expression gives, on the values and affinities of columns. -/
def eval (affinities : κ → Affinity) (values : κ → Stored) : Expr κ → Except String Stored
  | .literal v => .ok v
  | .column c => .ok (values c)
  | .abs arg => do (← eval affinities values arg).abs
  | .arith o lhs rhs => do
    return o.apply (← eval affinities values lhs) (← eval affinities values rhs)
  | .compare o lhs rhs => do
    return compareValues o (lhs.affinity affinities) (rhs.affinity affinities)
      (← eval affinities values lhs) (← eval affinities values rhs)
  | .isNull arg => do return .ofBool (← eval affinities values arg).isNull
  | .isNotNull arg => do return .ofBool !(← eval affinities values arg).isNull
  | .not arg => do return .ofTruth ((← eval affinities values arg).truth.map Bool.not)
  | .and lhs rhs => do
    return .ofTruth
      (andTruth (← eval affinities values lhs).truth (← eval affinities values rhs).truth)
  | .or lhs rhs => do
    return .ofTruth
      (orTruth (← eval affinities values lhs).truth (← eval affinities values rhs).truth)

/-- An expression whose columns have been looked up; what is not a column may become something
else. -/
def resolve (look : κ → Except String (Expr ι)) : Expr κ → Except String (Expr ι)
  | .literal v => .ok (.literal v)
  | .column c => look c
  | .abs arg => do return .abs (← resolve look arg)
  | .arith o lhs rhs => do return .arith o (← resolve look lhs) (← resolve look rhs)
  | .compare o lhs rhs => do return .compare o (← resolve look lhs) (← resolve look rhs)
  | .isNull arg => do return .isNull (← resolve look arg)
  | .isNotNull arg => do return .isNotNull (← resolve look arg)
  | .not arg => do return .not (← resolve look arg)
  | .and lhs rhs => do return .and (← resolve look lhs) (← resolve look rhs)
  | .or lhs rhs => do return .or (← resolve look lhs) (← resolve look rhs)

end Expr

end SqlRecords.Sqlite
