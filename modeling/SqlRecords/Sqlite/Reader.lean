import SqlRecords.Sqlite.Expression
import SqlRecords.Sqlite.Lexeme

/-!
# Reading expressions

An expression is read from its lexemes by the precedence of operators: OR binds
loosest, then AND, NOT, equality and tests for NULL, the order comparisons, plus and
minus, times. Operators of one precedence group to the left.
-/

namespace SqlRecords.Sqlite

/-- A column as a statement mentions it. -/
structure ColumnName where
  /-- The table in front of it. -/
  table : Option String
  /-- Its own name. -/
  name : String
  deriving DecidableEq, Repr

/-- An expression as it is written. -/
abbrev Written := Expr ColumnName

namespace Written

/-- How tightly an operator binds. -/
def orLevel : Nat := 1

@[inherit_doc orLevel] def andLevel : Nat := 2

@[inherit_doc orLevel] def notLevel : Nat := 3

@[inherit_doc orLevel] def equalLevel : Nat := 4

@[inherit_doc orLevel] def orderLevel : Nat := 5

@[inherit_doc orLevel] def sumLevel : Nat := 6

@[inherit_doc orLevel] def productLevel : Nat := 7

@[inherit_doc orLevel] def signLevel : Nat := 8

/-- An operator between two expressions, and how tightly it binds. -/
def infixOf? : Lexeme → Option (Nat × (Written → Written → Written))
  | .word "or" => some (orLevel, .or)
  | .word "and" => some (andLevel, .and)
  | .sign "=" | .sign "==" => some (equalLevel, .compare .equal)
  | .sign "!=" | .sign "<>" => some (equalLevel, .compare .notEqual)
  | .sign "<" => some (orderLevel, .compare .less)
  | .sign "<=" => some (orderLevel, .compare .lessEqual)
  | .sign ">" => some (orderLevel, .compare .greater)
  | .sign ">=" => some (orderLevel, .compare .greaterEqual)
  | .sign "+" => some (sumLevel, .arith .plus)
  | .sign "-" => some (sumLevel, .arith .minus)
  | .sign "*" => some (productLevel, .arith .multiplies)
  | _ => none

/-- An operator behind an expression, how tightly it binds, and what follows it. -/
def postfixOf? : List Lexeme → Option (Nat × (Written → Written) × List Lexeme)
  | .word "is" :: .word "null" :: rest => some (equalLevel, .isNull, rest)
  | .word "is" :: .word "not" :: .word "null" :: rest => some (equalLevel, .isNotNull, rest)
  | _ => none

/-- A number as a literal: an integer where it is whole and fits, else a real. -/
def numberLiteral (negative whole : Bool) (value : Decimal.Scientific) : Stored :=
  let n : Int := if negative then -(value.digits : Int) else value.digits
  if whole && fits n then .integer (Int64.ofInt n)
  else .ofFloat { value with negative }.toFloat

mutual

/-- Reads an expression that begins with an operand or an operator in front of one; also what
follows. -/
def readOperand : Nat → List Lexeme → Option (Written × List Lexeme)
  | steps + 1, .sign "(" :: rest =>
    match readFrom steps 0 rest with
    | some (e, .sign ")" :: rest) => some (e, rest)
    | _ => none
  | _ + 1, .sign "-" :: .number whole value :: rest =>
    some (.literal (numberLiteral true whole value), rest)
  | steps + 1, .sign "-" :: rest =>
    (readFrom steps signLevel rest).map fun (e, rest) =>
      (.arith .minus (.literal (.integer 0)) e, rest)
  | _ + 1, .number whole value :: rest => some (.literal (numberLiteral false whole value), rest)
  | _ + 1, .string s :: rest => some (.literal (.text s), rest)
  | _ + 1, .name t :: .sign "." :: .name n :: rest => some (.column ⟨some t, n⟩, rest)
  | _ + 1, .name n :: rest => some (.column ⟨none, n⟩, rest)
  | _ + 1, .word "null" :: rest => some (.literal .null, rest)
  | steps + 1, .word "not" :: rest =>
    (readFrom steps notLevel rest).map fun (e, rest) => (.not e, rest)
  | steps + 1, .word "abs" :: .sign "(" :: rest =>
    match readFrom steps 0 rest with
    | some (e, .sign ")" :: rest) => some (.abs e, rest)
    | _ => none
  | _, _ => none

/-- Reads the operators behind an expression that bind at least as tightly as `level`. -/
def readOperators : Nat → Nat → Written → List Lexeme → Option (Written × List Lexeme)
  | 0, _, _, _ => none
  | steps + 1, level, e, lexemes =>
    match postfixOf? lexemes with
    | some (l, build, rest) =>
      if level ≤ l then readOperators steps level (build e) rest else some (e, lexemes)
    | none =>
      match lexemes with
      | [] => some (e, [])
      | operator :: rest =>
        match infixOf? operator with
        | some (l, build) =>
          if level ≤ l then
            match readFrom steps (l + 1) rest with
            | some (right, rest) => readOperators steps level (build e right) rest
            | none => none
          else some (e, lexemes)
        | none => some (e, lexemes)

/-- Reads an expression whose operators bind at least as tightly as `level`. -/
def readFrom : Nat → Nat → List Lexeme → Option (Written × List Lexeme)
  | 0, _, _ => none
  | steps + 1, level, lexemes =>
    match readOperand steps lexemes with
    | some (e, rest) => readOperators steps level e rest
    | none => none

end

/-- The expression that a text spells. Each lexeme takes three steps at most. -/
def ofText? (s : String) : Option Written := do
  let lexemes ← Lexeme.read s.toList
  match readFrom (3 * lexemes.length + 3) 0 lexemes with
  | some (e, []) => some e
  | _ => none

end Written

end SqlRecords.Sqlite
