import SqlRecords.Decimal.Layout
import SqlRecords.Dialect.Type
import SqlRecords.Statement.Condition
import SqlRecords.Text.Integer

/-!
# Operations and conditions in each dialect

How the expressions of a statement are written. An operation is closed on both
sides: it is a literal, a name, a call or stands in parentheses, so that it can be
put next to an operator as it is. A comparison is not, which is why AND, OR and NOT
put parentheses around what they join.
-/

namespace SqlRecords.Dialect

open SqlRecords.Decimal SqlRecords.Text

/-! ### Literals and names -/

/-- A literal. Infinities and missing numbers have no literal and are written as NULL. -/
def literal : Value → Sql
  | .integer n => [.word (toString n.toInt)]
  | .float x => [.word (if (ofFloat x).isFinite then floatText x else "NULL")]
  | .string s => [.string s]

/-- A reference to a column, behind the name of its table if that is given. -/
def columnName (c : Column) : Sql :=
  match c.tableAlias with
  | some t => [.name t, .word ".", .name c.name]
  | none => [.name c.name]

/-! ### Functions -/

/-- The words up to the argument of a function. -/
def callOpening : Dialect → ScalarFunction → String
  | _, .abs => "abs("
  | _, .ceil => "ceil("
  | _, .cos => "cos("
  | _, .exp => "exp("
  | _, .floor => "floor("
  | .mysql, .length => "char_length("
  | _, .length => "length("
  | _, .ln => "ln("
  | .postgres, .log2 => "log(2.0, "
  | _, .log2 => "log2("
  | _, .lower => "lower("
  | _, .sin => "sin("
  | _, .sqrt => "sqrt("
  | _, .tan => "tan("
  | _, .upper => "upper("

/-- The letter of a date format that stands for a part. -/
def partFormat : DatePart → String
  | .day => "%d"
  | .hour => "%H"
  | .minute => "%M"
  | .month => "%m"
  | .second => "%S"
  | .unixEpoch => "%s"
  | .weekday => "%w"
  | .year => "%Y"

/-- The word that stands for a part of a date. -/
def partWord : DatePart → String
  | .day => "DAY"
  | .hour => "HOUR"
  | .minute => "MINUTE"
  | .month => "MONTH"
  | .second => "SECOND"
  | .unixEpoch => "EPOCH"
  | .weekday => "DOW"
  | .year => "YEAR"

/-- A number taken out of a date. -/
def part (d : Dialect) (p : DatePart) (arg : Sql) : Sql :=
  match d, p with
  | .sqlite, p =>
    .word "CAST(strftime(" :: .fixed (partFormat p) :: .word ", " :: arg ++ [.word ") AS INTEGER)"]
  | .postgres, p => Sql.between ("extract(" ++ partWord p ++ " FROM ") arg ")"
  | .mysql, .unixEpoch => Sql.between "UNIX_TIMESTAMP(" arg ")"
  | .mysql, .weekday => Sql.between "(DAYOFWEEK(" arg ") - 1)"
  | .mysql, p => Sql.between ("EXTRACT(" ++ partWord p ++ " FROM ") arg ")"

/-- The sign of an arithmetic operator. -/
def arithmeticSign : Arithmetic → String
  | .plus => "+"
  | .minus => "-"
  | .multiplies => "*"
  | .divides => "/"
  | .modulo => "%"

/-- Two numbers joined by an operator. Only SQLite has an operator for remainders. -/
def arith (d : Dialect) (o : Arithmetic) (lhs rhs : Sql) : Sql :=
  match d, o with
  | .mysql, .modulo | .postgres, .modulo =>
    .word "mod(" :: lhs ++ .word ", " :: rhs ++ [.word ")"]
  | _, o => .word "(" :: lhs ++ .word (" " ++ arithmeticSign o ++ " ") :: rhs ++ [.word ")"]

/-- A rounded number. PostgreSQL rounds exact numbers only. -/
def round (d : Dialect) (arg : Sql) (decimals : UInt32) : Sql :=
  match d with
  | .postgres =>
    Sql.between "round(CAST(" arg (" AS NUMERIC), " ++ toString decimals.toNat ++ ")")
  | .sqlite | .mysql => Sql.between "round(" arg (", " ++ toString decimals.toNat ++ ")")

/-- SQLite's function that removes characters from a side of a text. -/
def trimOpening : TrimSide → String
  | .leading => "ltrim("
  | .trailing => "rtrim("
  | .both => "trim("

/-- The word that stands for a side of a text. -/
def trimWord : TrimSide → String
  | .leading => "LEADING"
  | .trailing => "TRAILING"
  | .both => "BOTH"

/-- A text without some characters at its ends. -/
def trim (d : Dialect) (side : TrimSide) (arg : Sql) (chars : String) : Sql :=
  match d with
  | .sqlite => .word (trimOpening side) :: arg ++ [.word ", ", .string chars, .word ")"]
  | .mysql | .postgres =>
    .word ("TRIM(" ++ trimWord side ++ " ") :: .string chars :: .word " FROM " :: arg ++ [.word ")"]

/-- Texts one after the other. -/
def concat (d : Dialect) (args : List Sql) : Sql :=
  match d with
  | .mysql => Sql.between "CONCAT(" (Sql.commas args) ")"
  | .sqlite | .postgres => Sql.between "(" (Sql.separated " || " args) ")"

/-- The days from one date to another. -/
def daysBetween (d : Dialect) (start finish : Sql) : Sql :=
  match d with
  | .sqlite =>
    .word "CAST(julianday(" :: finish ++ .word ") - julianday(" :: start ++ [.word ") AS INTEGER)"]
  | .postgres =>
    .word "(CAST(" :: finish ++ .word " AS DATE) - CAST(" :: start ++ [.word " AS DATE))"]
  | .mysql => .word "DATEDIFF(" :: finish ++ .word ", " :: start ++ [.word ")"]

/-! ### Durations -/

/-- SQLite's modifier for a duration: a signed amount and a unit. It has no weeks, and counts
fractions of a second in seconds. -/
def modifier (u : Duration) : String :=
  let amount := u.amount.toInt
  match u.unit with
  | .years => signedInteger amount ++ " years"
  | .months => signedInteger amount ++ " months"
  | .weeks => signedInteger (amount * 7) ++ " days"
  | .days => signedInteger amount ++ " days"
  | .hours => signedInteger amount ++ " hours"
  | .minutes => signedInteger amount ++ " minutes"
  | .seconds => signedInteger amount ++ " seconds"
  | .milliseconds =>
    Layout.seconds.write (ofFloat (Float.ofInt amount / 1000.0)) ++ " seconds"
  | .microseconds =>
    Layout.seconds.write (ofFloat (Float.ofInt amount / 1000000.0)) ++ " seconds"

/-- The name of a unit inside a PostgreSQL interval. -/
def unitName : DurationUnit → String
  | .years => "years"
  | .months => "months"
  | .weeks => "weeks"
  | .days => "days"
  | .hours => "hours"
  | .minutes => "minutes"
  | .seconds => "seconds"
  | .milliseconds => "milliseconds"
  | .microseconds => "microseconds"

/-- The amount and unit of a MySQL interval, which has no milliseconds. -/
def intervalWords (u : Duration) : String :=
  let amount := u.amount.toInt
  match u.unit with
  | .years => toString amount ++ " YEAR"
  | .months => toString amount ++ " MONTH"
  | .weeks => toString amount ++ " WEEK"
  | .days => toString amount ++ " DAY"
  | .hours => toString amount ++ " HOUR"
  | .minutes => toString amount ++ " MINUTE"
  | .seconds => toString amount ++ " SECOND"
  | .milliseconds => toString (amount * 1000) ++ " MICROSECOND"
  | .microseconds => toString amount ++ " MICROSECOND"

/-- A date moved by some durations, the first one first. -/
def datePlus (d : Dialect) (date : Sql) (durations : List Duration) : Sql :=
  match d with
  | .sqlite =>
    Sql.between "datetime(" (Sql.commas (date :: durations.map fun u => [.fixed (modifier u)])) ")"
  | .postgres =>
    let interval (u : Duration) : Sql :=
      [.word "INTERVAL ", .fixed (toString u.amount.toInt ++ " " ++ unitName u.unit)]
    Sql.between "(" (Sql.separated " + " (date :: durations.map interval)) ")"
  | .mysql =>
    durations.foldl
      (fun moved u => Sql.between "DATE_ADD(" moved (", INTERVAL " ++ intervalWords u ++ ")")) date

/-! ### Aggregates -/

/-- What an aggregate ranges over. -/
def operand : Operand → Sql
  | .column c => columnName c
  | .value v => literal v

/-- The words up to the operand of an aggregate. -/
def aggregateOpening : AggregateFunction → String
  | .avg => "AVG("
  | .max => "MAX("
  | .min => "MIN("
  | .sum => "SUM("

/-- An aggregate. -/
def aggregation : Aggregation → Sql
  | .of f x => Sql.between (aggregateOpening f) (operand x) ")"
  | .count _ none => [.word "COUNT(*)"]
  | .count true (some x) => Sql.between "COUNT(DISTINCT " (operand x) ")"
  | .count false (some x) => Sql.between "COUNT(" (operand x) ")"

/-! ### Operations -/

mutual

/-- An operation. -/
def operation (d : Dialect) : Operation → Sql
  | .call f arg => Sql.between (d.callOpening f) (d.operation arg) ")"
  | .part p arg => d.part p (d.operation arg)
  | .arith o lhs rhs => d.arith o (d.operation lhs) (d.operation rhs)
  | .cast arg kind => Sql.between "CAST(" (d.operation arg) (" AS " ++ d.castName kind ++ ")")
  | .coalesce args => Sql.between "coalesce(" (Sql.commas (d.operations args)) ")"
  | .concat args => d.concat (d.operations args)
  | .datePlus date durations => d.datePlus (d.operation date) durations
  | .daysBetween start finish => d.daysBetween (d.operation start) (d.operation finish)
  | .replaceAll arg piece substitute =>
    Sql.between "replace("
      (Sql.commas [d.operation arg, d.operation piece, d.operation substitute]) ")"
  | .round arg decimals => d.round (d.operation arg) decimals
  | .trim side arg chars => d.trim side (d.operation arg) chars
  | .aggregate a => aggregation a
  | .column c => columnName c
  | .value v => literal v

/-- Operations one by one. -/
def operations (d : Dialect) : List Operation → List Sql
  | [] => []
  | op :: rest => d.operation op :: d.operations rest

end

/-! ### Conditions -/

/-- The sign of a comparison. -/
def comparisonSign : Comparison → String
  | .equal => "="
  | .notEqual => "!="
  | .less => "<"
  | .lessEqual => "<="
  | .greater => ">"
  | .greaterEqual => ">="

/-- A condition. -/
def condition (d : Dialect) : Condition → Sql
  | .and lhs rhs =>
    .word "(" :: d.condition lhs ++ .word ") AND (" :: d.condition rhs ++ [.word ")"]
  | .or lhs rhs => .word "(" :: d.condition lhs ++ .word ") OR (" :: d.condition rhs ++ [.word ")"]
  | .not c => Sql.between "NOT (" (d.condition c) ")"
  | .compare o lhs rhs =>
    d.operation lhs ++ .word (" " ++ comparisonSign o ++ " ") :: d.operation rhs
  | .isNull arg => d.operation arg ++ [.word " IS NULL"]
  | .isNotNull arg => d.operation arg ++ [.word " IS NOT NULL"]
  | .like arg pattern => d.operation arg ++ [.word " LIKE ", .string pattern]
  | .notLike arg pattern => d.operation arg ++ [.word " NOT LIKE ", .string pattern]

end SqlRecords.Dialect
