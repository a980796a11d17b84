import SqlRecords.Statement.Table
import SqlRecords.Statement.Value

/-!
# Operations

The expressions of a statement: columns, literals, arithmetic, scalar functions,
parts of dates, date arithmetic and aggregates, nested to any depth. Functions that
are written alike share a constructor (`Operation.call`, `Operation.part`,
`Operation.arith`, `Operation.trim`), so that what differs between dialects is a
table of names.
-/

namespace SqlRecords

/-- A unit of time that can be added to a date. -/
inductive DurationUnit where
  | years
  | months
  | weeks
  | days
  | hours
  | minutes
  | seconds
  | milliseconds
  | microseconds
  deriving DecidableEq, Repr, Inhabited

/-- The units of time, each once. -/
def DurationUnit.all : List DurationUnit :=
  [.years, .months, .weeks, .days, .hours, .minutes, .seconds, .milliseconds, .microseconds]

/-- An amount of time, forward or back. -/
structure Duration where
  /-- The unit. -/
  unit : DurationUnit
  /-- How many of it. -/
  amount : Int64
  deriving DecidableEq, Repr, Inhabited

/-- The scalar functions of one argument. -/
inductive ScalarFunction where
  | abs
  | ceil
  | cos
  | exp
  | floor
  | length
  | ln
  | log2
  | lower
  | sin
  | sqrt
  | tan
  | upper
  deriving DecidableEq, Repr, Inhabited

/-- The scalar functions, each once. -/
def ScalarFunction.all : List ScalarFunction :=
  [.abs, .ceil, .cos, .exp, .floor, .length, .ln, .log2, .lower, .sin, .sqrt, .tan, .upper]

/-- The numbers that can be taken out of a date. -/
inductive DatePart where
  | day
  | hour
  | minute
  | month
  | second
  /-- Seconds since the start of 1970. -/
  | unixEpoch
  /-- Days since Sunday. -/
  | weekday
  | year
  deriving DecidableEq, Repr, Inhabited

/-- The parts of a date, each once. -/
def DatePart.all : List DatePart :=
  [.day, .hour, .minute, .month, .second, .unixEpoch, .weekday, .year]

/-- The arithmetic operators. -/
inductive Arithmetic where
  | plus
  | minus
  | multiplies
  | divides
  | modulo
  deriving DecidableEq, Repr, Inhabited

/-- The arithmetic operators, each once. -/
def Arithmetic.all : List Arithmetic := [.plus, .minus, .multiplies, .divides, .modulo]

/-- The end of a text that characters are removed from. -/
inductive TrimSide where
  | leading
  | trailing
  | both
  deriving DecidableEq, Repr, Inhabited

/-- The sides of a text, each once. -/
def TrimSide.all : List TrimSide := [.leading, .trailing, .both]

/-- What an aggregate ranges over. -/
inductive Operand where
  | column (c : Column)
  | value (v : Value)
  deriving DecidableEq, Repr, Inhabited

/-- The aggregates that condense an operand over a group of rows. -/
inductive AggregateFunction where
  | avg
  | max
  | min
  | sum
  deriving DecidableEq, Repr, Inhabited

/-- The aggregate functions, each once. -/
def AggregateFunction.all : List AggregateFunction := [.avg, .max, .min, .sum]

/-- A number computed from a group of rows. -/
inductive Aggregation where
  /-- An aggregate of an operand. -/
  | of (f : AggregateFunction) (operand : Operand)
  /-- The number of rows, or of values of an operand, or of different values of it. -/
  | count (distinct : Bool) (operand : Option Operand)
  deriving DecidableEq, Repr, Inhabited

/-- The number of rows. -/
def Aggregation.countAll : Aggregation := .count false none

/-- The number of different values of a column. -/
def Aggregation.countDistinct (c : Column) : Aggregation := .count true (some (.column c))

/-- An expression of a statement. -/
inductive Operation where
  /-- A scalar function of one argument. -/
  | call (f : ScalarFunction) (arg : Operation)
  /-- A number taken out of a date. -/
  | part (p : DatePart) (arg : Operation)
  /-- Two numbers joined by an operator. -/
  | arith (o : Arithmetic) (lhs rhs : Operation)
  /-- The value turned into another kind. -/
  | cast (arg : Operation) (kind : Kind)
  /-- The first of the values that is not NULL. -/
  | coalesce (args : List Operation)
  /-- The texts one after the other. -/
  | concat (args : List Operation)
  /-- A date moved by some durations, one after the other. -/
  | datePlus (date : Operation) (durations : List Duration)
  /-- The days from one date to another. -/
  | daysBetween (start finish : Operation)
  /-- A text with every occurrence of a piece replaced. -/
  | replaceAll (arg piece substitute : Operation)
  /-- A number rounded to some decimals. -/
  | round (arg : Operation) (decimals : UInt32)
  /-- A text without the given characters at its ends. -/
  | trim (side : TrimSide) (arg : Operation) (chars : String)
  | aggregate (a : Aggregation)
  | column (c : Column)
  | value (v : Value)
  deriving Repr, Inhabited

end SqlRecords
