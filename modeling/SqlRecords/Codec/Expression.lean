import SqlRecords.Codec.Type
import SqlRecords.Statement.Condition

/-!
# The JSON form of operations and conditions

Every function and operator is a variant with a name of its own.
-/

namespace SqlRecords.Codec

/-! ### Names -/

/-- The name of a unit of time. -/
def unitTag : DurationUnit → String
  | .years => "Years"
  | .months => "Months"
  | .weeks => "Weeks"
  | .days => "Days"
  | .hours => "Hours"
  | .minutes => "Minutes"
  | .seconds => "Seconds"
  | .milliseconds => "Milliseconds"
  | .microseconds => "Microseconds"

/-- The name of a scalar function. -/
def functionTag : ScalarFunction → String
  | .abs => "Abs"
  | .ceil => "Ceil"
  | .cos => "Cos"
  | .exp => "Exp"
  | .floor => "Floor"
  | .length => "Length"
  | .ln => "Ln"
  | .log2 => "Log2"
  | .lower => "Lower"
  | .sin => "Sin"
  | .sqrt => "Sqrt"
  | .tan => "Tan"
  | .upper => "Upper"

/-- The name of a part of a date. -/
def partTag : DatePart → String
  | .day => "Day"
  | .hour => "Hour"
  | .minute => "Minute"
  | .month => "Month"
  | .second => "Second"
  | .unixEpoch => "Unixepoch"
  | .weekday => "Weekday"
  | .year => "Year"

/-- The name of an arithmetic operator. -/
def arithmeticTag : Arithmetic → String
  | .plus => "Plus"
  | .minus => "Minus"
  | .multiplies => "Multiplies"
  | .divides => "Divides"
  | .modulo => "Mod"

/-- The name of a removal of characters. -/
def trimTag : TrimSide → String
  | .leading => "Ltrim"
  | .trailing => "Rtrim"
  | .both => "Trim"

/-- The name of an aggregate function. -/
def aggregateTag : AggregateFunction → String
  | .avg => "Avg"
  | .max => "Max"
  | .min => "Min"
  | .sum => "Sum"

/-- The name of a comparison. -/
def comparisonTag : Comparison → String
  | .equal => "Equal"
  | .notEqual => "NotEqual"
  | .less => "LesserThan"
  | .lessEqual => "LesserEqual"
  | .greater => "GreaterThan"
  | .greaterEqual => "GreaterEqual"

/-! ### Durations and aggregates -/

/-- The fields of a duration. -/
def durationFields : List String := ["unit", "amount"]

/-- Reads a unit of time. -/
def unit? : Decoder DurationUnit := tagged? DurationUnit.all unitTag

/-- Reads a duration. -/
def duration? : Decoder Duration := fun j => do
  return {
    unit := ← required? durationFields "unit" unit? j
    amount := ← required? durationFields "amount" int64? j }

/-- Writes a duration. -/
def ofDuration (u : Duration) : Json :=
  .obj [("unit", .str (unitTag u.unit)), ("amount", .int u.amount.toInt)]

/-- Reads the operand of an aggregate. -/
def operand? : Decoder Operand := fun j => do
  let (name, ⟨content, _⟩) ← j.variant?
  match name with
  | "Column" => (column? content).map .column
  | "Value" => (value? content).map .value
  | _ => none

/-- Writes the operand of an aggregate. -/
def ofOperand : Operand → Json
  | .column c => ofVariant "Column" (ofColumn c)
  | .value v => ofVariant "Value" (ofValue v)

/-- Reads an aggregate. -/
def aggregation? : Decoder Aggregation := fun j => do
  let (name, ⟨content, _⟩) ← j.variant?
  if name == "Count" then
    return .count (← named? "distinct" bool? content)
      (← optionalNamed? "operand" operand? content)
  else
    let f ← AggregateFunction.all.find? fun f => aggregateTag f == name
    return .of f (← operand? content)

/-- Writes an aggregate. -/
def ofAggregation : Aggregation → Json
  | .of f x => ofVariant (aggregateTag f) (ofOperand x)
  | .count distinct x =>
    ofVariant "Count" (.obj [("distinct", .bool distinct), ("operand", ofOption ofOperand x)])

/-! ### Operations -/

/-- Reads an operation. -/
def operation? (j : Json) : Option Operation := do
  let (name, ⟨content, _⟩) ← j.variant?
  match ScalarFunction.all.find? fun f => functionTag f == name with
  | some f => return .call f (← operation? content)
  | none =>
  match DatePart.all.find? fun p => partTag p == name with
  | some p => return .part p (← operation? content)
  | none =>
  match Arithmetic.all.find? fun o => arithmeticTag o == name with
  | some o =>
    let ⟨lhs, _⟩ ← content.named? "lhs"
    let ⟨rhs, _⟩ ← content.named? "rhs"
    return .arith o (← operation? lhs) (← operation? rhs)
  | none =>
  match TrimSide.all.find? fun s => trimTag s == name with
  | some side =>
    let ⟨arg, _⟩ ← content.named? "op"
    return .trim side (← operation? arg) (← named? "chars" string? content)
  | none =>
  match name with
  | "Cast" =>
    let ⟨arg, _⟩ ← content.named? "op"
    return .cast (← operation? arg) (← named? "to" kind? content)
  | "Coalesce" => return .coalesce (← (← content.parts?).mapM fun ⟨item, _⟩ => operation? item)
  | "Concat" => return .concat (← (← content.parts?).mapM fun ⟨item, _⟩ => operation? item)
  | "DatePlusDuration" =>
    let ⟨date, _⟩ ← content.named? "date"
    return .datePlus (← operation? date)
      (← named? "durations" (list? duration?) content)
  | "DaysBetween" =>
    let ⟨start, _⟩ ← content.named? "from"
    let ⟨finish, _⟩ ← content.named? "to"
    return .daysBetween (← operation? start) (← operation? finish)
  | "Replace" =>
    let ⟨arg, _⟩ ← content.named? "op"
    let ⟨piece, _⟩ ← content.named? "from"
    let ⟨substitute, _⟩ ← content.named? "to"
    return .replaceAll (← operation? arg) (← operation? piece) (← operation? substitute)
  | "Round" =>
    let ⟨arg, _⟩ ← content.named? "op"
    return .round (← operation? arg) (← named? "decimals" uint32? content)
  | "Aggregate" => return .aggregate (← aggregation? content)
  | "Column" => return .column (← column? content)
  | "Value" => return .value (← value? content)
  | _ => none
termination_by sizeOf j

mutual

/-- Writes an operation. -/
def ofOperation : Operation → Json
  | .call f arg => ofVariant (functionTag f) (ofOperation arg)
  | .part p arg => ofVariant (partTag p) (ofOperation arg)
  | .arith o lhs rhs =>
    ofVariant (arithmeticTag o) (.obj [("lhs", ofOperation lhs), ("rhs", ofOperation rhs)])
  | .cast arg kind => ofVariant "Cast" (.obj [("op", ofOperation arg), ("to", ofKind kind)])
  | .coalesce args => ofVariant "Coalesce" (.arr (ofOperations args))
  | .concat args => ofVariant "Concat" (.arr (ofOperations args))
  | .datePlus date durations =>
    ofVariant "DatePlusDuration"
      (.obj [("date", ofOperation date), ("durations", ofList ofDuration durations)])
  | .daysBetween start finish =>
    ofVariant "DaysBetween" (.obj [("from", ofOperation start), ("to", ofOperation finish)])
  | .replaceAll arg piece substitute =>
    ofVariant "Replace"
      (.obj [("op", ofOperation arg), ("from", ofOperation piece), ("to", ofOperation substitute)])
  | .round arg decimals =>
    ofVariant "Round" (.obj [("op", ofOperation arg), ("decimals", .int decimals.toNat)])
  | .trim side arg chars =>
    ofVariant (trimTag side) (.obj [("op", ofOperation arg), ("chars", .str chars)])
  | .aggregate a => ofVariant "Aggregate" (ofAggregation a)
  | .column c => ofVariant "Column" (ofColumn c)
  | .value v => ofVariant "Value" (ofValue v)

/-- Writes operations one by one. -/
def ofOperations : List Operation → List Json
  | [] => []
  | op :: rest => ofOperation op :: ofOperations rest

end

/-! ### Conditions -/

/-- Reads a condition. -/
def condition? (j : Json) : Option Condition := do
  let (name, ⟨content, _⟩) ← j.variant?
  match Comparison.all.find? fun o => comparisonTag o == name with
  | some o =>
    return .compare o (← named? "lhs" operation? content)
      (← named? "rhs" operation? content)
  | none =>
  match name with
  | "And" =>
    let ⟨lhs, _⟩ ← content.named? "lhs"
    let ⟨rhs, _⟩ ← content.named? "rhs"
    return .and (← condition? lhs) (← condition? rhs)
  | "Or" =>
    let ⟨lhs, _⟩ ← content.named? "lhs"
    let ⟨rhs, _⟩ ← content.named? "rhs"
    return .or (← condition? lhs) (← condition? rhs)
  | "Not" => return .not (← condition? content)
  | "IsNull" => return .isNull (← operation? content)
  | "IsNotNull" => return .isNotNull (← operation? content)
  | "Like" =>
    return .like (← named? "op" operation? content)
      (← named? "pattern" string? content)
  | "NotLike" =>
    return .notLike (← named? "op" operation? content)
      (← named? "pattern" string? content)
  | _ => none
termination_by sizeOf j

/-- Writes a condition. -/
def ofCondition : Condition → Json
  | .and lhs rhs => ofVariant "And" (.obj [("lhs", ofCondition lhs), ("rhs", ofCondition rhs)])
  | .or lhs rhs => ofVariant "Or" (.obj [("lhs", ofCondition lhs), ("rhs", ofCondition rhs)])
  | .not c => ofVariant "Not" (ofCondition c)
  | .compare o lhs rhs =>
    ofVariant (comparisonTag o) (.obj [("lhs", ofOperation lhs), ("rhs", ofOperation rhs)])
  | .isNull arg => ofVariant "IsNull" (ofOperation arg)
  | .isNotNull arg => ofVariant "IsNotNull" (ofOperation arg)
  | .like arg pattern =>
    ofVariant "Like" (.obj [("op", ofOperation arg), ("pattern", .str pattern)])
  | .notLike arg pattern =>
    ofVariant "NotLike" (.obj [("op", ofOperation arg), ("pattern", .str pattern)])

end SqlRecords.Codec
