import SqlRecords.Codec.Expression
import SqlRecords.Proofs.Codec.Respelling

/-!
# Types, operations and conditions are read back

Whatever is written as JSON is understood by its reader (`Codec.Reads`): types and columns as
they are, operations and conditions as long as the floating point literals in them are numbers
that JSON has. The literals of an operation are listed by `Operation.literals`, those of a
condition by `Condition.literals`.

## What is proved

* `Codec.reads_type`, `Codec.reads_table`, `Codec.reads_column`.
* **`Codec.reads_operation`**: an operation, nested to any depth.
* **`Codec.reads_condition`**: a condition, nested to any depth.
-/

namespace SqlRecords

/-! ### Literals -/

/-- The literal is a number that JSON has, or no floating point number at all. -/
def Value.isFinite : Value → Bool
  | .float x => x.isFinite
  | _ => true

/-- The literals of an operand. -/
def Operand.literals : Operand → List Value
  | .column _ => []
  | .value v => [v]

/-- The literals of an aggregate. -/
def Aggregation.literals : Aggregation → List Value
  | .of _ x => x.literals
  | .count _ x => x.toList.flatMap Operand.literals

mutual

/-- The literals of an operation. -/
def Operation.literals : Operation → List Value
  | .call _ arg | .part _ arg | .cast arg _ | .datePlus arg _ | .round arg _ | .trim _ arg _ =>
    arg.literals
  | .arith _ lhs rhs => lhs.literals ++ rhs.literals
  | .coalesce args | .concat args => Operation.allLiterals args
  | .daysBetween start finish => start.literals ++ finish.literals
  | .replaceAll arg piece substitute => arg.literals ++ piece.literals ++ substitute.literals
  | .aggregate a => a.literals
  | .column _ => []
  | .value v => [v]

/-- The literals of some operations. -/
def Operation.allLiterals : List Operation → List Value
  | [] => []
  | op :: rest => op.literals ++ Operation.allLiterals rest

end

/-- The literals of a condition. -/
def Condition.literals : Condition → List Value
  | .and lhs rhs | .or lhs rhs => lhs.literals ++ rhs.literals
  | .not c => c.literals
  | .compare _ lhs rhs => lhs.literals ++ rhs.literals
  | .isNull arg | .isNotNull arg | .like arg _ | .notLike arg _ => arg.literals

namespace Codec

open Json

/-! ### Types, tables and columns -/

theorem reads_reference (r : Reference) : Reads reference? (ofReference r) r :=
  .ofMembers referenceFields (by decide) rfl fun h => by
    rw [reference?, required_of_reads h rfl (reads_string _),
      required_of_reads h rfl (reads_string _)]
    rfl

theorem reads_properties (p : Properties) : Reads properties? (ofProperties p) p :=
  .ofMembers propertyFields (by decide) rfl fun h => by
    rw [properties?, required_of_reads h rfl (reads_bool _), required_of_reads h rfl (reads_bool _),
      required_of_reads h rfl (reads_bool _), required_of_reads h rfl (reads_bool _),
      optional_of_reads h rfl fun _ _ => reads_reference _]
    rfl

theorem reads_kind (k : Kind) : Reads kind? (ofKind k) k := by
  cases k with
  | varchar n =>
    refine .ofVariant fun hj => ?_
    have hread := (reads_uint32 n).read hj
    -- The length is no `null`, so the object is not taken for a name without content.
    cases hj
    simp only [kind?, ofVariant, tagged?, tag?, variant?, Option.bind_eq_bind, Option.bind_none,
      Option.bind_some]
    rw [hread]
    rfl
  | _ => exact .ofScalar rfl nofun rfl

theorem reads_type (t : ColumnType) : Reads type? (ofType t) t :=
  .ofMembers typeFields (by decide) rfl fun h => by
    rw [type?, required_of_reads h rfl (reads_kind _), required_of_reads h rfl (reads_properties _)]
    rfl

theorem reads_table (t : Table) : Reads table? (ofTable t) t :=
  .ofMembers tableFields (by decide) rfl fun h => by
    rw [table?, required_of_reads h rfl (reads_string _),
      optional_of_reads h rfl fun _ _ => reads_string _,
      optional_of_reads h rfl fun _ _ => reads_string _]
    rfl

theorem reads_column (c : Column) : Reads column? (ofColumn c) c :=
  .ofMembers columnFields (by decide) rfl fun h => by
    rw [column?, required_of_reads h rfl (reads_string _),
      optional_of_reads h rfl fun _ _ => reads_string _,
      optional_of_reads h rfl fun _ _ => reads_string _,
      required_of_reads h rfl (reads_type _)]
    rfl

/-! ### Literals, durations and aggregates -/

theorem reads_float {x : Float} (h : x.isFinite) :
    Reads float? (if x.isFinite then .float x else .null) x := by
  rw [if_pos h]
  exact .ofScalar rfl nofun rfl

theorem reads_value {v : Value} (h : v.isFinite) : Reads value? (ofValue v) v := by
  cases v with
  | integer n => exact .ofContent Value.integer (fun _ => Option.map_eq_bind) (reads_int64 n)
  | float x => exact .ofContent Value.float (fun _ => Option.map_eq_bind) (reads_float h)
  | string s => exact .ofContent Value.string (fun _ => Option.map_eq_bind) (reads_string s)

theorem reads_unit (u : DurationUnit) : Reads unit? (.str (unitTag u)) u :=
  reads_tag (by cases u <;> rfl)

theorem reads_duration (u : Duration) : Reads duration? (ofDuration u) u :=
  .ofMembers durationFields (by decide) rfl fun h => by
    rw [duration?, required_of_reads h rfl (reads_unit _), required_of_reads h rfl (reads_int64 _)]
    rfl

theorem reads_operand {x : Operand} (h : ∀ v ∈ x.literals, v.isFinite) :
    Reads operand? (ofOperand x) x := by
  cases x with
  | column c => exact .ofContent Operand.column (fun _ => Option.map_eq_bind) (reads_column c)
  | value v =>
    have hfinite : v.isFinite := h v List.mem_cons_self
    exact .ofContent Operand.value (fun _ => Option.map_eq_bind) (reads_value hfinite)

theorem reads_aggregation {a : Aggregation} (h : ∀ v ∈ a.literals, v.isFinite) :
    Reads aggregation? (ofAggregation a) a := by
  cases a with
  | of f x =>
    refine .ofContent (Aggregation.of f) (fun content => ?_) (reads_operand h)
    cases f <;> rfl
  | count distinct x =>
    have hoperand : ∀ o ∈ x, Reads operand? (ofOperand o) o := by
      intro o ho
      exact reads_operand (List.forall_mem_flatMap.mp h o (Option.mem_toList.mpr ho))
    refine .ofVariant fun {content} hj => ?_
    obtain ⟨members', rfl, hmembers⟩ := exists_members ["distinct", "operand"] (by decide) rfl hj
    have hdecode : aggregation? (ofVariant "Count" (.obj members')) = (do
        return .count (← Codec.named? "distinct" bool? (.obj members'))
          (← optionalNamed? "operand" operand? (.obj members'))) := rfl
    rw [hdecode, named_of_reads hmembers rfl (reads_bool distinct),
      optionalNamed_of_reads hmembers rfl hoperand]
    rfl

/-! ### Operations -/

mutual

theorem reads_operation : ∀ op : Operation, (∀ v ∈ op.literals, v.isFinite) →
    Reads operation? (ofOperation op) op
  | .call f arg, h => by
    refine .ofContent (Operation.call f) (fun content => ?_) (reads_operation arg h)
    rw [operation?]
    cases f <;> rfl
  | .part p arg, h => by
    refine .ofContent (Operation.part p) (fun content => ?_) (reads_operation arg h)
    rw [operation?]
    cases p <;> rfl
  | .arith o lhs rhs, h => .ofVariant fun {content} hj => by
    obtain ⟨hlhs, hrhs⟩ := List.forall_mem_append.mp h
    have hlhs := reads_operation lhs hlhs
    have hrhs := reads_operation rhs hrhs
    obtain ⟨members', rfl, hmembers⟩ := exists_members ["lhs", "rhs"] (by decide) rfl hj
    have hparts := bind_both_of_reads "lhs" "rhs" hmembers rfl rfl hlhs hrhs
      fun x y => some (Operation.arith o x y)
    rw [operation?]
    cases o <;> exact hparts
  | .cast arg kind, h => .ofVariant fun {content} hj => by
    have harg := reads_operation arg h
    obtain ⟨members', rfl, hmembers⟩ := exists_members ["op", "to"] (by decide) rfl hj
    have hparts := bind_named_of_reads "op" hmembers rfl harg fun x => do
      return Operation.cast x (← Codec.named? "to" kind? (.obj members'))
    rw [operation?]
    refine hparts.trans ?_
    rw [named_of_reads hmembers rfl (reads_kind kind)]
    rfl
  | .coalesce args, h => by
    refine .ofContent Operation.coalesce (fun content => ?_) (.ofItems (reads_operations args h))
    rw [operation?]
    exact parts_bind operation? _ content
  | .concat args, h => by
    refine .ofContent Operation.concat (fun content => ?_) (.ofItems (reads_operations args h))
    rw [operation?]
    exact parts_bind operation? _ content
  | .datePlus date durations, h => .ofVariant fun {content} hj => by
    have hdate := reads_operation date h
    obtain ⟨members', rfl, hmembers⟩ := exists_members ["date", "durations"] (by decide) rfl hj
    have hparts := bind_named_of_reads "date" hmembers rfl hdate fun x => do
      return Operation.datePlus x (← Codec.named? "durations" (list? duration?) (.obj members'))
    rw [operation?]
    refine hparts.trans ?_
    rw [named_of_reads hmembers rfl (.ofList fun u _ => reads_duration u)]
    rfl
  | .daysBetween start finish, h => .ofVariant fun {content} hj => by
    obtain ⟨hstart, hfinish⟩ := List.forall_mem_append.mp h
    have hstart := reads_operation start hstart
    have hfinish := reads_operation finish hfinish
    obtain ⟨members', rfl, hmembers⟩ := exists_members ["from", "to"] (by decide) rfl hj
    rw [operation?]
    exact bind_both_of_reads "from" "to" hmembers rfl rfl hstart hfinish
      fun x y => some (Operation.daysBetween x y)
  | .replaceAll arg piece substitute, h => .ofVariant fun {content} hj => by
    obtain ⟨hfirst, hsubstitute⟩ := List.forall_mem_append.mp h
    obtain ⟨harg, hpiece⟩ := List.forall_mem_append.mp hfirst
    have harg := reads_operation arg harg
    have hpiece := reads_operation piece hpiece
    have hsubstitute := reads_operation substitute hsubstitute
    obtain ⟨members', rfl, hmembers⟩ := exists_members ["op", "from", "to"] (by decide) rfl hj
    obtain ⟨r, hr, hrj⟩ := exists_named "to" hmembers rfl hsubstitute.ne_null
    have hdecode : operation? (ofVariant "Replace" (.obj members')) = (do
        let p ← (Json.obj members').named? "op"
        let q ← (Json.obj members').named? "from"
        let r ← (Json.obj members').named? "to"
        return .replaceAll (← operation? p.1) (← operation? q.1) (← operation? r.1)) := by
      rw [operation?]
      rfl
    have hparts := bind_both_of_reads "op" "from" hmembers rfl rfl harg hpiece fun x y => do
      return Operation.replaceAll x y (← operation? r.1)
    rw [hdecode, hr]
    refine hparts.trans ?_
    rw [hsubstitute.read hrj]
    rfl
  | .round arg decimals, h => .ofVariant fun {content} hj => by
    have harg := reads_operation arg h
    obtain ⟨members', rfl, hmembers⟩ := exists_members ["op", "decimals"] (by decide) rfl hj
    have hparts := bind_named_of_reads "op" hmembers rfl harg fun x => do
      return Operation.round x (← Codec.named? "decimals" uint32? (.obj members'))
    rw [operation?]
    refine hparts.trans ?_
    rw [named_of_reads hmembers rfl (reads_uint32 decimals)]
    rfl
  | .trim side arg chars, h => .ofVariant fun {content} hj => by
    have harg := reads_operation arg h
    obtain ⟨members', rfl, hmembers⟩ := exists_members ["op", "chars"] (by decide) rfl hj
    have hparts := bind_named_of_reads "op" hmembers rfl harg fun x => do
      return Operation.trim side x (← Codec.named? "chars" string? (.obj members'))
    have hread : operation? (ofVariant (trimTag side) (.obj members')) = (do
        return .trim side arg (← Codec.named? "chars" string? (.obj members'))) := by
      rw [operation?]
      cases side <;> exact hparts
    rw [hread, named_of_reads hmembers rfl (reads_string chars)]
    rfl
  | .aggregate a, h => by
    refine .ofContent Operation.aggregate (fun content => ?_) (reads_aggregation h)
    rw [operation?]
    rfl
  | .column c, _ => by
    refine .ofContent Operation.column (fun content => ?_) (reads_column c)
    rw [operation?]
    rfl
  | .value v, h => by
    refine .ofContent Operation.value (fun content => ?_) (reads_value (h v List.mem_cons_self))
    rw [operation?]
    rfl
termination_by structural op => op

theorem reads_operations : ∀ ops : List Operation,
    (∀ v ∈ Operation.allLiterals ops, v.isFinite) →
    List.Forall₂ (Reads operation?) (ofOperations ops) ops
  | [], _ => .nil
  | op :: rest, h => by
    obtain ⟨hfirst, hrest⟩ := List.forall_mem_append.mp h
    exact .cons (reads_operation op hfirst) (reads_operations rest hrest)
termination_by structural ops => ops

end

/-! ### Conditions -/

theorem reads_condition : ∀ c : Condition, (∀ v ∈ c.literals, v.isFinite) →
    Reads condition? (ofCondition c) c
  | .and lhs rhs, h => .ofVariant fun {content} hj => by
    obtain ⟨hlhs, hrhs⟩ := List.forall_mem_append.mp h
    have hlhs := reads_condition lhs hlhs
    have hrhs := reads_condition rhs hrhs
    obtain ⟨members', rfl, hmembers⟩ := exists_members ["lhs", "rhs"] (by decide) rfl hj
    rw [condition?]
    exact bind_both_of_reads "lhs" "rhs" hmembers rfl rfl hlhs hrhs
      fun x y => some (Condition.and x y)
  | .or lhs rhs, h => .ofVariant fun {content} hj => by
    obtain ⟨hlhs, hrhs⟩ := List.forall_mem_append.mp h
    have hlhs := reads_condition lhs hlhs
    have hrhs := reads_condition rhs hrhs
    obtain ⟨members', rfl, hmembers⟩ := exists_members ["lhs", "rhs"] (by decide) rfl hj
    rw [condition?]
    exact bind_both_of_reads "lhs" "rhs" hmembers rfl rfl hlhs hrhs
      fun x y => some (Condition.or x y)
  | .not c, h => by
    refine .ofContent Condition.not (fun content => ?_) (reads_condition c h)
    rw [condition?]
    rfl
  | .compare o lhs rhs, h => .ofVariant fun {content} hj => by
    obtain ⟨hlhs, hrhs⟩ := List.forall_mem_append.mp h
    obtain ⟨members', rfl, hmembers⟩ := exists_members ["lhs", "rhs"] (by decide) rfl hj
    have hdecode : condition? (ofVariant (comparisonTag o) (.obj members')) = (do
        return .compare o (← Codec.named? "lhs" operation? (.obj members'))
          (← Codec.named? "rhs" operation? (.obj members'))) := by
      rw [condition?]
      cases o <;> rfl
    rw [hdecode, named_of_reads hmembers rfl (reads_operation lhs hlhs),
      named_of_reads hmembers rfl (reads_operation rhs hrhs)]
    rfl
  | .isNull arg, h => by
    refine .ofContent Condition.isNull (fun content => ?_) (reads_operation arg h)
    rw [condition?]
    rfl
  | .isNotNull arg, h => by
    refine .ofContent Condition.isNotNull (fun content => ?_) (reads_operation arg h)
    rw [condition?]
    rfl
  | .like arg pattern, h => .ofVariant fun {content} hj => by
    obtain ⟨members', rfl, hmembers⟩ := exists_members ["op", "pattern"] (by decide) rfl hj
    have hdecode : condition? (ofVariant "Like" (.obj members')) = (do
        return .like (← Codec.named? "op" operation? (.obj members'))
          (← Codec.named? "pattern" string? (.obj members'))) := by
      rw [condition?]
      rfl
    rw [hdecode, named_of_reads hmembers rfl (reads_operation arg h),
      named_of_reads hmembers rfl (reads_string pattern)]
    rfl
  | .notLike arg pattern, h => .ofVariant fun {content} hj => by
    obtain ⟨members', rfl, hmembers⟩ := exists_members ["op", "pattern"] (by decide) rfl hj
    have hdecode : condition? (ofVariant "NotLike" (.obj members')) = (do
        return .notLike (← Codec.named? "op" operation? (.obj members'))
          (← Codec.named? "pattern" string? (.obj members'))) := by
      rw [condition?]
      rfl
    rw [hdecode, named_of_reads hmembers rfl (reads_operation arg h),
      named_of_reads hmembers rfl (reads_string pattern)]
    rfl

end Codec

end SqlRecords
