import Mathlib.Logic.Basic
import SqlRecords.Record.Schema
import SqlRecords.Sqlite.Query

/-!
# What a filter means

The conditions that are covered here (`Condition.IsBasic`) join comparisons and tests
for NULL by AND, OR and NOT; their operations (`Operation.IsBasic`) are columns of a
record, integers, strings, and sums, differences and products of such. Both nest to any
depth.

`TableRule.value` and `TableRule.truth` compute what they mean on a row from the leaves
up: every operator is SQLite's own, applied to what its sides are worth, and truth has
three values. No text and no precedence of operators comes into it.

## What is proved

* `TableRule.find?_of_owns`: the columns of a record are found in the table that was
  made for it.
* `Written.Denotes`: a tree is looked up without a fault and gives a certain value on
  every row. There is a rule for each operator, and by them
  **`Condition.IsBasic.denotes`**: the tree of a condition (`Written.ofCondition`) gives
  the truth value that the condition has.
-/

namespace SqlRecords

open Sqlite

/-! ### The conditions covered -/

/-- A column of the record's table, named alone or behind the name of the table. -/
structure Schema.Owns (s : Schema) (c : Column) : Prop where
  /-- The name in front, if there is one, is that of the table. -/
  table : ∀ t, c.tableAlias = some t → sameName s.table t = true
  /-- The record has a column of the name. -/
  column : ∃ own ∈ s.columns, sameName own.name c.name = true

/-- An operation over columns, integers and strings by plus, minus and times. -/
inductive Operation.IsBasic (s : Schema) : Operation → Prop
  | column {c : Column} (own : s.Owns c) : IsBasic s (.column c)
  | integer (n : Int64) : IsBasic s (.value (.integer n))
  | string (t : String) : IsBasic s (.value (.string t))
  | plus {lhs rhs : Operation} : IsBasic s lhs → IsBasic s rhs → IsBasic s (.arith .plus lhs rhs)
  | minus {lhs rhs : Operation} : IsBasic s lhs → IsBasic s rhs → IsBasic s (.arith .minus lhs rhs)
  | multiplies {lhs rhs : Operation} :
    IsBasic s lhs → IsBasic s rhs → IsBasic s (.arith .multiplies lhs rhs)

/-- A condition over such operations that matches no patterns. -/
inductive Condition.IsBasic (s : Schema) : Condition → Prop
  | and {lhs rhs : Condition} : IsBasic s lhs → IsBasic s rhs → IsBasic s (.and lhs rhs)
  | or {lhs rhs : Condition} : IsBasic s lhs → IsBasic s rhs → IsBasic s (.or lhs rhs)
  | not {c : Condition} : IsBasic s c → IsBasic s (.not c)
  | compare (o : Comparison) {lhs rhs : Operation} :
    lhs.IsBasic s → rhs.IsBasic s → IsBasic s (.compare o lhs rhs)
  | isNull {arg : Operation} : arg.IsBasic s → IsBasic s (.isNull arg)
  | isNotNull {arg : Operation} : arg.IsBasic s → IsBasic s (.isNotNull arg)

namespace Sqlite

/-! ### Their meaning -/

namespace TableRule

/-- What an operation is worth on a row. -/
def value (t : TableRule) (row : StoredRow) : Operation → Stored
  | .column c => ((t.find? c.name).map row.value).getD .null
  | .value (.integer n) => .integer n
  | .value (.string s) => .text s
  | .arith .plus lhs rhs => ArithmeticOperator.plus.apply (value t row lhs) (value t row rhs)
  | .arith .minus lhs rhs => ArithmeticOperator.minus.apply (value t row lhs) (value t row rhs)
  | .arith .multiplies lhs rhs =>
    ArithmeticOperator.multiplies.apply (value t row lhs) (value t row rhs)
  | _ => .null

/-- The affinity that an operation brings to a comparison: that of a column, if it is one. -/
def operandAffinity (t : TableRule) : Operation → Option Affinity
  | .column c => (t.find? c.name).map t.affinity
  | _ => none

/-- The truth value of a condition on a row, `none` if it is unknown. -/
def truth (t : TableRule) (row : StoredRow) : Condition → Option Bool
  | .and lhs rhs => andTruth (truth t row lhs) (truth t row rhs)
  | .or lhs rhs => orTruth (truth t row lhs) (truth t row rhs)
  | .not c => (truth t row c).map Bool.not
  | .compare o lhs rhs =>
    (compareValues o (t.operandAffinity lhs) (t.operandAffinity rhs) (t.value row lhs)
      (t.value row rhs)).truth
  | .isNull arg => some (t.value row arg).isNull
  | .isNotNull arg => some !(t.value row arg).isNull
  | .like _ _ | .notLike _ _ => none

/-! ### The columns of a record -/

/-- The table of a record has the record's columns, by their names and affinities. -/
theorem columns_ofStatement {s : Schema} {ifNotExists : Bool} {t : TableRule}
    (h : ofStatement (s.createTable ifNotExists) = .ok t) :
    t.columns.map (·.name) = s.columns.map (·.name) := by
  simp only [ofStatement] at h
  split at h
  · cases h
  · split at h
    · cases h
    · injection h with h
      subst h
      simp [Schema.createTable]

/-- A column of the record is found in its table. -/
theorem find?_of_owns {s : Schema} {ifNotExists : Bool} {t : TableRule} {c : Column}
    (h : ofStatement (s.createTable ifNotExists) = .ok t) (hown : s.Owns c) :
    ∃ i, t.find? c.name = some i := by
  obtain ⟨own, hmem, hsame⟩ := hown.column
  have hname : own.name ∈ t.columns.map (·.name) := by
    rw [columns_ofStatement h]
    exact List.mem_map_of_mem hmem
  obtain ⟨rule, hrule, heq⟩ := List.mem_map.mp hname
  refine Option.isSome_iff_exists.mp ?_
  rw [find?, List.findIdx?_isSome, List.any_eq_true]
  exact ⟨rule, hrule, by rw [heq]; exact hsame⟩

end TableRule

/-! ### Truth values -/

namespace Stored

@[simp] theorem truth_ofBool (b : Bool) : (ofBool b).truth = some b := by
  cases b <;> rfl

@[simp] theorem truth_ofTruth (t : Option Bool) : (ofTruth t).truth = t := by
  cases t with
  | none => rfl
  | some b => exact truth_ofBool b

end Stored

/-! ### Trees and what they give -/

namespace Written

/-- The tree of an operation. -/
def ofOperation : Operation → Written
  | .column c => .column ⟨c.tableAlias, c.name⟩
  | .value (.integer n) => .literal (.integer n)
  | .value (.string s) => .literal (.text s)
  | .arith .plus lhs rhs => .arith .plus (ofOperation lhs) (ofOperation rhs)
  | .arith .minus lhs rhs => .arith .minus (ofOperation lhs) (ofOperation rhs)
  | .arith .multiplies lhs rhs => .arith .multiplies (ofOperation lhs) (ofOperation rhs)
  | _ => .literal .null

/-- The tree of a condition. -/
def ofCondition : Condition → Written
  | .and lhs rhs => .and (ofCondition lhs) (ofCondition rhs)
  | .or lhs rhs => .or (ofCondition lhs) (ofCondition rhs)
  | .not c => .not (ofCondition c)
  | .compare o lhs rhs => .compare o (ofOperation lhs) (ofOperation rhs)
  | .isNull arg => .isNull (ofOperation arg)
  | .isNotNull arg => .isNotNull (ofOperation arg)
  | .like _ _ | .notLike _ _ => .literal .null

/-- The tree is looked up without a fault, to an expression with an affinity and a value on every
row. -/
def Denotes (s : Scope) (w : Written) (affinity : Option Affinity) (value : StoredRow → Stored) :
    Prop :=
  ∃ e, w.resolve s.look = .ok e ∧ e.affinity s.rule.affinity = affinity ∧
    ∀ row, s.eval e row = .ok (value row)

namespace Denotes

variable {s : Scope} {w w' : Written} {aff aff' : Option Affinity} {f g : StoredRow → Stored}

theorem literal (v : Stored) : Denotes s (.literal v) none fun _ => v :=
  ⟨.literal v, rfl, rfl, fun _ => rfl⟩

theorem column {c : ColumnName} {i : Nat} (h : s.look c = .ok (.column i)) :
    Denotes s (.column c) (some (s.rule.affinity i)) fun row => row.value i :=
  ⟨.column i, h, rfl, fun _ => rfl⟩

/-- An operator on one tree, which is looked up and evaluated behind it. -/
theorem unary (hw : Denotes s w aff f) (build : Expr Nat → Expr Nat) (op : Stored → Stored)
    {tree : Written} (hlook : tree.resolve s.look = do return build (← w.resolve s.look))
    (haff : ∀ e, (build e).affinity s.rule.affinity = none)
    (heval : ∀ e row, s.eval (build e) row = do return op (← s.eval e row)) :
    Denotes s tree none fun row => op (f row) := by
  obtain ⟨e, he, -, hf⟩ := hw
  refine ⟨build e, ?_, haff e, ?_⟩
  · rw [hlook, he]
    rfl
  · intro row
    rw [heval, hf]
    rfl

/-- An operator on two trees, which can depend on their affinities. -/
theorem binary (hw : Denotes s w aff f) (hw' : Denotes s w' aff' g)
    (build : Expr Nat → Expr Nat → Expr Nat)
    (op : Option Affinity → Option Affinity → Stored → Stored → Stored) {tree : Written}
    (hlook : tree.resolve s.look = do return build (← w.resolve s.look) (← w'.resolve s.look))
    (haff : ∀ e e', (build e e').affinity s.rule.affinity = none)
    (heval : ∀ e e' row, s.eval (build e e') row = do
      return op (e.affinity s.rule.affinity) (e'.affinity s.rule.affinity) (← s.eval e row)
        (← s.eval e' row)) :
    Denotes s tree none fun row => op aff aff' (f row) (g row) := by
  obtain ⟨e, he, rfl, hf⟩ := hw
  obtain ⟨e', he', rfl, hg⟩ := hw'
  refine ⟨build e e', ?_, haff e e', ?_⟩
  · rw [hlook, he, he']
    rfl
  · intro row
    rw [heval, hf, hg]
    rfl

theorem arith (o : ArithmeticOperator) (hw : Denotes s w aff f) (hw' : Denotes s w' aff' g) :
    Denotes s (.arith o w w') none fun row => o.apply (f row) (g row) :=
  hw.binary hw' (.arith o) (fun _ _ => o.apply) rfl (fun _ _ => rfl) fun _ _ _ => rfl

theorem compare (o : Comparison) (hw : Denotes s w aff f) (hw' : Denotes s w' aff' g) :
    Denotes s (.compare o w w') none fun row => compareValues o aff aff' (f row) (g row) :=
  hw.binary hw' (.compare o) (compareValues o) rfl (fun _ _ => rfl) fun _ _ _ => rfl

theorem isNull (hw : Denotes s w aff f) :
    Denotes s (.isNull w) none fun row => .ofBool (f row).isNull :=
  hw.unary .isNull (fun v => .ofBool v.isNull) rfl (fun _ => rfl) fun _ _ => rfl

theorem isNotNull (hw : Denotes s w aff f) :
    Denotes s (.isNotNull w) none fun row => .ofBool !(f row).isNull :=
  hw.unary .isNotNull (fun v => .ofBool !v.isNull) rfl (fun _ => rfl) fun _ _ => rfl

theorem not (hw : Denotes s w aff f) :
    Denotes s (.not w) none fun row => .ofTruth ((f row).truth.map Bool.not) :=
  hw.unary .not (fun v => .ofTruth (v.truth.map Bool.not)) rfl (fun _ => rfl) fun _ _ => rfl

theorem and (hw : Denotes s w aff f) (hw' : Denotes s w' aff' g) :
    Denotes s (.and w w') none fun row => .ofTruth (andTruth (f row).truth (g row).truth) :=
  hw.binary hw' .and (fun _ _ a b => .ofTruth (andTruth a.truth b.truth)) rfl (fun _ _ => rfl)
    fun _ _ _ => rfl

theorem or (hw : Denotes s w aff f) (hw' : Denotes s w' aff' g) :
    Denotes s (.or w w') none fun row => .ofTruth (orTruth (f row).truth (g row).truth) :=
  hw.binary hw' .or (fun _ _ a b => .ofTruth (orTruth a.truth b.truth)) rfl (fun _ _ => rfl)
    fun _ _ _ => rfl

end Denotes

end Written

end Sqlite

/-! ### Trees of the conditions covered -/

section

variable {s : Schema} {ifNotExists : Bool} {t : TableRule}

/-- A column of the record is looked up in the table of the record. -/
theorem Schema.Owns.look {c : Column} (hown : s.Owns c) {i : Nat}
    (hi : t.find? c.name = some i) :
    (Scope.ofTable t (.named s.table)).look ⟨c.tableAlias, c.name⟩ = .ok (.column i) := by
  cases halias : c.tableAlias with
  | none => simp [Scope.look, Scope.ofTable, hi]
  | some name =>
    have hsame := hown.table name halias
    simp [Scope.look, Scope.ofTable, Table.named, hsame, hi]

/-- The tree of an operation gives what the operation is worth. -/
theorem Operation.IsBasic.denotes
    (ht : TableRule.ofStatement (s.createTable ifNotExists) = .ok t) {op : Operation}
    (h : op.IsBasic s) :
    Written.Denotes (.ofTable t (.named s.table)) (.ofOperation op) (t.operandAffinity op)
      fun row => t.value row op := by
  induction h with
  | column own =>
    obtain ⟨i, hi⟩ := TableRule.find?_of_owns ht own
    have hcolumn := Written.Denotes.column (own.look hi)
    simpa [Written.ofOperation, TableRule.operandAffinity, TableRule.value, Scope.ofTable, hi]
      using hcolumn
  | integer n => exact .literal _
  | string text => exact .literal _
  | plus _ _ ihl ihr => exact .arith .plus ihl ihr
  | minus _ _ ihl ihr => exact .arith .minus ihl ihr
  | multiplies _ _ ihl ihr => exact .arith .multiplies ihl ihr

/-- **The tree of a condition** gives, on every row, a value with the truth value of the
condition. -/
theorem Condition.IsBasic.denotes
    (ht : TableRule.ofStatement (s.createTable ifNotExists) = .ok t) {c : Condition}
    (h : c.IsBasic s) :
    ∃ value, Written.Denotes (.ofTable t (.named s.table)) (.ofCondition c) none value ∧
      ∀ row, (value row).truth = t.truth row c := by
  induction h with
  | and _ _ ihl ihr =>
    obtain ⟨f, hf, htruth⟩ := ihl
    obtain ⟨g, hg, htruth'⟩ := ihr
    exact ⟨_, hf.and hg, fun row => by simp [TableRule.truth, htruth, htruth']⟩
  | or _ _ ihl ihr =>
    obtain ⟨f, hf, htruth⟩ := ihl
    obtain ⟨g, hg, htruth'⟩ := ihr
    exact ⟨_, hf.or hg, fun row => by simp [TableRule.truth, htruth, htruth']⟩
  | not _ ih =>
    obtain ⟨f, hf, htruth⟩ := ih
    exact ⟨_, hf.not, fun row => by simp [TableRule.truth, htruth]⟩
  | compare o hl hr => exact ⟨_, (hl.denotes ht).compare o (hr.denotes ht), fun row => rfl⟩
  | isNull harg => exact ⟨_, (harg.denotes ht).isNull, fun row => by simp [TableRule.truth]⟩
  | isNotNull harg => exact ⟨_, (harg.denotes ht).isNotNull, fun row => by simp [TableRule.truth]⟩

end

end SqlRecords
