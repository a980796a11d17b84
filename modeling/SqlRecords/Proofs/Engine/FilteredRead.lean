import SqlRecords.Engine.Basic
import SqlRecords.Field.Scalar
import SqlRecords.Proofs.Engine.RecordIter
import SqlRecords.Proofs.Sqlite.Reading
import SqlRecords.Proofs.Sqlite.Tables
import SqlRecords.Statement.Build

/-!
# A filter selects the rows it is true for

Reading the records of a filtered query takes the whole way through the library: the
condition is written as SQL and read back by SQLite, its columns are looked up in the
table, rows are kept or left out, their columns are shown in the order of the record's
fields, and the rows travel to the engine in batches and become records there.

At the end of this way stands what the condition means on each row by itself
(`TableRule.truth`). Nothing is asked of the rows, so they may have been written in any
way; a row that holds no record makes the reading fail if it is selected.

## What is proved

* `TableRule.find?_own`: in the table of a record, the column of a field is found at the
  place of the field.
* `Scope.matching_eq_filter`: an expression that has a value on every row keeps the rows
  that it is true on.
* `Tables.query_kept`: what the query of a record type gives, with a filter
  (`Tables.query_select`) or without (`Tables.query_all`).
* **`Engine.readAll_filter`**: `readAll` gives the records of the rows that the condition
  is true on, in the order of their ids, and leaves the connection as it was.
-/

namespace SqlRecords

open Sqlite

/-- The record that a row of the table holds. -/
def Schema.ofStored (s : Schema) (row : StoredRow) : Result s.Record :=
  Stored.toRow ((List.range s.numColumns).map row.value) >>= s.fromRow

namespace Sqlite

/-! ### The columns of a record in its table -/

namespace TableRule

/-- Names without a duplicate are all different, and different from those seen before. -/
theorem duplicate?_eq_none : ∀ {seen names : List String}, duplicate? seen names = none →
    (∀ n ∈ names, ∀ m ∈ seen, sameName n m = false) ∧
      names.Pairwise fun a b => sameName b a = false
  | seen, [], _ => ⟨by simp, .nil⟩
  | seen, n :: rest, h => by
    rw [duplicate?] at h
    split at h
    · cases h
    · next hn =>
      obtain ⟨hseen, hrest⟩ := duplicate?_eq_none h
      refine ⟨?_, .cons (fun b hb => hseen b hb n List.mem_cons_self) hrest⟩
      intro m hm k hk
      rcases List.mem_cons.mp hm with rfl | hm
      · exact Bool.eq_false_iff.mpr fun hsame => hn (List.any_eq_true.mpr ⟨k, hk, hsame⟩)
      · exact hseen m hm k (List.mem_cons_of_mem n hk)

/-- No two columns of a table that could be made have the same name. -/
theorem pairwise_ofStatement {s : CreateTable} {t : TableRule} (h : ofStatement s = .ok t) :
    (s.columns.map (·.name)).Pairwise fun a b => sameName b a = false := by
  simp only [ofStatement] at h
  split at h
  · cases h
  · next hnone => exact (duplicate?_eq_none hnone).2

/-- The column of a field is found at the place of the field. -/
theorem find?_own {s : Schema} {ifNotExists : Bool} {t : TableRule}
    (h : ofStatement (s.createTable ifNotExists) = .ok t) {i : Nat} (hi : i < s.columns.length) :
    t.find? s.columns[i].name = some i := by
  have hnames := columns_ofStatement h
  have hname {k : Nat} (hk : k < t.columns.length) (hk' : k < s.columns.length) :
      t.columns[k].name = s.columns[k].name := by
    have hget := congrArg (·[k]?) hnames
    simpa [hk, hk'] using hget
  have hlen : t.columns.length = s.columns.length := by
    simpa using congrArg List.length hnames
  rw [find?, List.findIdx?_eq_some_iff_getElem]
  refine ⟨hlen ▸ hi, ?_, fun k hk => ?_⟩
  · rw [hname (hlen ▸ hi) hi]
    exact sameName_refl _
  · have hpair := List.pairwise_iff_getElem.mp (pairwise_ofStatement h) k i
      (by simp [Schema.createTable]; omega) (by simpa [Schema.createTable] using hi) hk
    rw [hname (by omega) (by omega), sameName_comm]
    simpa [Schema.createTable] using hpair

end TableRule

/-! ### The rows that are kept -/

/-- The rows that an expression keeps are those that it is true on. -/
theorem Scope.matching_eq_filter {s : Scope} {e : Expr Nat} {value : StoredRow → Stored}
    (heval : ∀ row, s.eval e row = .ok (value row)) (rows : List StoredRow) :
    s.matching (some e) rows =
      (rows.filter fun row => (value row).truth == some true).map Except.ok := by
  induction rows with
  | nil => rfl
  | cons row rows ih =>
    rw [matching] at ih ⊢
    rw [List.filterMap_cons, List.filter_cons, ih]
    have hkeeps : s.keeps (some e) row = .ok ((value row).truth == some true) := by
      rw [keeps, heval]
      rfl
    rw [hkeeps]
    cases (value row).truth == some true <;> rfl

/-! ### The query of a record -/

/-- Each field of the query is looked up as the column at its place. -/
theorem Query.shownOf_fields {s : Schema} {ifNotExists : Bool} {t : TableRule}
    (h : TableRule.ofStatement (s.createTable ifNotExists) = .ok t) (hfields : s.fields ≠ []) :
    shownOf (.ofTable t (.named s.table)) s.select.fields =
      .ok (.expressions ((List.range s.numColumns).map .column)) := by
  have hplaces : s.columns.map (fun c => Expr.column ((t.find? c.name).getD 0)) =
      (List.range s.numColumns).map Expr.column := by
    refine List.ext_getElem (by simp [Schema.columns, Schema.numColumns]) fun i hi _ => ?_
    simp [TableRule.find?_own h (by simpa using hi)]
  have hlook : ∀ c ∈ s.columns, (Scope.ofTable t (.named s.table)).operation (col c.name) =
      .ok (Expr.column ((t.find? c.name).getD 0)) := by
    intro c hc
    obtain ⟨i, hi, rfl⟩ := List.getElem_of_mem hc
    simp [col, Column.named, Column.define, Scope.operation, Scope.look, Scope.ofTable,
      TableRule.find?_own h hi]
  have hselect : s.select.fields = s.columns.map fun c => showing (col c.name) := by
    simp [Schema.select, Select.of, SqlRecords.fields, Function.comp_def]
  have hnone : aggregations? s.select.fields = none := by
    obtain ⟨f, rest, hcons⟩ := List.exists_cons_of_ne_nil hfields
    rw [hselect, Schema.columns, hcons]
    rfl
  have hne : s.select.fields ≠ [] := by
    simpa [hselect, Schema.columns] using hfields
  have hmap : s.select.fields.mapM (fun f => (Scope.ofTable t (.named s.table)).operation f.op) =
      .ok (s.columns.map fun c => Expr.column ((t.find? c.name).getD 0)) := by
    rw [hselect, List.mapM_map]
    exact Except.mapM_eq_ok hlook
  rw [shownOf.eq_3 _ _ hne hnone, hmap, hplaces]
  rfl

/-- What the query of a record gives: the values of the rows that are kept, in the order of the
fields. -/
theorem Tables.query_kept {ts : Tables} {s : Schema} {ifNotExists : Bool} {t : StoredTable}
    {filter : Option Condition} {e : Option (Expr Nat)} {kept : List StoredRow}
    (htable : ts.find? s.table = some t)
    (hrule : TableRule.ofStatement (s.createTable ifNotExists) = .ok t.rule)
    (hfields : s.fields ≠ [])
    (hcondition : (Scope.ofTable t.rule (.named s.table)).condition filter = .ok e)
    (hkept : (Scope.ofTable t.rule (.named s.table)).matching e t.rows = kept.map .ok) :
    ts.query { s.select with filter } =
      .ok (kept.map fun row => .ok ((List.range s.numColumns).map row.value)) := by
  have hshown := Query.shownOf_fields hrule hfields
  have hproject (row : StoredRow) : Query.project (.ofTable t.rule (.named s.table))
      ((List.range s.numColumns).map Expr.column) row =
        .ok ((List.range s.numColumns).map row.value) := by
    rw [Query.project, List.mapM_map]
    exact Except.mapM_eq_ok fun _ _ => rfl
  have hget : ts.get (.named s.table) = .ok t := by
    rw [get, mentioned?_named, htable]
  have hquery : Query.ofStatement (.ofTable t.rule (.named s.table)) { s.select with filter } =
      .ok ⟨.ofTable t.rule (.named s.table), .expressions ((List.range s.numColumns).map .column),
        e, [], none⟩ := by
    have horder : s.select.orderBy = [] := rfl
    rw [Query.ofStatement, hshown, hcondition, horder]
    rfl
  have hsource : s.select.source = .table (.named s.table) := rfl
  rw [query, hsource]
  simp only [hget, hquery, bind, Except.bind, pure, Except.pure, Query.run, Query.results,
    Query.rowResults, Query.byRowId, hkept, List.map_map, Function.comp_def, hproject,
    Bool.false_eq_true, if_false]

/-- The filtered query gives the rows that the condition is true on. -/
theorem Tables.query_select {ts : Tables} {s : Schema} {ifNotExists : Bool} {t : StoredTable}
    {c : Condition} (htable : ts.find? s.table = some t)
    (hrule : TableRule.ofStatement (s.createTable ifNotExists) = .ok t.rule)
    (hfields : s.fields ≠ []) (hc : c.IsBasic s) :
    ts.query (s.select.addFilter c) =
      .ok ((t.rows.filter fun row => t.rule.truth row c == some true).map fun row =>
        .ok ((List.range s.numColumns).map row.value)) := by
  obtain ⟨value, ⟨e, hresolve, -, heval⟩, htruth⟩ := hc.denotes hrule
  have hcondition : (Scope.ofTable t.rule (.named s.table)).condition (some c) = .ok (some e) := by
    simp [Scope.condition, Scope.read, Written.ofText?_condition hc, hresolve, Except.map]
  have hkept := Scope.matching_eq_filter heval t.rows
  simp only [htruth] at hkept
  exact Tables.query_kept htable hrule hfields hcondition hkept

/-- The query without a filter gives all rows. -/
theorem Tables.query_all {ts : Tables} {s : Schema} {ifNotExists : Bool} {t : StoredTable}
    (htable : ts.find? s.table = some t)
    (hrule : TableRule.ofStatement (s.createTable ifNotExists) = .ok t.rule)
    (hfields : s.fields ≠ []) :
    ts.query s.select =
      .ok (t.rows.map fun row => .ok ((List.range s.numColumns).map row.value)) := by
  have hkept : ∀ rows : List StoredRow,
      (Scope.ofTable t.rule (.named s.table)).matching none rows = rows.map .ok := fun rows =>
    List.filterMap_eq_map_iff_forall_eq_some.mpr fun _ _ => rfl
  exact Tables.query_kept htable hrule hfields rfl (hkept t.rows)

end Sqlite

namespace Engine

/-! ### Reading all records -/

/-- Reading a query gives a record for each of its results, or fails if one of them is no record. -/
theorem readAll_results (e : Engine) {s : Schema} {c : SqliteConnection Store} {q : Select}
    {results : Results} (hquery : c.database.tables.query q = .ok results) :
    let outcome := (e.readAll s q).outcome c
    outcome.1.toOption =
        (results.map fun result => SqliteCursor.rowOf result >>= s.fromRow).mapM Except.toOption ∧
      outcome.2 = c := by
  intro outcome
  let start : RecordIter s (SqliteCursor Store) := .ofCursor ⟨c, results, false⟩ e.batchSize
  have hgoing : start.ended = false := rfl
  obtain ⟨hrecords, hconnection⟩ := RecordIter.collect_spec hgoing e.batchSize_pos
  have hiter : e.readIter s q c = .ok start := by
    have hopen : Connection.query q c = .ok start.cursor := by
      simp only [Connection.query, SqliteConnection.query, SqliteConnection.onDatabase,
        Database.query, hquery]
      rfl
    rw [readIter, hopen]
    rfl
  have houtcome : outcome = (start.collect.1, c) := by
    have hclose : Connection.close start.collect.2.cursor = c := hconnection
    obtain ⟨result, after, hcollect⟩ : ∃ result after, start.collect = (result, after) :=
      ⟨_, _, rfl⟩
    rw [hcollect] at hclose ⊢
    simp only [outcome, Action.outcome, readAll, hiter, hcollect]
    cases result with
    | ok records => simp only [hclose]
    | error e => simp only [hclose]
  rw [houtcome]
  exact ⟨hrecords, rfl⟩

/-- **A filter selects the rows it is true for.** On any rows that the table of a record may have,
and in any state of the connection, reading with a condition gives the records of the rows that the
condition is true on, each once and in the order of the row ids; rows where it is false or unknown
are left out. Reading fails if a selected row holds no record, and else never. -/
theorem readAll_filter (e : Engine) {s : Schema} {ifNotExists : Bool}
    {c : SqliteConnection Store} {t : StoredTable} {condition : Condition}
    (hfields : s.fields ≠ []) (htable : c.database.tables.find? s.table = some t)
    (hrule : TableRule.ofStatement (s.createTable ifNotExists) = .ok t.rule)
    (hcondition : condition.IsBasic s) :
    let selected := t.rows.filter fun row => t.rule.truth row condition == some true
    let outcome := (e.readAll s (s.select.addFilter condition)).outcome c
    outcome.1.toOption = (selected.mapM s.ofStored).toOption ∧ outcome.2 = c := by
  intro selected outcome
  have hquery := Tables.query_select htable hrule hfields hcondition
  obtain ⟨hrecords, hconnection⟩ := e.readAll_results hquery
  refine ⟨hrecords.trans ?_, hconnection⟩
  rw [List.map_map, ← Except.mapM_toOption]
  rfl

/-- A negative literal, a quote in a string and NOT in front of a comparison. -/
theorem readAll_filter_quoted :
    let s : Schema := ⟨"t", [⟨"n", _, Field.int .int64⟩, ⟨"w", _, Field.text⟩]⟩
    let condition : Condition := .and
      (.not (((col "n").multiplies (.value (.integer (-2)))).gt (qcol "t" "n")))
      ((col "w").eq (.value (.string "it's")))
    let rule : TableRule :=
      ⟨"t", [⟨"n", .integer, true⟩, ⟨"w", .text, true⟩], none, false, [], []⟩
    let rows : List StoredRow := [⟨1, [.integer (-3), .text "it's"]⟩,
      ⟨2, [.integer 5, .text "it's"]⟩, ⟨3, [.integer 4, .text "its"]⟩]
    let c : SqliteConnection Store := .ofDatabase ⟨[⟨rule, rows, 3⟩], none⟩
    let outcome := (Engine.default.readAll s (s.select.addFilter condition)).outcome c
    outcome.1.toOption.map (·.map fun record => (record.1.1, record.2.1)) = some [(5, "it's")] := by
  intro s condition rule rows c outcome
  have hcolumn : s.Owns (.named "n") := ⟨nofun, _, List.mem_cons_self, sameName_refl _⟩
  have hbehind : s.Owns ((Column.named "n").withTableAlias "t") :=
    ⟨fun _ ht => Option.some.inj ht ▸ sameName_refl _, _, List.mem_cons_self, sameName_refl _⟩
  have hother : s.Owns (.named "w") :=
    ⟨nofun, _, List.mem_cons_of_mem _ List.mem_cons_self, sameName_refl _⟩
  have hbasic : condition.IsBasic s :=
    .and (.not (.compare _ (.multiplies (.column hcolumn) (.integer _)) (.column hbehind)))
      (.compare _ (.column hother) (.string _))
  have htable : c.database.tables.find? s.table = some ⟨rule, rows, 3⟩ := by decide +kernel
  have hrule : TableRule.ofStatement (s.createTable true) = .ok rule := by decide +kernel
  obtain ⟨hrecords, -⟩ := Engine.default.readAll_filter (by simp [s]) htable hrule hbasic
  exact (congrArg _ hrecords).trans (by decide +kernel)

end Engine

end SqlRecords
