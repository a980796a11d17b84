import SqlRecords.Proofs.Sqlite.RecordTable
import SqlRecords.Proofs.Sqlite.StatementReading

/-!
# Statements do what their texts say

The database takes INSERTs, table definitions and queries as statements. What it does with them is
what it would do with their texts: what is read from the text is looked up in the tables like the
statement that it was written from.

In a table definition this needs different names. The keys of a text name their columns, those of
a statement are among its columns themselves, and only if no two columns have the same name is each
found at its own place. Where two have, there is no table.

## What is proved

* **`Tables.prepare_eq_prepareText`**, **`Tables.createTable_eq_createText`**: INSERTs and table
  definitions with columns. Without columns their texts are not SQL.
* **`Tables.query_eq_queryText`**: queries on one table whose fields and condition are among those
  that are covered. So the text of the filtered query of a record type gives the rows that the
  condition is true on (`Tables.queryText_select`).
-/

namespace SqlRecords.Sqlite

open Lexeme

/-! ### INSERT -/

namespace WrittenInsert

theorem lookUp_names (t : TableRule) (table : String) (columns : List Column) :
    lookUp t table (columns.map (·.name)) = Insertion.lookUp t table columns := by
  rw [lookUp]
  induction columns with
  | nil => rfl
  | cons c columns ih =>
    simp only [List.map_cons, Insertion.lookUp, Column.named, Column.define]
    rw [← ih]

/-- **What is written of an INSERT** is looked up like the INSERT itself. -/
theorem insertion_ofStatement (t : TableRule) (i : Insert) :
    (ofStatement i).insertion t = Insertion.ofStatement t i := by
  unfold insertion Insertion.ofStatement ofStatement conflictOf
  simp only [lookUp_names]
  cases i.orReplace with
  | false => rfl
  | true =>
    cases hkey : i.constraints with
    | nil => rfl
    | cons c key =>
      have htarget : ((c :: key).map (·.name)).mapM t.find? =
          (c :: key).mapM fun c => t.find? c.name := List.mapM_map
      simp only [if_true, lookUp_names, htarget]
      rfl

end WrittenInsert

/-! ### CREATE TABLE -/

namespace WrittenTable

variable {s : CreateTable}

/-- The word for a type says what a column makes of values. -/
theorem affinityOf_typeWord (kind : Kind) :
    affinityOf (typeWord kind) = TableRule.affinityOf kind := by
  cases kind <;> rfl

/-- The parts of one kind: what they are among the columns, the primary key and the foreign keys. -/
theorem filterMap_parts {α : Type} (get : WrittenPart → Option α) (s : CreateTable) :
    (ofStatement s).parts.filterMap get =
      s.columns.filterMap (fun c => get (.column (columnOf c))) ++
        (keyOf s.columns).filterMap get ++
          s.columns.filterMap fun c =>
            c.type.properties.foreignKey.bind fun r => get (.foreignKey c.name r) := by
  simp only [ofStatement, List.filterMap_append, List.filterMap_map, List.filterMap_filterMap,
    foreignKeyOf, Option.bind_map]
  rfl

/-- The clause for a primary key is no other part. -/
theorem filterMap_keyOf {α : Type} {get : WrittenPart → Option α}
    (hget : ∀ names, get (.primaryKey names) = none) (columns : List Column) :
    (keyOf columns).filterMap get = [] := by
  unfold keyOf
  cases Dialect.primaryColumns .sqlite columns <;> simp [hget]

theorem columns_ofStatement (s : CreateTable) :
    (ofStatement s).columns = s.columns.map columnOf := by
  rw [columns, filterMap_parts, filterMap_keyOf fun _ => rfl]
  simp [WrittenPart.column?]

theorem keys_ofStatement (s : CreateTable) :
    (ofStatement s).keys = (keyOf s.columns).filterMap WrittenPart.primaryKey? := by
  rw [keys, filterMap_parts]
  simp [WrittenPart.primaryKey?]

theorem foreignKeys_ofStatement (s : CreateTable) :
    (ofStatement s).foreignKeys =
      s.columns.filterMap fun c => c.type.properties.foreignKey.map (c.name, ·) := by
  rw [foreignKeys, filterMap_parts, filterMap_keyOf fun _ => rfl]
  simp [WrittenPart.foreignKey?, Option.map_eq_bind, Function.comp_def]

theorem places_ofStatement (s : CreateTable) (has : WrittenColumn → Bool) :
    (ofStatement s).places has = TableRule.places s.columns (has ∘ columnOf) := by
  simp [places, TableRule.places, columns_ofStatement, Function.comp_def, Option.any_map]

theorem find?_ofStatement (s : CreateTable) (name : String) :
    (ofStatement s).find? name = s.columns.findIdx? fun c => sameName c.name name := by
  rw [find?, columns_ofStatement, List.findIdx?_map]
  rfl

/-! Among columns with different names, each is found at its own place. -/

/-- What some columns give is found again, with the places that they are at. -/
theorem mapM_filterMap {α β : Type} {f : Column → Option α} {g : α → Option β} :
    ∀ {columns : List Column} {h : Nat → α → β},
      (∀ i c a, columns[i]? = some c → f c = some a → g a = some (h i a)) →
        (columns.filterMap f).mapM g =
          some ((List.range columns.length).filterMap fun i => (columns[i]?.bind f).map (h i))
  | [], _, _ => rfl
  | c :: columns, h, hfound => by
    have htail := mapM_filterMap (h := fun i => h (i + 1)) fun i d a hd ha =>
      hfound (i + 1) d a hd ha
    rw [List.length_cons, List.range_succ_eq_map, List.filterMap_cons, List.filterMap_cons,
      List.filterMap_map]
    cases ha : f c with
    | none => simpa [ha] using htail
    | some a =>
      have hhead := hfound 0 c a rfl ha
      simp only [List.getElem?_cons_zero, Option.bind_some, ha, Option.map_some, List.mapM_cons,
        hhead, htail]
      rfl

theorem length_mapM {α β : Type} {f : α → Option β} :
    ∀ {xs : List α} {ys : List β}, xs.mapM f = some ys → ys.length = xs.length
  | [], _, h => by
    rw [← Option.some.inj h]
    rfl
  | x :: xs, ys, h => by
    rw [List.mapM_cons] at h
    obtain ⟨y, -, h⟩ := Option.bind_eq_some_iff.mp h
    obtain ⟨zs, hzs, h⟩ := Option.bind_eq_some_iff.mp h
    rw [← Option.some.inj h, List.length_cons, List.length_cons, length_mapM hzs]

theorem find?_place {s : CreateTable}
    (hnames : TableRule.duplicate? [] (s.columns.map (·.name)) = none) {i : Nat} {c : Column}
    (hc : s.columns[i]? = some c) : (ofStatement s).find? c.name = some i := by
  obtain ⟨hi, rfl⟩ := List.getElem?_eq_some_iff.mp hc
  have hpair := List.pairwise_iff_getElem.mp (TableRule.duplicate?_eq_none hnames).2
  rw [find?_ofStatement, List.findIdx?_eq_some_iff_getElem]
  refine ⟨hi, sameName_refl _, fun j hj => ?_⟩
  have hne := hpair j i (by simp; omega) (by simpa using hi) hj
  rw [sameName_comm]
  simpa using hne

/-- The place of a column that has a property. -/
theorem map_bind_guard {α : Type} (o : Option α) (has : α → Bool) (i : Nat) :
    (o.bind (Option.guard has)).map (fun _ => i) = Option.guard (fun _ => o.any has) i := by
  cases o with
  | none => rfl
  | some a => cases h : has a <;> simp [Option.guard, h]

theorem mapM_primaryColumns {s : CreateTable}
    (hnames : TableRule.duplicate? [] (s.columns.map (·.name)) = none) :
    ((Dialect.primaryColumns .sqlite s.columns).map (·.name)).mapM (ofStatement s).find? =
      some (TableRule.keyPlaces s.columns) := by
  rw [List.mapM_map, Dialect.primaryColumns, ← List.filterMap_eq_filter]
  refine (mapM_filterMap (h := fun i _ => i) fun i c d hc hd => ?_).trans ?_
  · obtain ⟨rfl, -⟩ := Option.guard_eq_some_iff.mp hd
    exact find?_place hnames hc
  · rw [TableRule.keyPlaces, TableRule.places, ← List.filterMap_eq_filter]
    exact congrArg some (List.filterMap_congr fun i _ => map_bind_guard _ _ i)

theorem mapM_keys {s : CreateTable}
    (hnames : TableRule.duplicate? [] (s.columns.map (·.name)) = none) :
    (ofStatement s).keys.mapM (·.mapM (ofStatement s).find?) =
      some (if (TableRule.keyPlaces s.columns).isEmpty then []
        else [TableRule.keyPlaces s.columns]) := by
  have hplaces := mapM_primaryColumns hnames
  rw [keys_ofStatement, keyOf]
  cases hkey : Dialect.primaryColumns .sqlite s.columns with
  | nil =>
    rw [hkey] at hplaces
    rw [← Option.some.inj hplaces]
    rfl
  | cons c key =>
    rw [hkey] at hplaces
    have hlength := length_mapM hplaces
    obtain ⟨i, is, hcons⟩ : ∃ i is, TableRule.keyPlaces s.columns = i :: is :=
      List.exists_cons_of_length_pos (by simp [hlength])
    rw [hcons] at hplaces ⊢
    have hone : ∀ (ns : List String) (is : List Nat), ns.mapM (ofStatement s).find? = some is →
        [ns].mapM (fun ns : List String => ns.mapM (ofStatement s).find?) = some [is] := by
      intro ns is h
      simp [h]
    exact hone _ _ hplaces

theorem mapM_foreignKeys {s : CreateTable}
    (hnames : TableRule.duplicate? [] (s.columns.map (·.name)) = none) :
    ((ofStatement s).foreignKeys.mapM fun (c, r) =>
        ((ofStatement s).find? c).map (ForeignKey.mk · r)) =
      some ((List.range s.columns.length).filterMap fun i =>
        (s.columns[i]?.bind (·.type.properties.foreignKey)).map (⟨i, ·⟩)) := by
  rw [foreignKeys_ofStatement]
  refine (mapM_filterMap (h := fun i a => ⟨i, a.2⟩) fun i c a hc ha => ?_).trans ?_
  · obtain ⟨r, -, rfl⟩ := Option.map_eq_some_iff.mp ha
    simp only [find?_place hnames hc, Option.map_some]
  · refine congrArg some (List.filterMap_congr fun i _ => ?_)
    cases s.columns[i]? with
    | none => rfl
    | some c => simp [Function.comp_def]

theorem rowId_ofStatement (s : CreateTable) :
    (ofStatement s).rowId (if (TableRule.keyPlaces s.columns).isEmpty then []
        else [TableRule.keyPlaces s.columns]) =
      match TableRule.numberedPlaces s.columns, TableRule.keyPlaces s.columns with
      | [i], _ => some i
      | _, [i] =>
        if s.columns[i]?.any fun c => TableRule.affinityOf c.type.kind == .integer then some i
        else none
      | _, _ => none := by
  have hnumbered : (ofStatement s).places (·.numbered) = TableRule.numberedPlaces s.columns :=
    places_ofStatement s _
  have hinteger : ∀ i : Nat, ((ofStatement s).columns[i]?.any fun c =>
      affinityOf c.type = .integer) =
        s.columns[i]?.any fun c => TableRule.affinityOf c.type.kind == .integer := by
    intro i
    rw [columns_ofStatement, List.getElem?_map]
    cases s.columns[i]? with
    | none => rfl
    | some c => simp [columnOf, affinityOf_typeWord, Bool.beq_eq_decide_eq]
  unfold rowId
  rw [hnumbered]
  rcases TableRule.numberedPlaces s.columns with - | ⟨i, - | ⟨j, is⟩⟩ <;>
    rcases TableRule.keyPlaces s.columns with - | ⟨k, - | ⟨l, ks⟩⟩
  all_goals first | rfl | exact if_congr (by rw [hinteger]) rfl rfl

/-- What is written of a table definition defines the same table. -/
theorem rule_ofStatement (s : CreateTable) : (ofStatement s).rule = TableRule.ofStatement s := by
  have hnumbered : (ofStatement s).places (·.numbered) = TableRule.numberedPlaces s.columns :=
    places_ofStatement s _
  have hunique : (ofStatement s).places (·.unique) = TableRule.uniquePlaces s.columns :=
    places_ofStatement s _
  have hnames : (ofStatement s).columns.map (·.name) = s.columns.map (·.name) := by
    simp [columns_ofStatement, columnOf]
  have hrules : ((ofStatement s).columns.map fun (c : WrittenColumn) =>
      (⟨c.name, affinityOf c.type, c.notNull⟩ : ColumnRule)) =
        s.columns.map fun c => ⟨c.name, TableRule.affinityOf c.type.kind,
          !c.type.properties.nullable && !c.type.properties.autoIncrement⟩ := by
    simp [columns_ofStatement, columnOf, affinityOf_typeWord]
  -- A key that is the row id needs no check of its own.
  have hunless : ∀ (isRowId isEmpty : Bool) (key : List Nat),
      (if isRowId then [] else if isEmpty then [] else [key]) =
        if isEmpty || isRowId then [] else [key] := by
    intro isRowId isEmpty key
    cases isRowId <;> cases isEmpty <;> rfl
  unfold rule TableRule.ofStatement
  rw [hnames]
  cases hduplicate : TableRule.duplicate? [] (s.columns.map (·.name)) with
  | some n => rfl
  | none =>
    have hkeys := mapM_keys hduplicate
    have hcount : (ofStatement s).keys.length = min 1 (TableRule.keyPlaces s.columns).length := by
      rw [← length_mapM hkeys]
      cases TableRule.keyPlaces s.columns <;> simp
    rw [hkeys, mapM_foreignKeys hduplicate]
    simp only [hnumbered, hunique, hrules, hcount, rowId_ofStatement, hunless]
    by_cases hone : 1 < (TableRule.numberedPlaces s.columns).length +
        min 1 (TableRule.keyPlaces s.columns).length
    · rw [if_pos hone]
      exact (if_pos hone).symm
    · rw [if_neg hone]
      exact (if_neg hone).symm

end WrittenTable

/-! ### Queries -/

/-- The text of an operation is read back as the tree it was written from. -/
theorem Written.ofText?_operation {s : Schema} {op : Operation} (hop : op.IsBasic s) :
    Written.ofText? (Dialect.text .sqlite (Dialect.operation .sqlite op)) =
      some (Written.ofOperation op) := by
  have hlex := spells_operation hop readsAs_nil trivial
  have htree : LexemeReader.Reads LexemeReader.expression (Lexeme.ofOperation op ++ [])
      (ofOperation op) [] := LexemeReader.reads_operation hop trivial
  rw [List.append_nil, List.append_nil] at hlex
  rw [LexemeReader.Reads, LexemeReader.expression, List.append_nil] at htree
  simp [Written.ofText?, Dialect.text, hlex.read, htree]

/-- What an operation is looked up as. -/
theorem Scope.operation_eq {s : Schema} {op : Operation} (hop : op.IsBasic s) (scope : Scope) :
    scope.operation op = (Written.ofOperation op).resolve scope.look := by
  have hread : scope.read (Dialect.operation .sqlite op) =
      (Written.ofOperation op).resolve scope.look := by
    rw [Scope.read, Written.ofText?_operation hop]
  cases hop with
  | column => rfl
  | _ => exact hread

namespace WrittenQuery

variable {s : Schema} {scope : Scope}

theorem mapM_fieldOf : ∀ {fields : List SelectField}, (∀ f ∈ fields, f.op.IsBasic s) →
    (fields.map fieldOf).mapM (fun f => f.expr.resolve scope.look) =
      fields.mapM fun f => scope.operation f.op
  | [], _ => rfl
  | f :: fields, hops => by
    obtain ⟨hf, htail⟩ := List.forall_mem_cons.mp hops
    rw [List.map_cons, List.mapM_cons, List.mapM_cons, mapM_fieldOf htail,
      Scope.operation_eq hf scope]
    rfl

theorem shown_fieldsOf {fields : List SelectField} (hops : ∀ f ∈ fields, f.op.IsBasic s) :
    shown scope (fieldsOf fields) = Query.shownOf scope fields := by
  cases fields with
  | nil => rfl
  | cons f fields =>
    have hrows : aggregations? (f :: fields) = none := by
      have hop := hops f List.mem_cons_self
      unfold aggregations?
      rw [List.mapM_cons]
      cases hf : f.op with
      | aggregate =>
        rw [hf] at hop
        cases hop
      | _ => rfl
    unfold Query.shownOf
    rw [hrows]
    simp only [fieldsOf, shown, mapM_fieldOf hops]

theorem condition_ofCondition {filter : Option Condition} (hfilter : ∀ c ∈ filter, c.IsBasic s) :
    condition scope (filter.map .ofCondition) = scope.condition filter := by
  cases filter with
  | none => rfl
  | some c =>
    simp only [Scope.condition, Scope.read, Written.ofText?_condition (hfilter c rfl)]
    rfl

theorem sortTerm_orderOf {fields : List SelectField} (hops : ∀ f ∈ fields, f.op.IsBasic s)
    (o : OrderBy) :
    sortTerm scope ((fieldsOf fields).getD []) (orderOf o) = Query.sortTerm scope fields o := by
  have hfields : (fieldsOf fields).getD [] = fields.map fieldOf := by cases fields <;> rfl
  unfold sortTerm Query.sortTerm
  rw [hfields, List.find?_map]
  have hnamed : ((fun f : WrittenField => (orderOf o).column.table.isNone &&
      f.asName.any (sameName (orderOf o).column.name)) ∘ fieldOf) = fun f =>
        o.column.tableAlias.isNone && (Dialect.fieldName f).any (sameName o.column.name) := rfl
  rw [hnamed]
  cases hfind : fields.find? fun f =>
      o.column.tableAlias.isNone && (Dialect.fieldName f).any (sameName o.column.name) with
  | none => rfl
  | some f =>
    have hop := Scope.operation_eq (hops f (List.mem_of_find?_eq_some hfind)) scope
    simp only [Option.map_some, fieldOf, hop]
    rfl

/-- What is written of a query is looked up like the query itself. -/
theorem lookUp_ofStatement {t : Table} {q : Select} (hq : q.IsBasic s t) (rule : TableRule) :
    (ofStatement t q).lookUp rule = Query.ofStatement (.ofTable rule t) q := by
  have horder : (q.orderBy.map orderOf).mapM
      (sortTerm (.ofTable rule t) ((fieldsOf q.fields).getD [])) =
        q.orderBy.mapM (Query.sortTerm (.ofTable rule t) q.fields) := by
    rw [List.mapM_map]
    exact congrArg q.orderBy.mapM (funext fun o => sortTerm_orderOf hq.fields o)
  unfold lookUp Query.ofStatement ofStatement
  simp only [shown_fieldsOf hq.fields, condition_ofCondition hq.filter, horder, hq.joins,
    hq.groupBy]
  rfl

end WrittenQuery

/-! ### What their texts do -/

namespace Tables

/-- **An INSERT is prepared as its text says.** -/
theorem prepare_eq_prepareText (ts : Tables) {i : Insert} (hcolumns : i.columns ≠ []) :
    ts.prepare i = ts.prepareText (Dialect.text .sqlite (Dialect.insert .sqlite i)) := by
  unfold prepare prepareText
  rw [LexemeReader.ofText?_insert hcolumns]
  simp only [List.isEmpty_eq_false_iff.mpr hcolumns, WrittenInsert.insertion_ofStatement]
  rfl

/-- **A table is made as the text of its definition says.** -/
theorem createTable_eq_createText (ts : Tables) {s : CreateTable} (hcolumns : s.columns ≠ []) :
    ts.createTable s = ts.createText (Dialect.compile .sqlite (.createTable s)) := by
  have hread : LexemeReader.createTable.ofText? (Dialect.compile .sqlite (.createTable s)) =
      some (.ofStatement s) := LexemeReader.ofText?_createTable hcolumns
  unfold createTable createText
  rw [hread]
  simp only [List.isEmpty_eq_false_iff.mpr hcolumns, WrittenTable.rule_ofStatement]
  rfl

/-- **A query gives what its text says.** -/
theorem query_eq_queryText (ts : Tables) {s : Schema} {t : Table} {q : Select}
    (hq : q.IsBasic s t) :
    ts.query q = ts.queryText (Dialect.text .sqlite (Dialect.select .sqlite q)) := by
  unfold query queryText
  rw [LexemeReader.ofText?_query hq, hq.source]
  simp only [WrittenQuery.lookUp_ofStatement hq]
  rfl

/-- The query of a record type, with a condition, is among those that are covered. -/
theorem isBasic_select {s : Schema} {c : Condition} (hc : c.IsBasic s) :
    (s.select.addFilter c).IsBasic s (.named s.table) := by
  refine ⟨rfl, fun f hf => ?_, rfl, fun d hd => Option.some.inj hd ▸ hc, rfl⟩
  have hfields : (s.select.addFilter c).fields = s.columns.map fun c => showing (col c.name) := by
    simp [Schema.select, Select.of, Select.addFilter, SqlRecords.fields, Function.comp_def]
  rw [hfields] at hf
  obtain ⟨own, hown, rfl⟩ := List.mem_map.mp hf
  have howns : s.Owns (.named own.name) :=
    ⟨by simp [Column.named, Column.define], own, hown, sameName_refl _⟩
  exact .column howns

/-- **The text of a filtered query** gives the rows that the condition is true on. -/
theorem queryText_select {ts : Tables} {s : Schema} {ifNotExists : Bool} {t : StoredTable}
    {c : Condition} (htable : ts.find? s.table = some t)
    (hrule : TableRule.ofStatement (s.createTable ifNotExists) = .ok t.rule)
    (hfields : s.fields ≠ []) (hc : c.IsBasic s) :
    ts.queryText (Dialect.text .sqlite (Dialect.select .sqlite (s.select.addFilter c))) =
      .ok ((t.rows.filter fun row => t.rule.truth row c == some true).map fun row =>
        .ok ((List.range s.numColumns).map row.value)) := by
  rw [← query_eq_queryText ts (isBasic_select hc)]
  exact query_select htable hrule hfields hc

end Tables

end SqlRecords.Sqlite
