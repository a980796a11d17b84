import SqlRecords.Codec.Statement
import SqlRecords.Proofs.Codec.Expression

/-!
# Statements are read back from their JSON form

A statement is written as JSON and read again. JSON has no infinite numbers, so the literals of
the statement, which `Statement.literals` lists, have to be finite. Then it comes back as it was,
also when the JSON is spelled in another way (`Json.Respelling`): members that are `null` left
out, unknown ones added, and the members of any structure in any order.

## What is proved

* `Codec.reads_select`: a query, with its joins and queries inside of it to any depth.
* `Codec.reads_statement`: a statement of any kind.
* **`Codec.statement_lossless`**: every spelling of the form of a statement is read as it.
-/

namespace SqlRecords

/-! ### Literals -/

/-- The literals of a field of a query. -/
def SelectField.literals (f : SelectField) : List Value := f.op.literals

mutual

/-- The literals of a query. -/
def Select.literals : Select → List Value
  | ⟨source, fields, joins, filter, _, _, _⟩ =>
    Select.sourceLiterals source ++ fields.flatMap SelectField.literals ++
      Select.joinsLiterals joins ++ filter.toList.flatMap Condition.literals

/-- The literals of a source. -/
def Select.sourceLiterals : SourceOf Select → List Value
  | .table _ => []
  | .query q _ => q.literals

/-- The literals of some joins. -/
def Select.joinsLiterals : List (JoinOf Select) → List Value
  | [] => []
  | j :: rest => Select.joinLiterals j ++ Select.joinsLiterals rest

/-- The literals of a join. -/
def Select.joinLiterals : JoinOf Select → List Value
  | ⟨_, source, condition⟩ => Select.sourceLiterals source ++ condition.literals

end

/-- The literals of a new value. -/
def Assignment.literals (a : Assignment) : List Value := a.value.literals

/-- The literals of a statement. -/
def Statement.literals : Statement → List Value
  | .createTable _ | .insert _ | .write _ | .drop _ => []
  | .createIndex s => s.filter.toList.flatMap Condition.literals
  | .createAs s => s.query.literals
  | .select s => s.literals
  | .update s => s.sets.flatMap Assignment.literals ++ s.filter.toList.flatMap Condition.literals
  | .delete s => s.filter.toList.flatMap Condition.literals

namespace Codec

open Json

/-! ### Queries -/

/-- A filter that may be missing. -/
theorem reads_filter {filter : Option Condition}
    (h : ∀ v ∈ filter.toList.flatMap Condition.literals, v.isFinite) :
    ∀ c ∈ filter, Reads condition? (ofCondition c) c := by
  intro c hc
  exact reads_condition c (List.forall_mem_flatMap.mp h c (Option.mem_toList.mpr hc))

theorem reads_selectField {f : SelectField} (h : ∀ v ∈ f.literals, v.isFinite) :
    Reads selectField? (ofSelectField f) f :=
  .ofMembers selectFieldFields (by decide) rfl fun hmembers => by
    rw [selectField?, required_of_reads hmembers rfl (reads_operation f.op h),
      optional_of_reads hmembers rfl fun _ _ => reads_string _]
    rfl

theorem reads_joinKind (k : JoinKind) : Reads joinKind? (.str (joinTag k)) k :=
  reads_tag (by cases k <;> rfl)

theorem reads_orderBy (o : OrderBy) : Reads orderBy? (ofOrderBy o) o :=
  .ofMembers orderByFields (by decide) rfl fun h => by
    rw [orderBy?, required_of_reads h rfl (reads_column _), required_of_reads h rfl (reads_bool _)]
    rfl

mutual

theorem reads_select : ∀ q : Select, (∀ v ∈ q.literals, v.isFinite) →
    Reads select? (ofSelect q) q
  | ⟨source, fields, joins, filter, groupBy, orderBy, limit⟩, h => by
    obtain ⟨h, hfilter⟩ := List.forall_mem_append.mp h
    obtain ⟨h, hjoins⟩ := List.forall_mem_append.mp h
    obtain ⟨hsource, hfields⟩ := List.forall_mem_append.mp h
    have hsource := reads_source source hsource
    have hjoins : Reads (list? join?) (.arr (ofJoins joins)) joins :=
      .ofItems (reads_joins joins hjoins)
    have hfields : Reads (list? selectField?) (ofList ofSelectField fields) fields :=
      .ofList fun f hf => reads_selectField (List.forall_mem_flatMap.mp hfields f hf)
    refine .ofMembers selectFields (by decide) rfl fun {members'} hmembers => ?_
    obtain ⟨p, hp, hpj⟩ := exists_named "source" hmembers rfl hsource.ne_null
    obtain ⟨q, hq, hqj⟩ := exists_named "joins" hmembers rfl hjoins.ne_null
    replace hp : (Json.obj members').part? selectFields "source" = some p := hp
    replace hq : (Json.obj members').part? selectFields "joins" = some q := hq
    rw [select?, hp, hq]
    simp only [Option.bind_eq_bind, Option.bind_some]
    rw [hsource.read hpj, required_of_reads hmembers rfl hfields]
    simp only [Option.bind_some]
    refine (parts_bind join? _ q.1).trans ?_
    rw [hjoins.read hqj, optional_of_reads hmembers rfl (reads_filter hfilter),
      required_of_reads hmembers rfl (.ofList fun c _ => reads_column c),
      required_of_reads hmembers rfl (.ofList fun o _ => reads_orderBy o),
      optional_of_reads hmembers rfl fun n _ => reads_uint64 n]
    rfl

theorem reads_source : ∀ source : SourceOf Select,
    (∀ v ∈ Select.sourceLiterals source, v.isFinite) → Reads source? (ofSource source) source
  | .table t, _ => by
    refine .ofContent SourceOf.table (fun content => ?_) (reads_table t)
    rw [source?]
    rfl
  | .query q name, h => .ofVariant fun {content} hj => by
    have hquery := reads_select q h
    obtain ⟨members', rfl, hmembers⟩ := exists_members ["query", "alias"] (by decide) rfl hj
    have hparts := bind_named_of_reads "query" hmembers rfl hquery fun q => do
      return SourceOf.query q (← Codec.named? "alias" string? (.obj members'))
    rw [source?]
    refine hparts.trans ?_
    rw [named_of_reads hmembers rfl (reads_string name)]
    rfl

theorem reads_joins : ∀ joins : List (JoinOf Select),
    (∀ v ∈ Select.joinsLiterals joins, v.isFinite) →
    List.Forall₂ (Reads join?) (ofJoins joins) joins
  | [], _ => .nil
  | j :: rest, h => by
    obtain ⟨hfirst, hrest⟩ := List.forall_mem_append.mp h
    exact .cons (reads_join j hfirst) (reads_joins rest hrest)

theorem reads_join : ∀ j : JoinOf Select, (∀ v ∈ Select.joinLiterals j, v.isFinite) →
    Reads join? (ofJoin j) j
  | ⟨kind, source, condition⟩, h => by
    obtain ⟨hsource, hcondition⟩ := List.forall_mem_append.mp h
    have hsource := reads_source source hsource
    refine .ofMembers joinFields (by decide) rfl fun {members'} hmembers => ?_
    obtain ⟨p, hp, hpj⟩ := exists_named "source" hmembers rfl hsource.ne_null
    replace hp : (Json.obj members').part? joinFields "source" = some p := hp
    rw [join?, hp, required_of_reads hmembers rfl (reads_joinKind kind),
      required_of_reads hmembers rfl (reads_condition condition hcondition)]
    simp only [Option.bind_eq_bind, Option.bind_some]
    rw [hsource.read hpj]
    rfl

end

/-! ### Tables, indexes and views -/

theorem reads_createTable (s : CreateTable) : Reads createTable? (ofCreateTable s) s :=
  .ofMembers createTableFields (by decide) rfl fun h => by
    rw [createTable?, required_of_reads h rfl (reads_table _),
      required_of_reads h rfl (.ofList fun c _ => reads_column c),
      required_of_reads h rfl (reads_bool _)]
    rfl

theorem reads_createIndex {s : CreateIndex}
    (h : ∀ v ∈ s.filter.toList.flatMap Condition.literals, v.isFinite) :
    Reads createIndex? (ofCreateIndex s) s :=
  .ofMembers createIndexFields (by decide) rfl fun hmembers => by
    rw [createIndex?, required_of_reads hmembers rfl (reads_string _),
      required_of_reads hmembers rfl (reads_table _),
      required_of_reads hmembers rfl (.ofList fun c _ => reads_column c),
      required_of_reads hmembers rfl (reads_bool _), required_of_reads hmembers rfl (reads_bool _),
      optional_of_reads hmembers rfl (reads_filter h)]
    rfl

theorem reads_relationKind (k : RelationKind) : Reads relationKind? (.str (relationTag k)) k :=
  reads_tag (by cases k <;> rfl)

theorem reads_createAs {s : CreateAs} (h : ∀ v ∈ s.query.literals, v.isFinite) :
    Reads createAs? (ofCreateAs s) s :=
  .ofMembers createAsFields (by decide) rfl fun hmembers => by
    rw [createAs?, required_of_reads hmembers rfl (reads_relationKind _),
      required_of_reads hmembers rfl (reads_table _),
      required_of_reads hmembers rfl (reads_select s.query h),
      required_of_reads hmembers rfl (reads_bool _), required_of_reads hmembers rfl (reads_bool _)]
    rfl

theorem reads_drop (s : Drop) : Reads drop? (ofDrop s) s :=
  .ofMembers dropFields (by decide) rfl fun h => by
    rw [drop?, required_of_reads h rfl (reads_relationKind _),
      required_of_reads h rfl (reads_table _), required_of_reads h rfl (reads_bool _),
      required_of_reads h rfl (reads_bool _)]
    rfl

/-! ### Rows -/

theorem reads_insert (s : Insert) : Reads insert? (ofInsert s) s :=
  .ofMembers insertFields (by decide) rfl fun h => by
    rw [insert?, required_of_reads h rfl (reads_table _),
      required_of_reads h rfl (.ofList fun c _ => reads_column c),
      required_of_reads h rfl (reads_bool _),
      required_of_reads h rfl (.ofList fun c _ => reads_column c)]
    rfl

theorem reads_write (s : Write) : Reads write? (ofWrite s) s :=
  .ofMembers writeFields (by decide) rfl fun h => by
    rw [write?, required_of_reads h rfl (reads_table _),
      required_of_reads h rfl (.ofList fun c _ => reads_column c)]
    rfl

theorem reads_assignment {a : Assignment} (h : ∀ v ∈ a.literals, v.isFinite) :
    Reads assignment? (ofAssignment a) a :=
  .ofMembers assignmentFields (by decide) rfl fun hmembers => by
    rw [assignment?, required_of_reads hmembers rfl (reads_column _),
      required_of_reads hmembers rfl (reads_operation a.value h)]
    rfl

theorem reads_update {s : Update} (hsets : ∀ v ∈ s.sets.flatMap Assignment.literals, v.isFinite)
    (hfilter : ∀ v ∈ s.filter.toList.flatMap Condition.literals, v.isFinite) :
    Reads update? (ofUpdate s) s := by
  have hsets : Reads (list? assignment?) (ofList ofAssignment s.sets) s.sets :=
    .ofList fun a ha => reads_assignment (List.forall_mem_flatMap.mp hsets a ha)
  refine .ofMembers updateFields (by decide) rfl fun hmembers => ?_
  rw [update?, required_of_reads hmembers rfl (reads_table _), required_of_reads hmembers rfl hsets,
    optional_of_reads hmembers rfl (reads_filter hfilter)]
  rfl

theorem reads_delete {s : DeleteFrom}
    (h : ∀ v ∈ s.filter.toList.flatMap Condition.literals, v.isFinite) :
    Reads delete? (ofDelete s) s :=
  .ofMembers deleteFields (by decide) rfl fun hmembers => by
    rw [delete?, required_of_reads hmembers rfl (reads_table _),
      optional_of_reads hmembers rfl (reads_filter h)]
    rfl

/-! ### Statements -/

theorem reads_statement {s : Statement} (h : ∀ v ∈ s.literals, v.isFinite) :
    Reads statement? (ofStatement s) s := by
  cases s with
  | createTable s =>
    exact .ofContent Statement.createTable (fun _ => Option.map_eq_bind) (reads_createTable s)
  | createIndex s =>
    exact .ofContent Statement.createIndex (fun _ => Option.map_eq_bind) (reads_createIndex h)
  | createAs s =>
    exact .ofContent Statement.createAs (fun _ => Option.map_eq_bind) (reads_createAs h)
  | insert s => exact .ofContent Statement.insert (fun _ => Option.map_eq_bind) (reads_insert s)
  | write s => exact .ofContent Statement.write (fun _ => Option.map_eq_bind) (reads_write s)
  | select s => exact .ofContent Statement.select (fun _ => Option.map_eq_bind) (reads_select s h)
  | update s =>
    obtain ⟨hsets, hfilter⟩ := List.forall_mem_append.mp h
    exact .ofContent Statement.update (fun _ => Option.map_eq_bind) (reads_update hsets hfilter)
  | delete s => exact .ofContent Statement.delete (fun _ => Option.map_eq_bind) (reads_delete h)
  | drop s => exact .ofContent Statement.drop (fun _ => Option.map_eq_bind) (reads_drop s)

/-- **Nothing is lost in the JSON form of a statement** whose floating point literals are finite:
it is read back as it was, and so is every other spelling of its form. -/
theorem statement_lossless (s : Statement) (h : ∀ v ∈ s.literals, v.isFinite) :
    statement? (ofStatement s) = some s ∧
      ∀ j, (ofStatement s).Respelling j → statement? j = some s := by
  have hreads := reads_statement h
  refine ⟨hreads.read (.refl _), ?_⟩
  intro j hj
  exact hreads.read hj

/-- A deletion is read with its members the other way round, one more among them, and one of the
two that are `null` left out of its table. -/
theorem statement_lossless_reordered :
    statement? (.obj [("DeleteFrom", .obj [
      ("where_clause", .obj [("IsNull", .obj [("Value", .obj [("Float", .float 1.5)])])]),
      ("table", .obj [("schema", .null), ("name", .str "People")]),
      ("comment", .bool true)])]) =
    some (.delete ⟨.named "People", some (.isNull (.value (.float 1.5)))⟩) := by
  have htable : (ofTable (.named "People")).Respelling
      (.obj [("schema", .null), ("name", .str "People")]) :=
    .fields (by decide) (.keep "name" (.refl _) (.leaveOut "alias" (.keep "schema" (.refl _) .nil)))
      (nofun : ∀ m ∈ [], _) (.swap _ _ [])
  have hunknown : ∀ m ∈ [("comment", Json.bool true)], m.1 ∉ ["table", "where_clause"] := by
    simp
  refine (statement_lossless _ (by decide)).2 _ (.variant "DeleteFrom" ?_)
  exact .fields (by decide) (.keep "table" htable (.keep "where_clause" (.refl _) .nil)) hunknown
    (.swap _ _ _)

end Codec

end SqlRecords
