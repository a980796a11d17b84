import SqlRecords.Proofs.Dialect.Grouping
import SqlRecords.Proofs.Dialect.Renaming

/-!
# The dialects agree on the language that they share

Queries, updates and deletions may use operations that no dialect has a spelling of its own
for (`Operation.IsShared`), nested to any depth, in conditions, fields and assignments, below
joins and in queries inside queries. Every dialect writes such a statement with the same tokens,
and none of them is the place of a bound value, which dialects write differently. So nothing is
left to differ but the quotes around names.

`Sql.Shared` says this of a piece of SQL that depends on the dialect; it has a rule for each way
that the compilers put pieces together.

## What is proved

* `Operation.IsShared.shared`, `Condition.IsShared.shared`, `Select.IsShared.shared`: the pieces of
  a statement.
* **`Dialect.compile_shared`**: SQLite and PostgreSQL have the same text, and that of MySQL differs
  in the quotes around names alone.
-/

namespace SqlRecords

/-! ### The shared language -/

/-- All dialects have the function under this name. -/
def ScalarFunction.IsShared : ScalarFunction → Prop
  | .length | .log2 => False
  | _ => True

instance : DecidablePred ScalarFunction.IsShared
  | .length | .log2 => isFalse id
  | .abs | .ceil | .cos | .exp | .floor | .ln | .lower | .sin | .sqrt | .tan | .upper =>
    isTrue trivial

/-- An operation that all dialects write alike. -/
inductive Operation.IsShared : Operation → Prop
  /-- A function, but not the length of a text or a binary logarithm. -/
  | call {f : ScalarFunction} (hf : f.IsShared) {arg : Operation} (h : IsShared arg) :
    IsShared (.call f arg)
  /-- Arithmetic, but no remainder. -/
  | arith {o : Arithmetic} (ho : o ≠ .modulo) {lhs rhs : Operation} (hl : IsShared lhs)
    (hr : IsShared rhs) : IsShared (.arith o lhs rhs)
  /-- The first of some values that is not NULL. -/
  | coalesce {args : List Operation} (h : ∀ op ∈ args, IsShared op) : IsShared (.coalesce args)
  /-- A text with a piece replaced. -/
  | replaceAll {arg piece substitute : Operation} (ha : IsShared arg) (hp : IsShared piece)
    (hs : IsShared substitute) : IsShared (.replaceAll arg piece substitute)
  /-- An aggregate. -/
  | aggregate (a : Aggregation) : IsShared (.aggregate a)
  /-- A column. -/
  | column (c : Column) : IsShared (.column c)
  /-- A literal. -/
  | value (v : Value) : IsShared (.value v)

/-- A condition over operations that all dialects write alike. -/
inductive Condition.IsShared : Condition → Prop
  | and {lhs rhs : Condition} (hl : IsShared lhs) (hr : IsShared rhs) : IsShared (.and lhs rhs)
  | or {lhs rhs : Condition} (hl : IsShared lhs) (hr : IsShared rhs) : IsShared (.or lhs rhs)
  | not {c : Condition} (h : IsShared c) : IsShared (.not c)
  | compare (o : Comparison) {lhs rhs : Operation} (hl : lhs.IsShared) (hr : rhs.IsShared) :
    IsShared (.compare o lhs rhs)
  | isNull {arg : Operation} (h : arg.IsShared) : IsShared (.isNull arg)
  | isNotNull {arg : Operation} (h : arg.IsShared) : IsShared (.isNotNull arg)
  | like {arg : Operation} (h : arg.IsShared) (pattern : String) : IsShared (.like arg pattern)
  | notLike {arg : Operation} (h : arg.IsShared) (pattern : String) :
    IsShared (.notLike arg pattern)

/-- What a query takes rows from. -/
def Select.sources (q : Select) : List Source := q.source :: q.joins.map JoinOf.source

/-- A query over operations that all dialects write alike, as are those inside of it. -/
inductive Select.IsShared : Select → Prop
  | intro {q : Select}
    (hnested : ∀ inner asName, SourceOf.query inner asName ∈ q.sources → Select.IsShared inner)
    (hfields : ∀ f ∈ q.fields, f.op.IsShared) (hon : ∀ j ∈ q.joins, j.condition.IsShared)
    (hfilter : ∀ c ∈ q.filter, c.IsShared) : Select.IsShared q

/-- A query, an update or a deletion over operations that all dialects write alike. -/
inductive Statement.IsShared : Statement → Prop
  | select {q : Select} (h : q.IsShared) : IsShared (.select q)
  | update {u : Update} (hsets : ∀ a ∈ u.sets, a.value.IsShared)
    (hfilter : ∀ c ∈ u.filter, c.IsShared) : IsShared (.update u)
  | delete {d : DeleteFrom} (hfilter : ∀ c ∈ d.filter, c.IsShared) : IsShared (.delete d)

/-! ### Pieces that all dialects write alike -/

/-- No token is the place of a bound value. -/
def Sql.IsPlaceless (p : Sql) : Prop := ∀ i, Token.place i ∉ p

/-- A piece of SQL that has the same tokens in every dialect, none of them the place of a bound
value. -/
def Sql.Shared (p : Dialect → Sql) : Prop := ∃ sql : Sql, sql.IsPlaceless ∧ ∀ d, p d = sql

namespace Sql

variable {p q : Dialect → Sql} {α : Type}

theorem shared_of_placeless {sql : Sql} (h : sql.IsPlaceless) : Shared fun _ => sql :=
  ⟨sql, h, fun _ => rfl⟩

theorem shared_nil : Shared fun _ => [] := shared_of_placeless fun _ => List.not_mem_nil

theorem shared_word (w : String) : Shared fun _ => [.word w] :=
  shared_of_placeless fun i h => by cases List.mem_singleton.mp h

theorem shared_name (n : String) : Shared fun _ => [.name n] :=
  shared_of_placeless fun i h => by cases List.mem_singleton.mp h

theorem shared_string (s : String) : Shared fun _ => [.string s] :=
  shared_of_placeless fun i h => by cases List.mem_singleton.mp h

theorem Shared.append (hp : Shared p) (hq : Shared q) : Shared fun d => p d ++ q d := by
  obtain ⟨a, ha, hpa⟩ := hp
  obtain ⟨b, hb, hqb⟩ := hq
  refine ⟨a ++ b, fun i h => ?_, fun d => by simp only [hpa, hqb]⟩
  rcases List.mem_append.mp h with h | h
  · exact ha i h
  · exact hb i h

theorem Shared.word (w : String) (hp : Shared p) : Shared fun d => .word w :: p d :=
  (shared_word w).append hp

theorem Shared.name (n : String) (hp : Shared p) : Shared fun d => .name n :: p d :=
  (shared_name n).append hp

theorem Shared.between (before after : String) (hp : Shared p) :
    Shared fun d => Sql.between before (p d) after :=
  (hp.append (shared_word after)).word before

theorem shared_separated (w : String) {f : Dialect → α → Sql} : ∀ {items : List α},
    (∀ x ∈ items, Shared fun d => f d x) → Shared fun d => separated w (items.map (f d))
  | [], _ => shared_nil
  | [x], h => h x List.mem_cons_self
  | x :: _ :: _, h =>
    (h x List.mem_cons_self).append
      ((shared_separated w fun z hz => h z (List.mem_cons_of_mem x hz)).word w)

theorem shared_commas {f : Dialect → α → Sql} {items : List α}
    (h : ∀ x ∈ items, Shared fun d => f d x) : Shared fun d => commas (items.map (f d)) :=
  shared_separated ", " h

end Sql

open Sql

namespace Dialect

/-! ### Operations and conditions -/

theorem shared_literal (v : Value) : Shared fun _ => literal v := by
  cases v with
  | string s => exact shared_string s
  | _ => exact shared_word _

theorem shared_columnName (c : Column) : Shared fun _ => columnName c := by
  unfold columnName
  split
  · exact (shared_name _).append ((shared_name _).word ".")
  · exact shared_name _

theorem shared_operand (x : Operand) : Shared fun _ => operand x := by
  cases x with
  | column c => exact shared_columnName c
  | value v => exact shared_literal v

theorem shared_aggregation (a : Aggregation) : Shared fun _ => aggregation a := by
  unfold aggregation
  split
  · exact (shared_operand _).between _ _
  · exact shared_word _
  · exact (shared_operand _).between _ _
  · exact (shared_operand _).between _ _

theorem shared_callOpening {f : ScalarFunction} (h : f.IsShared) (d : Dialect) :
    d.callOpening f = sqlite.callOpening f := by
  cases f with
  | length => cases h
  | log2 => cases h
  | _ => cases d <;> rfl

theorem arith_of_ne_modulo {o : Arithmetic} (h : o ≠ .modulo) (d : Dialect) (lhs rhs : Sql) :
    d.arith o lhs rhs =
      .word "(" :: lhs ++ .word (" " ++ arithmeticSign o ++ " ") :: rhs ++ [.word ")"] := by
  cases o with
  | modulo => exact absurd rfl h
  | _ => cases d <;> rfl

end Dialect

open Dialect

/-- An operation of the shared language is written alike. -/
theorem Operation.IsShared.shared {op : Operation} (h : op.IsShared) :
    Shared fun d => d.operation op := by
  induction h with
  | call hf _ ih =>
    simp only [operation, shared_callOpening hf]
    exact ih.between _ _
  | arith ho _ _ ihl ihr =>
    simp only [operation, arith_of_ne_modulo ho]
    exact ((ihl.word _).append (ihr.word _)).append (shared_word _)
  | coalesce _ ih =>
    simp only [operation, operations_eq_map]
    exact (shared_commas ih).between _ _
  | @replaceAll arg piece substitute _ _ _ iha ihp ihs =>
    simp only [operation]
    exact (iha.append ((ihp.append (ihs.word ", ")).word ", ")).between _ _
  | aggregate a =>
    simp only [operation]
    exact shared_aggregation a
  | column c =>
    simp only [operation]
    exact shared_columnName c
  | value v =>
    simp only [operation]
    exact shared_literal v

/-- A condition over such operations is written alike. -/
theorem Condition.IsShared.shared {c : Condition} (h : c.IsShared) :
    Shared fun d => d.condition c := by
  induction h with
  | and _ _ ihl ihr | or _ _ ihl ihr =>
    exact ((ihl.word _).append (ihr.word _)).append (shared_word _)
  | not _ ih => exact ih.between _ _
  | compare o hl hr => exact hl.shared.append (hr.shared.word _)
  | isNull h | isNotNull h => exact h.shared.append (shared_word _)
  | like h pattern | notLike h pattern => exact h.shared.append ((shared_string _).word _)

/-! ### Queries -/

namespace Dialect

theorem shared_tableName (t : Table) : Shared fun _ => tableName t := by
  unfold tableName
  split
  · exact (shared_name _).append ((shared_name _).word ".")
  · exact shared_name _

theorem shared_tableSource (t : Table) : Shared fun _ => tableSource t := by
  unfold tableSource
  split
  · exact (shared_tableName t).append ((shared_name _).word " ")
  · exact shared_tableName t

theorem shared_selectField {f : SelectField} (h : f.op.IsShared) :
    Shared fun d => d.selectField f := by
  unfold selectField
  split
  · exact h.shared.append ((shared_name _).word _)
  · exact h.shared.append shared_nil

theorem shared_selectFields {fields : List SelectField} (h : ∀ f ∈ fields, f.op.IsShared) :
    Shared fun d => d.selectFields fields := by
  cases fields with
  | nil => exact shared_word "*"
  | cons f rest => exact shared_commas fun g hg => shared_selectField (h g hg)

theorem shared_whereClause {filter : Option Condition} (h : ∀ c ∈ filter, c.IsShared) :
    Shared fun d => d.whereClause filter := by
  cases filter with
  | none => exact shared_nil
  | some c => exact (h c rfl).shared.word _

theorem shared_groupByClause (columns : List Column) : Shared fun _ => groupByClause columns := by
  cases columns with
  | nil => exact shared_nil
  | cons c rest => exact (shared_commas fun c _ => shared_columnName c).word _

theorem shared_orderByClause (orders : List OrderBy) : Shared fun _ => orderByClause orders := by
  cases orders with
  | nil => exact shared_nil
  | cons o rest =>
    refine (shared_commas (f := fun _ o => _) fun o _ => ?_).word _
    refine (shared_columnName o.column).append ?_
    split
    · exact shared_word _
    · exact shared_nil

theorem shared_limitClause (limit : Option UInt64) : Shared fun _ => limitClause limit := by
  cases limit with
  | none => exact shared_nil
  | some n => exact shared_word _

theorem shared_source {source : Source}
    (h : ∀ inner asName, source = .query inner asName → Shared fun d => d.select inner) :
    Shared fun d => d.source source := by
  cases source with
  | table t =>
    simp only [Dialect.source]
    exact shared_tableSource t
  | query q asName =>
    simp only [Dialect.source]
    exact ((h q asName rfl).word _).append ((shared_name _).word _)

theorem shared_joins : ∀ {joins : List Join},
    (∀ j ∈ joins, (Shared fun d => d.source j.source) ∧ j.condition.IsShared) →
      Shared fun d => d.joins joins
  | [], _ => by
    simp only [Dialect.joins]
    exact shared_nil
  | ⟨kind, source, condition⟩ :: rest, h => by
    obtain ⟨hsource, hon⟩ := h _ List.mem_cons_self
    have hrest := shared_joins fun j hj => h j (List.mem_cons_of_mem _ hj)
    simp only [Dialect.joins, Dialect.join]
    exact (((hsource.word _).append (hon.shared.word _)).word _).append hrest

end Dialect

/-- A query over such operations is written alike. The induction is on the queries inside of it. -/
theorem Select.IsShared.shared {q : Select} (h : q.IsShared) : Shared fun d => d.select q := by
  induction h with
  | @intro q hnested hfields hon hfilter ih =>
    have hsource {s : Source} (hs : s ∈ q.sources) : Shared fun d => d.source s :=
      shared_source fun inner asName he => ih inner asName (he ▸ hs)
    have hjoins : Shared fun d => d.joins q.joins := shared_joins fun j hj =>
      ⟨hsource (List.mem_cons_of_mem _ (List.mem_map_of_mem hj)), hon j hj⟩
    obtain ⟨source, fields, joins, filter, groupBy, orderBy, limit⟩ := q
    simp only [select]
    refine .append (.append (.append (.append (.append (.append ?_ ?_) hjoins) ?_) ?_) ?_) ?_
    · exact (shared_selectFields hfields).word _
    · exact (hsource List.mem_cons_self).word _
    · exact shared_whereClause hfilter
    · exact shared_groupByClause groupBy
    · exact shared_orderByClause orderBy
    · exact shared_limitClause limit

/-! ### Statements -/

/-- A statement over such operations is written alike. -/
theorem Statement.IsShared.shared {s : Statement} (h : s.IsShared) :
    Shared fun d => d.statement s := by
  cases h with
  | select h => exact h.shared.append (shared_word ";")
  | @update u hsets hfilter =>
    have hassignments : Shared fun d => commas (u.sets.map d.assignment) :=
      shared_commas fun a ha => ((hsets a ha).shared.word _).name a.column.name
    exact ((((shared_tableName u.table).word _).append (hassignments.word _)).append
      (shared_whereClause hfilter)).append (shared_word ";")
  | @delete s hfilter =>
    exact (((shared_tableName s.table).word _).append (shared_whereClause hfilter)).append
      (shared_word ";")

/-! ### What is left to differ -/

/-- The glyph with backticks in the place of double quotes. -/
def Glyph.backquoted : Glyph → Glyph
  | .plain c => .plain c
  | .quoted quote content => .quoted (if quote = '"' then '\x60' else quote) content

/-- The text that shows some glyphs, in which the quotes inside of quotes are doubled. -/
def Glyph.text (seen : List Glyph) : String := String.ofList (seen.flatMap Glyph.chars)

namespace Dialect

theorem text_eq_text_glyphs (d : Dialect) (sql : Sql) : d.text sql = Glyph.text (d.glyphs sql) :=
  congrArg String.ofList (chars_eq_flatMap sql)

/-- PostgreSQL quotes like SQLite. -/
theorem glyphs_postgres {sql : Sql} (h : sql.IsPlaceless) :
    postgres.glyphs sql = sqlite.glyphs sql := by
  induction sql with
  | nil => rfl
  | cons t rest ih =>
    have hrest := ih fun i hi => h i (List.mem_cons_of_mem t hi)
    rw [glyphs_cons, glyphs_cons, hrest]
    cases t with
    | place i => exact absurd List.mem_cons_self (h i)
    | _ => rfl

/-- MySQL puts backticks where SQLite has double quotes. -/
theorem glyphs_mysql {sql : Sql} (h : sql.IsPlaceless) :
    mysql.glyphs sql = (sqlite.glyphs sql).map Glyph.backquoted := by
  induction sql with
  | nil => rfl
  | cons t rest ih =>
    have hrest := ih fun i hi => h i (List.mem_cons_of_mem t hi)
    rw [glyphs_cons, glyphs_cons, hrest, List.map_append]
    cases t with
    | place i => exact absurd List.mem_cons_self (h i)
    | word w =>
      simp [Token.glyphs, Token.chars, Function.comp_def, Glyph.backquoted]
    | _ => rfl

/-- **The dialects agree on the language that they share.** SQLite and PostgreSQL have the same text
for a query, an update or a deletion in it. What a reader of MySQL sees of the text for MySQL is
what a reader of SQLite sees of the text for SQLite, with backticks for the double quotes that
names are in, and the texts are how these are shown. -/
theorem compile_shared {s : Statement} (h : s.IsShared) :
    postgres.compile s = sqlite.compile s ∧
      ∃ seen, sqlite.scan (sqlite.compile s) = some seen ∧
        mysql.scan (mysql.compile s) = some (seen.map Glyph.backquoted) ∧
        sqlite.compile s = Glyph.text seen ∧
        mysql.compile s = Glyph.text (seen.map Glyph.backquoted) := by
  obtain ⟨sql, hplaceless, hsql⟩ := h.shared
  have hsql (d : Dialect) : d.statement s = sql := hsql d
  have hmysql : mysql.glyphs (mysql.statement s) =
      (sqlite.glyphs (sqlite.statement s)).map Glyph.backquoted := by
    rw [hsql, hsql]
    exact glyphs_mysql hplaceless
  refine ⟨?_, sqlite.glyphs (sqlite.statement s), scan_compile sqlite s, ?_, ?_, ?_⟩
  · rw [compile, compile, hsql, hsql, text_eq_text_glyphs, text_eq_text_glyphs,
      glyphs_postgres hplaceless]
  · rw [scan_compile, hmysql]
  · exact text_eq_text_glyphs _ _
  · rw [compile, text_eq_text_glyphs, hmysql]

/-- A query with another one inside, under names with quotes in them. -/
def quotedQuery : Select where
  source := .table (.named "a\"b")
  fields := [⟨.call .ln (.aggregate (.of .sum (.column (.named "c\x60d")))), some "e"⟩]
  joins := [{
    kind := .leftOuter
    source := .query
      { Select.of (.table (.named "t")) [] with
        filter := some (.like (.replaceAll (.column (.named "n")) (.value (.string "'"))
          (.value (.string "\""))) "x%") } "f"
    condition := .compare .less (.coalesce [.column (.named "g"), .value (.integer 0)])
      (.value (.integer 1)) }]
  filter := none
  groupBy := [.named "g"]
  orderBy := [⟨.named "e", true⟩]
  limit := some 3

theorem isShared_quotedQuery : quotedQuery.IsShared := by
  refine ⟨fun inner asName h => ?_, fun f hf => ?_, fun j hj => ?_, fun c hc => by cases hc⟩
  · -- the table is no query
    obtain ⟨⟨⟩⟩ : SourceOf.query inner asName = _ := List.mem_singleton.mp
      ((List.mem_cons.mp h).resolve_left nofun)
    refine ⟨fun _ _ h => ?_, nofun, nofun, fun c hc => ?_⟩
    · cases List.mem_singleton.mp h
    · cases hc
      exact .like (.replaceAll (.column _) (.value _) (.value _)) _
  · obtain rfl := List.mem_singleton.mp hf
    exact .call (f := .ln) trivial (.aggregate _)
  · obtain rfl := List.mem_singleton.mp hj
    refine .compare _ (.coalesce fun op hop => ?_) (.value _)
    rcases List.mem_cons.mp hop with rfl | hop
    · exact .column _
    · obtain rfl := List.mem_singleton.mp hop
      exact .value _

theorem compile_shared_quoted :
    (Statement.select quotedQuery).IsShared ∧
      postgres.compile (.select quotedQuery) = sqlite.compile (.select quotedQuery) ∧
        ∃ seen, sqlite.scan (sqlite.compile (.select quotedQuery)) = some seen ∧
          mysql.compile (.select quotedQuery) = Glyph.text (seen.map Glyph.backquoted) := by
  have hshared : (Statement.select quotedQuery).IsShared := .select isShared_quotedQuery
  obtain ⟨hpostgres, seen, hseen, -, -, hmysql⟩ := compile_shared hshared
  exact ⟨hshared, hpostgres, seen, hseen, hmysql⟩

end Dialect

end SqlRecords
