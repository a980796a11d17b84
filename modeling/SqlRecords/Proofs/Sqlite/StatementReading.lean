import SqlRecords.Proofs.Sqlite.StatementLexing

/-!
# Reading the texts of statements

A reader takes a value off the front of some lexemes (`LexemeReader.Reads`). Readers that follow
one another take theirs one after the other (`Reads.bind`), and the reader of a list takes one item
after the other as long as there are commas (`reads_list`). What comes behind tells where a clause
that may be missing ends.

## What is proved

* **`LexemeReader.ofText?_insert`**, **`LexemeReader.ofText?_createTable`**,
  **`LexemeReader.ofText?_query`**: the texts that the SQLite dialect writes are read back as what
  they were written from.
-/

namespace SqlRecords.Sqlite

open Lexeme

/-- What is done with conflicts can be written: ON CONFLICT names a key. -/
def WrittenConflict.IsWritable : WrittenConflict → Prop
  | .resolve target _ => target ≠ []
  | _ => True

/-- A part of a table definition can be written: a primary key has columns. -/
def WrittenPart.IsWritable : WrittenPart → Prop
  | .primaryKey columns => columns ≠ []
  | _ => True

namespace LexemeReader

variable {α β : Type} {input more rest : List Lexeme}

/-! ### Readers -/

/-- A reader takes a value off the front of some lexemes and leaves others behind. -/
def Reads (r : LexemeReader α) (input : List Lexeme) (a : α) (rest : List Lexeme) : Prop :=
  r input = some (a, rest)

theorem reads_pure (a : α) : Reads (pure a) rest a rest := rfl

theorem Reads.bind {r : LexemeReader α} {f : α → LexemeReader β} {a : α} {b : β}
    (h : Reads r input a more) (h' : Reads (f a) more b rest) : Reads (r >>= f) input b rest := by
  calc (r >>= f) input = (r input).bind fun p => f p.1 p.2 := rfl
    _ = some (b, rest) := by rw [h, Option.bind_some, h']

theorem isPrefixOf?_append (ls rest : List Lexeme) : ls.isPrefixOf? (ls ++ rest) = some rest := by
  induction ls with
  | nil => rfl
  | cons l ls ih => simp [List.isPrefixOf?, ih]

theorem reads_expect (ls : List Lexeme) : Reads (expect ls) (ls ++ rest) () rest := by
  rw [Reads, expect, isPrefixOf?_append]
  rfl

theorem reads_optional (ls : List Lexeme) : Reads (optional ls) (ls ++ rest) true rest := by
  rw [Reads, optional, isPrefixOf?_append]

theorem reads_optional_false {l : Lexeme} {ls : List Lexeme} (h : rest.head? ≠ some l) :
    Reads (optional (l :: ls)) rest false rest := by
  have hnone : (l :: ls).isPrefixOf? rest = none := by
    cases rest with
    | nil => rfl
    | cons m rest =>
      have hne : l ≠ m := fun heq => h (heq ▸ rfl)
      simp [List.isPrefixOf?, hne]
  rw [Reads, optional, hnone]

/-- Lexemes that stand or fall with a flag. -/
theorem reads_optional_if {l : Lexeme} {ls : List Lexeme} (flag : Bool)
    (h : rest.head? ≠ some l) :
    Reads (optional (l :: ls)) ((if flag then l :: ls else []) ++ rest) flag rest := by
  cases flag with
  | false => exact reads_optional_false h
  | true => exact reads_optional (l :: ls)

/-- A clause that is there. -/
theorem Reads.clause {r : LexemeReader α} {opening : List Lexeme} {a : α}
    (h : Reads r input a rest) : Reads (clause opening r) (opening ++ input) (some a) rest :=
  (reads_optional opening).bind (h.bind (reads_pure _))

/-- A clause that is missing. -/
theorem reads_clause_none {r : LexemeReader α} {l : Lexeme} {ls : List Lexeme}
    (h : rest.head? ≠ some l) : Reads (clause (l :: ls) r) rest none rest :=
  (reads_optional_false h).bind (reads_pure _)

theorem reads_name (n : String) : Reads name (.name n :: rest) n rest := rfl

/-- A name in front of another one is told by the point behind it. -/
theorem reads_qualified (front : Option String) (n : String)
    (hrest : rest.head? ≠ some (.sign ".")) :
    Reads qualified (Lexeme.qualified front n ++ rest) (front, n) rest := by
  unfold qualified
  cases front with
  | none => exact (reads_name n).bind ((reads_optional_false hrest).bind (reads_pure _))
  | some s =>
    exact (reads_name s).bind ((reads_optional [.sign "."]).bind
      ((reads_name n).bind (reads_pure _)))

theorem reads_table (t : Table) (hrest : rest.head? ≠ some (.sign ".")) :
    Reads table (Lexeme.qualified t.schema t.name ++ rest) { t with asName := none } rest :=
  (reads_qualified t.schema t.name hrest).bind (reads_pure _)

/-! ### Lists -/

/-- An item of a list is read in front of a comma and of what follows the list. -/
def ReadsItems (item : LexemeReader α) (lex : β → List Lexeme) (value : β → α) (items : List β)
    (rest : List Lexeme) : Prop :=
  ∀ b ∈ items, ∀ more, more = rest ∨ more.head? = some (.sign ",") →
    Reads item (lex b ++ more) (value b) more

variable {item : LexemeReader α} {lex : β → List Lexeme} {value : β → α} {items : List β}

theorem reads_listWithin (h : ReadsItems item lex value items rest) (hitems : items ≠ [])
    (hrest : rest.head? ≠ some (.sign ",")) : ∀ {steps : Nat}, items.length ≤ steps →
      Reads (listWithin item steps) (commas (items.map lex) ++ rest) (items.map value) rest := by
  induction items with
  | nil => exact absurd rfl hitems
  | cons b items ih =>
    obtain ⟨hb, hmore⟩ := List.forall_mem_cons.mp h
    intro steps hsteps
    obtain ⟨n, rfl⟩ : ∃ n, steps = n + 1 := ⟨steps - 1, by simp at hsteps; omega⟩
    unfold listWithin
    cases items with
    | nil => exact (hb rest (.inl rfl)).bind ((reads_optional_false hrest).bind (reads_pure _))
    | cons c items =>
      have htail : Reads (listWithin item n) _ _ rest := ih hmore (by simp) (by simpa using hsteps)
      have hcommas : commas ((b :: c :: items).map lex) ++ rest =
          lex b ++ .sign "," :: (commas ((c :: items).map lex) ++ rest) := by
        simp [commas]
      rw [hcommas]
      exact (hb _ (.inr rfl)).bind ((reads_optional [.sign ","]).bind (htail.bind (reads_pure _)))

theorem length_le_commas : ∀ pieces : List (List Lexeme),
    pieces.length ≤ (commas pieces).length + 1
  | [] => Nat.zero_le _
  | [_] => by simp
  | _ :: b :: pieces => by
    have h := length_le_commas (b :: pieces)
    simp only [commas, List.length_append, List.length_cons] at h ⊢
    omega

/-- A list begins like its first item. -/
theorem commas_cons (piece : List Lexeme) (pieces : List (List Lexeme)) (rest : List Lexeme) :
    ∃ more, commas (piece :: pieces) ++ rest = piece ++ more := by
  cases pieces with
  | nil => exact ⟨rest, rfl⟩
  | cons _ _ => exact ⟨_, List.append_assoc _ _ _⟩

theorem reads_list (h : ReadsItems item lex value items rest) (hitems : items ≠ [])
    (hrest : rest.head? ≠ some (.sign ",")) :
    Reads (list item) (commas (items.map lex) ++ rest) (items.map value) rest := by
  have hlength := length_le_commas (items.map lex)
  have hget : Reads get (commas (items.map lex) ++ rest) _ (commas (items.map lex) ++ rest) := rfl
  refine hget.bind (reads_listWithin h hitems hrest ?_)
  simp only [List.length_map, List.length_append] at hlength ⊢
  omega

theorem reads_bracketed (h : ReadsItems item lex value items (.sign ")" :: rest))
    (hitems : items ≠ []) :
    Reads (bracketed item) (brackets (commas (items.map lex)) ++ rest) (items.map value) rest := by
  have hinput : brackets (commas (items.map lex)) ++ rest =
      .sign "(" :: (commas (items.map lex) ++ .sign ")" :: rest) := by simp [brackets]
  rw [hinput]
  exact (reads_expect [.sign "("]).bind ((reads_list h hitems (by simp)).bind
    ((reads_expect [.sign ")"]).bind (reads_pure _)))

theorem reads_names {ns : List String} (hns : ns ≠ []) :
    Reads (bracketed name) (brackets (names ns) ++ rest) ns rest := by
  have h : Reads (bracketed name) (brackets (names ns) ++ rest) (ns.map id) rest :=
    reads_bracketed (fun n _ _ _ => reads_name n) hns
  rwa [List.map_id] at h

/-! ### INSERT -/

theorem reads_overwritten (n : String) : Reads overwritten (overwriting n ++ rest) n rest := by
  unfold overwritten
  refine (reads_name n).bind ((reads_expect [.sign "=", .word "excluded", .sign "."]).bind
    ((reads_name n).bind ?_))
  rw [if_pos rfl]
  exact reads_pure n

theorem reads_conflict {c : WrittenConflict} (hc : c.IsWritable) :
    Reads (conflict (decide (c = .replace))) (ofConflict c ++ [.sign ";"]) c [.sign ";"] := by
  unfold conflict
  cases c with
  | refuse => exact (reads_optional_false (by simp [ofConflict])).bind (reads_pure _)
  | replace => exact reads_pure _
  | resolve target columns =>
    have hinput : ofConflict (.resolve target columns) ++ [.sign ";"] =
        [.word "on", .word "conflict"] ++ (brackets (names target) ++ ([.word "do"] ++
          (ofOverwritten columns ++ [.sign ";"]))) := by
      simp [ofConflict]
    rw [hinput]
    refine (reads_optional _).bind ((reads_names hc).bind ((reads_expect [.word "do"]).bind ?_))
    cases columns with
    | nil => exact (reads_optional [.word "nothing"]).bind (reads_pure _)
    | cons c columns =>
      have hsets : Reads (list overwritten) (commas ((c :: columns).map overwriting) ++ [.sign ";"])
          ((c :: columns).map id) [.sign ";"] :=
        reads_list (fun n _ _ _ => reads_overwritten n) (by simp) (by simp)
      rw [List.map_id] at hsets
      exact (reads_optional_false (by simp [ofOverwritten])).bind
        ((reads_expect [.word "update", .word "set"]).bind (hsets.bind (reads_pure _)))

theorem reads_places {n : Nat} (hn : n ≠ 0) :
    Reads (bracketed (expect [.sign "?"]))
      (brackets (commas (List.replicate n [.sign "?"])) ++ rest) (List.replicate n ()) rest := by
  have h : Reads (bracketed (expect [.sign "?"]))
      (brackets (commas ((List.replicate n ()).map fun _ => [.sign "?"])) ++ rest)
      ((List.replicate n ()).map id) rest :=
    reads_bracketed (fun _ _ _ _ => reads_expect [.sign "?"]) (by simp [hn])
  simpa using h

/-- An INSERT is read from its lexemes, if it has columns. -/
theorem reads_insert {i : WrittenInsert} (htable : i.table.asName = none)
    (hcolumns : i.columns ≠ []) (hconflict : i.onConflict.IsWritable) :
    Reads insert (ofInsert i) i [] := by
  obtain ⟨⟨n, asName, schema⟩, columns, onConflict⟩ := i
  obtain rfl : asName = none := htable
  have hinput : ofInsert ⟨⟨n, none, schema⟩, columns, onConflict⟩ =
      [.word "insert"] ++ ((if decide (onConflict = .replace) then
          [.word "or", .word "replace"] else []) ++ ([.word "into"] ++
        (Lexeme.qualified schema n ++ (brackets (names columns) ++ ([.word "values"] ++
          (brackets (commas (List.replicate columns.length [.sign "?"])) ++
            (ofConflict onConflict ++ [.sign ";"]))))))) := by
    simp [ofInsert]
  rw [hinput]
  unfold insert
  refine (reads_expect _).bind ((reads_optional_if _ (by simp)).bind ((reads_expect _).bind
    ((reads_table ⟨n, none, schema⟩ (by simp [brackets])).bind ((reads_names hcolumns).bind
      ((reads_expect _).bind ((reads_places (by simpa using hcolumns)).bind
        ((reads_conflict hconflict).bind ((reads_expect [.sign ";"]).bind ?_))))))))
  rw [if_pos List.length_replicate]
  exact reads_pure _

/-! ### CREATE TABLE -/

/-- A column definition ends where no word follows. -/
theorem reads_column (c : WrittenColumn) (hrest : ∀ w, rest.head? ≠ some (.word w)) :
    Reads column (.name c.name :: .word c.type :: (ofRules c ++ rest)) c rest := by
  have hinput : ofRules c ++ rest =
      (if c.numbered then [Lexeme.word "primary", .word "key", .word "autoincrement"] else []) ++
        ((if c.notNull then [.word "not", .word "null"] else []) ++
          ((if c.unique then [.word "unique"] else []) ++ rest)) := by
    simp [ofRules]
  have hunique : ∀ w ≠ "unique",
      ((if c.unique then [Lexeme.word "unique"] else []) ++ rest).head? ≠ some (.word w) := by
    intro w hw
    cases c.unique with
    | false => exact hrest w
    | true => simpa using hw.symm
  have hnotNull : ((if c.notNull then [Lexeme.word "not", .word "null"] else []) ++
      ((if c.unique then [Lexeme.word "unique"] else []) ++ rest)).head? ≠
        some (.word "primary") := by
    cases c.notNull with
    | false => exact hunique "primary" (by decide)
    | true => simp
  have htype : Reads word (.word c.type :: (ofRules c ++ rest)) c.type (ofRules c ++ rest) := rfl
  rw [hinput] at htype ⊢
  exact (reads_name c.name).bind (htype.bind ((reads_optional_if c.numbered hnotNull).bind
    ((reads_optional_if c.notNull (hunique "not" (by decide))).bind
      ((reads_optional_if c.unique (hrest "unique")).bind (reads_pure c)))))

theorem reads_part {p : WrittenPart} (hp : p.IsWritable)
    (hrest : ∀ w, rest.head? ≠ some (.word w)) : Reads part (ofPart p ++ rest) p rest := by
  unfold part
  cases p with
  | column c =>
    exact (reads_optional_false (by simp [ofPart])).bind ((reads_optional_false
      (by simp [ofPart])).bind ((reads_column c hrest).bind (reads_pure _)))
  | primaryKey columns =>
    exact (reads_optional [.word "primary", .word "key"]).bind
      ((reads_names hp).bind (reads_pure _))
  | foreignKey column r =>
    have hinput : ofPart (.foreignKey column r) ++ rest =
        [.word "foreign", .word "key", .sign "("] ++ (.name column ::
          ([.sign ")", .word "references"] ++ (.name r.table :: ([.sign "("] ++
            (.name r.column :: ([.sign ")"] ++ rest)))))) := by
      simp [ofPart, brackets]
    rw [hinput]
    exact (reads_optional_false (by simp)).bind ((reads_optional _).bind
      ((reads_name column).bind ((reads_expect _).bind ((reads_name r.table).bind
        ((reads_expect _).bind ((reads_name r.column).bind ((reads_expect _).bind
          (reads_pure _))))))))

/-- A CREATE TABLE is read from its lexemes, if there is something to define. -/
theorem reads_createTable {w : WrittenTable} (htable : w.table.asName = none)
    (hparts : w.parts ≠ []) (hkeys : ∀ p ∈ w.parts, p.IsWritable) :
    Reads createTable (ofCreateTable w) w [] := by
  obtain ⟨⟨n, asName, schema⟩, ifNotExists, parts⟩ := w
  obtain rfl : asName = none := htable
  have hinput : ofCreateTable ⟨⟨n, none, schema⟩, ifNotExists, parts⟩ =
      [.word "create", .word "table"] ++
        ((if ifNotExists then [.word "if", .word "not", .word "exists"] else []) ++
          (Lexeme.qualified schema n ++ (brackets (commas (parts.map ofPart)) ++
            ([.sign ";"] ++ [])))) := by
    simp [ofCreateTable]
  have hthere : ∀ ls, (Lexeme.qualified schema n ++ ls).head? ≠ some (.word "if") := by
    cases schema <;> simp [Lexeme.qualified]
  have hpart : ReadsItems part ofPart id parts [.sign ")", .sign ";"] := by
    intro p hp more hmore
    refine reads_part (hkeys p hp) fun w => ?_
    rcases hmore with rfl | hmore
    · simp
    · simp [hmore]
  have hreads : Reads (bracketed part) _ (parts.map id) ([.sign ";"] ++ []) :=
    reads_bracketed hpart hparts
  rw [List.map_id] at hreads
  rw [hinput]
  exact (reads_expect _).bind ((reads_optional_if ifNotExists (hthere _)).bind
    ((reads_table ⟨n, none, schema⟩ (by simp [brackets])).bind (hreads.bind
      ((reads_expect _).bind (reads_pure _)))))

/-! ### Queries -/

variable {s : Schema}

/-- An operation is read up to where an expression closes. -/
theorem reads_operation {op : Operation} (hop : op.IsBasic s) (hrest : Written.Closes rest) :
    Reads expression (ofOperation op ++ rest) (.ofOperation op) rest := by
  refine Written.readFrom_operand 0 (Written.readsOperand_operation hop ?_ hrest.head?_ne) hrest
  simp only [List.length_append]
  omega

/-- A condition is read up to where an expression closes. -/
theorem reads_condition {c : Condition} (hc : c.IsBasic s) (hrest : Written.Closes rest) :
    Reads expression (ofCondition c ++ rest) (.ofCondition c) rest := by
  refine Written.readsWhole_condition hc ?_ hrest
  simp only [List.length_append]
  omega

/-- A field is read up to where an expression closes, unless that is at AS. -/
theorem reads_field {f : SelectField} (hop : f.op.IsBasic s) (hrest : Written.Closes rest)
    (has : rest.head? ≠ some (.word "as")) :
    Reads field (ofField f ++ rest) (WrittenQuery.fieldOf f) rest := by
  unfold field WrittenQuery.fieldOf ofField
  rw [List.append_assoc]
  cases Dialect.fieldName f with
  | none => exact (reads_operation hop hrest).bind ((reads_clause_none has).bind (reads_pure _))
  | some a =>
    have hname : Reads (clause [.word "as"] name) ([.word "as"] ++ .name a :: rest) (some a) rest :=
      (reads_name a).clause
    have hcloses : Written.Closes ([.word "as"] ++ .name a :: rest) := ⟨rfl, rfl, by simp⟩
    exact (reads_operation hop hcloses).bind (hname.bind (reads_pure _))

/-- No operation begins with a star. -/
theorem head?_ofOperation {op : Operation} (hop : op.IsBasic s) :
    (ofOperation op ++ rest).head? ≠ some (.sign "*") := by
  cases hop with
  | @column c => cases halias : c.tableAlias <;> simp [ofOperation, halias]
  | integer n => by_cases hn : n.toInt < 0 <;> simp [ofOperation, magnitude, hn]
  | string t => simp [ofOperation]
  | plus | minus | multiplies => simp [ofOperation]

theorem reads_fields {fields : List SelectField} (hops : ∀ f ∈ fields, f.op.IsBasic s) :
    Reads LexemeReader.fields (ofFields fields ++ .word "from" :: rest)
      (WrittenQuery.fieldsOf fields) (.word "from" :: rest) := by
  unfold LexemeReader.fields
  cases fields with
  | nil => exact (reads_optional [.sign "*"]).bind (reads_pure _)
  | cons f fields =>
    have hitems : ReadsItems field ofField WrittenQuery.fieldOf (f :: fields)
        (.word "from" :: rest) := by
      intro g hg more hmore
      rcases hmore with rfl | hmore
      · exact reads_field (hops g hg) ⟨rfl, rfl, by simp⟩ (by simp)
      · obtain ⟨more, rfl⟩ := List.head?_eq_some_iff.mp hmore
        exact reads_field (hops g hg) ⟨rfl, rfl, by simp⟩ (by simp)
    have hfields := reads_list hitems (List.cons_ne_nil f fields) (by simp)
    have hstar : (ofFields (f :: fields) ++ .word "from" :: rest).head? ≠ some (.sign "*") := by
      obtain ⟨more, hmore⟩ := commas_cons (ofField f) (fields.map ofField) (.word "from" :: rest)
      have hinput : ofFields (f :: fields) ++ .word "from" :: rest = ofField f ++ more := hmore
      rw [hinput, ofField, List.append_assoc]
      exact head?_ofOperation (hops f List.mem_cons_self)
    exact (reads_optional_false hstar).bind (hfields.bind (reads_pure _))

theorem reads_asName (asName : Option String) (hrest : ∀ n, rest.head? ≠ some (.name n)) :
    Reads LexemeReader.asName ((asName.map Lexeme.name).toList ++ rest) asName rest := by
  cases asName with
  | some n => rfl
  | none =>
    cases rest with
    | nil => rfl
    | cons l rest =>
      cases l with
      | name n => exact absurd rfl (hrest n)
      | _ => rfl

/-- A term of the order is read in front of anything but a point and DESC. -/
theorem reads_orderTerm (o : OrderBy) (hdesc : rest.head? ≠ some (.word "desc"))
    (hpoint : rest.head? ≠ some (.sign ".")) :
    Reads orderTerm (ofOrder o ++ rest) (WrittenQuery.orderOf o) rest := by
  have hword : ((if o.desc then [Lexeme.word "desc"] else []) ++ rest).head? ≠
      some (.sign ".") := by
    cases o.desc with
    | false => exact hpoint
    | true => simp
  unfold orderTerm ofOrder
  rw [List.append_assoc]
  exact (reads_qualified _ _ hword).bind ((reads_optional_if o.desc hdesc).bind (reads_pure _))

theorem reads_limit (limit : Option UInt64) :
    Reads (clause [.word "limit"] wholeNumber) (ofLimit limit) (limit.map UInt64.toNat) [] := by
  cases limit with
  | none => exact reads_clause_none (by simp [ofLimit])
  | some n =>
    have hnumber : Reads wholeNumber [.number true ⟨false, n.toNat, 0⟩] n.toNat [] := rfl
    exact hnumber.clause

/-- Behind the clauses of a query stands at most a limit. -/
theorem head?_ofLimit {limit : Option UInt64} {l : Lexeme} (hl : l ≠ .word "limit") :
    (ofLimit limit).head? ≠ some l := by
  cases limit <;> simp [ofLimit, hl.symm]

theorem reads_order (orders : List OrderBy) (limit : Option UInt64) :
    ∃ terms, Reads (clause [.word "order", .word "by"] (list orderTerm))
      (ofOrders orders ++ ofLimit limit) terms (ofLimit limit) ∧
        terms.getD [] = orders.map WrittenQuery.orderOf := by
  cases orders with
  | nil => exact ⟨none, reads_clause_none (head?_ofLimit (by simp)), rfl⟩
  | cons o orders =>
    have hitems : ReadsItems orderTerm ofOrder WrittenQuery.orderOf (o :: orders)
        (ofLimit limit) := by
      intro o _ more hmore
      rcases hmore with rfl | hmore
      · exact reads_orderTerm o (head?_ofLimit (by simp)) (head?_ofLimit (by simp))
      · exact reads_orderTerm o (by simp [hmore]) (by simp [hmore])
    have hterms := reads_list hitems (List.cons_ne_nil o orders) (head?_ofLimit (by simp))
    exact ⟨_, hterms.clause, rfl⟩

/-- What stands behind the condition of a query. -/
theorem closes_order (orders : List OrderBy) (limit : Option UInt64) :
    Written.Closes (ofOrders orders ++ ofLimit limit) := by
  have hlimit : Written.Closes (ofLimit limit) := by
    cases limit with
    | none => trivial
    | some n => exact ⟨rfl, rfl, by simp⟩
  cases orders with
  | nil => exact hlimit
  | cons o orders => exact ⟨rfl, rfl, by simp⟩

theorem head?_order {orders : List OrderBy} {limit : Option UInt64} {l : Lexeme}
    (horder : l ≠ .word "order") (hlimit : l ≠ .word "limit") :
    (ofOrders orders ++ ofLimit limit).head? ≠ some l := by
  cases orders with
  | nil => exact head?_ofLimit hlimit
  | cons o orders => simp [ofOrders, horder.symm]

theorem reads_filter {filter : Option Condition} (hfilter : ∀ c ∈ filter, c.IsBasic s)
    (orders : List OrderBy) (limit : Option UInt64) :
    Reads (clause [.word "where"] expression)
      (ofFilter filter ++ (ofOrders orders ++ ofLimit limit))
      (filter.map .ofCondition) (ofOrders orders ++ ofLimit limit) := by
  cases filter with
  | none => exact reads_clause_none (head?_order (by simp) (by simp))
  | some c => exact (reads_condition (hfilter c rfl) (closes_order orders limit)).clause

theorem head?_filter {filter : Option Condition} {orders : List OrderBy} {limit : Option UInt64}
    {l : Lexeme} (hwhere : l ≠ .word "where") (horder : l ≠ .word "order")
    (hlimit : l ≠ .word "limit") :
    (ofFilter filter ++ (ofOrders orders ++ ofLimit limit)).head? ≠ some l := by
  cases filter with
  | none => exact head?_order horder hlimit
  | some c => simp [ofFilter, hwhere.symm]

/-- A query on one table is read from its lexemes. -/
theorem reads_query {t : Table} {q : Select} (hq : q.IsBasic s t) :
    Reads query (ofQuery t q) (.ofStatement t q) [] := by
  have hinput : ofQuery t q = [.word "select"] ++ (ofFields q.fields ++ ([.word "from"] ++
      (Lexeme.qualified t.schema t.name ++ ((t.asName.map Lexeme.name).toList ++
        (ofFilter q.filter ++ (ofOrders q.orderBy ++ ofLimit q.limit)))))) := by
    simp [ofQuery, ofSource]
  have hpoint : ((t.asName.map Lexeme.name).toList ++ (ofFilter q.filter ++
      (ofOrders q.orderBy ++ ofLimit q.limit))).head? ≠ some (.sign ".") := by
    cases t.asName with
    | none => exact head?_filter (by simp) (by simp) (by simp)
    | some n => simp
  obtain ⟨terms, horder, hterms⟩ := reads_order q.orderBy q.limit
  rw [hinput, WrittenQuery.ofStatement, ← hterms]
  exact (reads_expect [.word "select"]).bind ((reads_fields hq.fields).bind
    ((reads_expect [.word "from"]).bind ((reads_table t hpoint).bind
      ((reads_asName t.asName fun n => head?_filter (by simp) (by simp) (by simp)).bind
        ((reads_filter hq.filter q.orderBy q.limit).bind (horder.bind
          ((reads_limit q.limit).bind (reads_pure _))))))))

/-- What a text holds, if it is read to its end. -/
theorem ofText?_eq {r : LexemeReader α} {sql : Sql} {ls : List Lexeme} {a : α}
    (hlex : Lexeme.read (Dialect.chars .sqlite sql) = some ls) (hread : Reads r ls a []) :
    r.ofText? (Dialect.text .sqlite sql) = some a := by
  rw [Reads] at hread
  simp [ofText?, Dialect.text, hlex, hread]

/-- **The text of an INSERT** with columns is read back as what it was written from. -/
theorem ofText?_insert {i : Insert} (hcolumns : i.columns ≠ []) :
    insert.ofText? (Dialect.text .sqlite (Dialect.insert .sqlite i)) = some (.ofStatement i) := by
  have hconflict : (WrittenInsert.ofStatement i).onConflict.IsWritable := by
    simp only [WrittenInsert.ofStatement, WrittenInsert.conflictOf]
    cases i.orReplace with
    | false => trivial
    | true =>
      cases i.constraints with
      | nil => trivial
      | cons c key => exact List.cons_ne_nil _ _
  have hnames : (WrittenInsert.ofStatement i).columns ≠ [] := by
    simpa [WrittenInsert.ofStatement] using hcolumns
  exact ofText?_eq (read_insert i) (reads_insert rfl hnames hconflict)

/-- **The text of a CREATE TABLE** with columns is read back as what it was written from. -/
theorem ofText?_createTable {s : CreateTable} (hcolumns : s.columns ≠ []) :
    createTable.ofText? (Dialect.text .sqlite (Dialect.createTable .sqlite s)) =
      some (.ofStatement s) := by
  have hkeys : ∀ p ∈ (WrittenTable.ofStatement s).parts, p.IsWritable := by
    intro p hp
    simp only [WrittenTable.ofStatement, WrittenTable.keyOf, List.mem_append, List.mem_map,
      List.mem_filterMap] at hp
    rcases hp with (⟨c, -, rfl⟩ | hp) | ⟨c, -, hp⟩
    · trivial
    · cases hkey : Dialect.primaryColumns .sqlite s.columns with
      | nil => simp [hkey] at hp
      | cons c key =>
        rw [hkey, List.mem_singleton] at hp
        subst hp
        exact List.cons_ne_nil _ _
    · obtain ⟨r, -, rfl⟩ := Option.map_eq_some_iff.mp hp
      trivial
  have hparts : (WrittenTable.ofStatement s).parts ≠ [] := by
    simp [WrittenTable.ofStatement, hcolumns]
  exact ofText?_eq (read_createTable s) (reads_createTable rfl hparts hkeys)

/-- **The text of a query** on one table is read back as what it was written from. -/
theorem ofText?_query {t : Table} {q : Select} (hq : q.IsBasic s t) :
    query.ofText? (Dialect.text .sqlite (Dialect.select .sqlite q)) = some (.ofStatement t q) :=
  ofText?_eq (read_query hq) (reads_query hq)

end LexemeReader

end SqlRecords.Sqlite
