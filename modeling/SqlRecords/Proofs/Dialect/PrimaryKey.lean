import Mathlib.Data.List.Infix
import SqlRecords.Field.Type
import SqlRecords.Proofs.Dialect.Grouping
import SqlRecords.Proofs.Dialect.Renaming
import SqlRecords.Proofs.Text.Numerals
import SqlRecords.Record.Schema

/-!
# The primary keys that a table is declared with

A reader who knows the quotes of a dialect finds the definitions of a CREATE TABLE between the
commas that stand in its brackets, and a primary key in each definition that says so outside of
quotes: it is made of the names in that definition. The key may be that of a column, or a clause
for the whole table.

SQLite numbers a column only if the column itself says that it is the primary key. The clause
leaves such a column out, but still names the other columns of the key. A table with both kinds of
columns is declared with two keys, which SQLite refuses. In every other case there is one key, and
it is the right one.

## What is proved

* `Glyph.filterMap_items_commas`: definitions with commas between them are found one by one.
* `Dialect.declaredKeys_createTable`: the keys that a CREATE TABLE declares, in every dialect.
* **`Dialect.declaredKeys_eq_iff`**: when there is one key, of all columns that should be in it.
-/

namespace SqlRecords

/-! ### The keys that a reader sees -/

namespace Glyph

/-- The depth of brackets behind a glyph that is read at some depth, unless it ends an item of a
list. -/
def itemDepth (depth : Nat) : Glyph → Option Nat
  | .plain '(' => some (depth + 1)
  | .plain ')' => if depth = 0 then none else some (depth - 1)
  | .plain ',' => if depth = 0 then none else some depth
  | _ => some depth

/-- The items of a list, which ends with a bracket that was not begun in it. -/
def items (depth : Nat) : List Glyph → List (List Glyph)
  | [] => [[]]
  | g :: rest =>
    match g.itemDepth depth with
    | some behind => (items behind rest).modifyHead (g :: ·)
    | none => if g = .plain ',' then [] :: items 0 rest else [[]]

/-- The words that make a key. -/
def keyWords : List Glyph := "PRIMARY KEY".toList.map .plain

/-- The name that a glyph stands for. -/
def name? (quote : Char) : Glyph → Option String
  | .quoted q content => if q = quote then some content else none
  | .plain _ => none

@[simp] theorem name?_plain (quote c : Char) : name? quote (.plain c) = none := rfl

/-- The key that a definition declares: the names in it, if it has the words that make a key. -/
def key? (quote : Char) (item : List Glyph) : Option (List String) :=
  if keyWords <:+: item then some (item.filterMap (name? quote)) else none

/-- The keys that some definitions in brackets declare. -/
def declaredKeys (quote : Char) (gs : List Glyph) : List (List String) :=
  (items 0 (gs.dropWhile (· != .plain '(')).tail).filterMap (key? quote)

end Glyph

/-- The primary keys that a reader sees declared in a text, unless it ends inside quotes. -/
def Dialect.declaredKeys (d : Dialect) (text : String) : Option (List (List String)) :=
  (d.scan text).map (Glyph.declaredKeys d.identifierQuote)

/-! ### Items -/

namespace Glyph

variable {d : Dialect} {quote : Char} {a b : Nat} {gs rest : List Glyph}

/-- Glyphs that end no item are read as a part of one. -/
theorem items_append (h : gs.foldlM itemDepth a = some b) :
    items a (gs ++ rest) = (items b rest).modifyHead (gs ++ ·) := by
  induction gs generalizing a with
  | nil =>
    cases h
    cases hrest : items b rest <;> simp [hrest]
  | cons g gs ih =>
    obtain ⟨c, hc, hgs⟩ := Option.bind_eq_some_iff.mp (List.foldlM_cons.symm.trans h)
    simp only [List.cons_append, items, hc, ih hgs]
    cases items b rest <;> rfl

/-- A blank in front of a definition says nothing. -/
theorem key?_blank (item : List Glyph) : key? quote (.plain ' ' :: item) = key? quote item := by
  have hwords : keyWords <:+: .plain ' ' :: item ↔ keyWords <:+: item := by
    rw [List.infix_cons_iff, or_iff_right]
    intro h
    cases (List.cons_prefix_cons.mp h).1
  simp only [key?, hwords, List.filterMap_cons, name?]

theorem filterMap_key?_blank (definitions : List (List Glyph)) :
    (definitions.modifyHead (.plain ' ' :: ·)).filterMap (key? quote) =
      definitions.filterMap (key? quote) := by
  cases definitions with
  | nil => rfl
  | cons item rest => simp only [List.modifyHead_cons, List.filterMap_cons, key?_blank]

/-- **Definitions with commas between them are found one by one**, and their keys with them. -/
theorem filterMap_items_commas : ∀ {pieces : List Sql},
    (∀ p ∈ pieces, (d.glyphs p).foldlM itemDepth 0 = some 0) →
      (items 0 (d.glyphs (Sql.commas pieces) ++ .plain ')' :: rest)).filterMap (key? quote) =
        pieces.filterMap fun p => key? quote (d.glyphs p)
  | [], _ => rfl
  | [p], h => by
    rw [show Sql.commas [p] = p from rfl, items_append (h p List.mem_cons_self)]
    have hend : items 0 (.plain ')' :: rest) = [[]] := rfl
    rw [hend, List.modifyHead_cons, List.append_nil, List.filterMap_cons, List.filterMap_cons]
    rfl
  | p :: q :: pieces, h => by
    have ih := filterMap_items_commas fun r hr => h r (List.mem_cons_of_mem p hr)
    have hsplit : d.glyphs (Sql.commas (p :: q :: pieces)) = d.glyphs p ++
        .plain ',' :: .plain ' ' :: d.glyphs (Sql.commas (q :: pieces)) := by
      simp [Sql.commas, Sql.separated, Token.glyphs, Token.chars]
    rw [hsplit, List.append_assoc, items_append (h p List.mem_cons_self)]
    have hcomma : items 0 (.plain ',' :: .plain ' ' ::
        (d.glyphs (Sql.commas (q :: pieces)) ++ .plain ')' :: rest)) =
        [] :: (items 0 (d.glyphs (Sql.commas (q :: pieces)) ++ .plain ')' :: rest)).modifyHead
          (.plain ' ' :: ·) := rfl
    rw [List.cons_append, List.cons_append, hcomma, List.modifyHead_cons, List.append_nil,
      List.filterMap_cons, filterMap_key?_blank, ih]
    rfl

/-- A definition without one of the letters declares no key. -/
theorem key?_eq_none {item : List Glyph} (c : Char) (hc : .plain c ∈ keyWords)
    (h : .plain c ∉ item) : key? quote item = none :=
  if_neg fun hwords => h (hwords.subset hc)

end Glyph

/-! ### Pieces -/

namespace Sql

variable {d : Dialect} {a b c : Nat} {p q : Sql} {v w : String}

/-- A piece of SQL leads from one depth of brackets to another, without ending an item. -/
abbrev Goes (d : Dialect) (a : Nat) (p : Sql) (b : Nat) : Prop := Runs Glyph.itemDepth d a p b

theorem goes_name (n : String) : Goes d a [.name n] a := rfl

theorem goes_word_append (hv : Goes d a [.word v] b) (hw : Goes d b [.word w] c) :
    Goes d a [.word (v ++ w)] c := by
  have happend : d.glyphs [.word (v ++ w)] = d.glyphs ([.word v] ++ [.word w]) := by
    simp [Token.glyphs, Token.chars]
  rw [Goes, Runs, happend]
  exact hv.append hw

/-- Digits end no item. -/
theorem goes_toString (n : Nat) : Goes d a [.word (toString n)] a := by
  have hword : d.glyphs [.word (toString n)] = (toString n).toList.map .plain := by
    simp [Token.glyphs, Token.chars]
  rw [Goes, Runs, hword]
  refine foldlM_plain fun c hc => ?_
  have hdigit := Text.isDigit_of_mem_toString hc
  unfold Glyph.itemDepth
  split
  · next hx => cases hx; cases hdigit
  · next hx => cases hx; cases hdigit
  · next hx => cases hx; cases hdigit
  · rfl

/-- The names in a piece of SQL. -/
def names (d : Dialect) (p : Sql) : List String :=
  (d.glyphs p).filterMap (Glyph.name? d.identifierQuote)

theorem names_append (p q : Sql) : names d (p ++ q) = names d p ++ names d q := by
  simp [names]

@[simp] theorem names_name (n : String) (p : Sql) : names d (.name n :: p) = n :: names d p := by
  simp [names, Token.glyphs, Glyph.name?]

@[simp] theorem names_word (w : String) (p : Sql) : names d (.word w :: p) = names d p := by
  simp [names, Token.glyphs, Token.chars]

@[simp] theorem names_nil : names d [] = [] := rfl

theorem names_columnNames : ∀ columns : List Column,
    names d (Dialect.columnNames columns) = columns.map (·.name)
  | [] => rfl
  | [c] => by simp [Dialect.columnNames, commas, separated]
  | c :: e :: rest => by
    have ih := names_columnNames (e :: rest)
    simp only [Dialect.columnNames, commas, List.map_cons, separated, names_append, names_name,
      names_nil, names_word] at ih ⊢
    rw [ih]
    rfl

end Sql

namespace Dialect

open Sql

variable (d : Dialect)

/-! ### Definitions -/

theorem goes_typeName (kind : Kind) : Goes d 0 [.word (d.typeName kind)] 0 := by
  have hlength (n : Nat) : Goes d 0 [.word ("VARCHAR(" ++ toString n ++ ")")] 0 :=
    goes_word_append (goes_word_append (b := 1) (by rfl) (goes_toString n)) (by rfl)
  cases d with
  | sqlite =>
    cases kind with
    | varchar n => exact (show Goes .sqlite 0 [.word "TEXT"] 0 by rfl)
    | _ => rfl
  | _ =>
    cases kind with
    | varchar n => exact hlength _
    | _ => rfl

theorem goes_columnDefinition (c : Column) : Goes d 0 (d.columnDefinition c) 0 := by
  have hwords (p : Properties) : Goes d 0 [.word (d.propertyWords p)] 0 := by
    unfold propertyWords
    split
    · cases d <;> rfl
    · split <;> split <;> rfl
  exact (goes_name _).append (.word (by rfl) (.word (goes_typeName d _) (hwords _)))

/-- No kind has a name with this letter of the words that make a key. -/
theorem letter_notMem_typeName (kind : Kind) : 'K' ∉ (d.typeName kind).toList := by
  have hlength (n : Nat) : 'K' ∉ ("VARCHAR(" ++ toString n ++ ")").toList := by
    intro h
    simp only [String.toList_append, List.mem_append] at h
    rcases h with (h | h) | h
    · exact absurd h (by decide)
    · cases Text.isDigit_of_mem_toString h
    · exact absurd h (by decide)
  cases d with
  | sqlite =>
    cases kind with
    | varchar n => exact (show 'K' ∉ "TEXT".toList by decide)
    | _ => decide
  | _ =>
    cases kind with
    | varchar n => exact hlength _
    | _ => decide

/-- The definition of a column makes a key if SQLite numbers it, and in no other case. -/
theorem key?_columnDefinition (c : Column) :
    Glyph.key? d.identifierQuote (d.glyphs (d.columnDefinition c)) =
      if d = .sqlite ∧ c.type.properties.autoIncrement = true then some [c.name] else none := by
  split
  · next h =>
    obtain ⟨rfl, hauto⟩ := h
    have hwords : sqlite.columnDefinition c = [.name c.name, .word " ",
        .word (sqlite.typeName c.type.kind), .word " PRIMARY KEY AUTOINCREMENT"] := by
      simp only [columnDefinition, propertyWords, hauto, if_true, autoIncrementWords]
    have hkey : Glyph.keyWords <:+: sqlite.glyphs (sqlite.columnDefinition c) := by
      have hsplit : sqlite.glyphs (sqlite.columnDefinition c) =
          sqlite.glyphs [.name c.name, .word " ", .word (sqlite.typeName c.type.kind), .word " "] ++
            Glyph.keyWords ++ sqlite.glyphs [.word " AUTOINCREMENT"] := by
        have hend : (Token.word " PRIMARY KEY AUTOINCREMENT").glyphs .sqlite =
            (Token.word " ").glyphs .sqlite ++ Glyph.keyWords ++
              (Token.word " AUTOINCREMENT").glyphs .sqlite := by decide
        simp only [hwords, glyphs_cons, glyphs_nil, hend, List.append_nil, List.append_assoc]
      exact ⟨_, _, hsplit.symm⟩
    have hnames : names .sqlite (sqlite.columnDefinition c) = [c.name] := by
      rw [hwords]
      simp only [names_name, names_word, names_nil]
    rw [Glyph.key?, if_pos hkey, ← hnames, names]
  · next h =>
    have hproperties : 'K' ∉ (d.propertyWords c.type.properties).toList := by
      unfold propertyWords
      split
      · next hauto =>
        cases d with
        | sqlite => exact absurd ⟨rfl, hauto⟩ h
        | _ => decide
      · split <;> split <;> decide
    refine Glyph.key?_eq_none 'K' (by decide) ?_
    have htype := letter_notMem_typeName d c.type.kind
    simp [columnDefinition, Token.glyphs, Token.chars, htype, hproperties]

/-- The clause for the whole table makes a key of the columns that it names. -/
theorem key?_clause (columns : List Column) :
    Glyph.key? d.identifierQuote (d.glyphs (between "PRIMARY KEY (" (columnNames columns) ")")) =
      some (columns.map (·.name)) := by
  have hkey : Glyph.keyWords <:+:
      d.glyphs (between "PRIMARY KEY (" (columnNames columns) ")") :=
    ⟨[], _, rfl⟩
  have hnames : names d (between "PRIMARY KEY (" (columnNames columns) ")") =
      columns.map (·.name) := by
    rw [between, List.cons_append, names_word, names_append, names_columnNames, names_word,
      names_nil, List.append_nil]
  rw [Glyph.key?, if_pos hkey, ← hnames, names]

theorem key?_foreignKeyClause {c : Column} {p : Sql} (h : foreignKeyClause c = some p) :
    Glyph.key? d.identifierQuote (d.glyphs p) = none := by
  obtain ⟨r, -, rfl⟩ := Option.map_eq_some_iff.mp h
  refine Glyph.key?_eq_none 'P' (by decide) ?_
  simp [Token.glyphs, Token.chars]

theorem goes_clause (columns : List Column) :
    Goes d 0 (between "PRIMARY KEY (" (columnNames columns) ")") 0 := by
  have hcolumns : Goes d 1 (columnNames columns) 1 :=
    runs_separated (by rfl) (List.forall_mem_map.mpr fun c _ => goes_name c.name)
  exact (Runs.word (b := 1) (by rfl) hcolumns).append (by rfl)

/-- No definition of a table ends before its comma. -/
theorem goes_definitions (columns : List Column) : ∀ p ∈ columns.map d.columnDefinition ++
    d.primaryKeyClause columns ++ columns.filterMap foreignKeyClause, Goes d 0 p 0 := by
  intro p hp
  simp only [List.mem_append, List.mem_map, List.mem_filterMap] at hp
  rcases hp with (⟨c, -, rfl⟩ | hp) | ⟨c, -, hc⟩
  · exact goes_columnDefinition d c
  · unfold primaryKeyClause at hp
    split at hp
    · cases hp
    · obtain rfl := List.mem_singleton.mp hp
      exact goes_clause d _
  · obtain ⟨r, -, rfl⟩ := Option.map_eq_some_iff.mp hc
    rfl

/-! ### CREATE TABLE -/

/-- The keys that the definitions of columns make, each of one column. -/
def inlineKeys (columns : List Column) : List (List String) :=
  columns.filterMap fun c =>
    if d = .sqlite ∧ c.type.properties.autoIncrement = true then some [c.name] else none

/-- The key that the clause for the whole table makes, if there is one. -/
def clauseKeys (columns : List Column) : List (List String) :=
  if d.primaryColumns columns = [] then [] else [(d.primaryColumns columns).map (·.name)]

theorem filterMap_key?_columns (columns : List Column) :
    (columns.map d.columnDefinition).filterMap
      (fun p => Glyph.key? d.identifierQuote (d.glyphs p)) = d.inlineKeys columns := by
  rw [List.filterMap_map]
  exact congrArg (fun f => columns.filterMap f) (funext fun c => key?_columnDefinition d c)

theorem filterMap_key?_clause (columns : List Column) :
    (d.primaryKeyClause columns).filterMap
      (fun p => Glyph.key? d.identifierQuote (d.glyphs p)) = d.clauseKeys columns := by
  unfold primaryKeyClause clauseKeys
  split
  · next hnone => rw [if_pos hnone, List.filterMap_nil]
  · next hsome =>
    rw [if_neg hsome, List.filterMap_cons, key?_clause]
    rfl

theorem filterMap_key?_references (columns : List Column) :
    (columns.filterMap foreignKeyClause).filterMap
      (fun p => Glyph.key? d.identifierQuote (d.glyphs p)) = [] := by
  refine List.filterMap_eq_nil_iff.mpr fun p hp => ?_
  obtain ⟨c, -, hc⟩ := List.mem_filterMap.mp hp
  exact key?_foreignKeyClause d hc

/-- What a CREATE TABLE begins with, up to the bracket of its definitions. -/
def createHeader (s : CreateTable) : Sql :=
  .word "CREATE TABLE " :: optionalWord s.ifNotExists "IF NOT EXISTS " ++ tableName s.table ++
    [.word " "]

theorem bracket_notMem_createHeader (s : CreateTable) :
    .plain '(' ∉ d.glyphs (createHeader s) := by
  unfold createHeader optionalWord tableName
  split <;> split <;> simp [Token.glyphs, Token.chars]

theorem glyphs_createTable (s : CreateTable) : d.glyphs (d.createTable s) =
    d.glyphs (createHeader s) ++
      .plain '(' :: (d.glyphs (d.tableDefinition s.columns) ++ .plain ')' :: [.plain ';']) := by
  simp [createTable, createHeader, between, Token.glyphs, Token.chars]

/-- **The keys that a CREATE TABLE declares**: first those in the definitions of its columns, then
that of the clause for the whole table. -/
theorem declaredKeys_createTable (s : CreateTable) :
    d.declaredKeys (d.compile (.createTable s)) =
      some (d.inlineKeys s.columns ++ d.clauseKeys s.columns) := by
  have hheader : ∀ g ∈ d.glyphs (createHeader s), (g != .plain '(') = true := fun g hg =>
    bne_iff_ne.mpr fun h => bracket_notMem_createHeader d s (h ▸ hg)
  have hdefinitions : ((d.glyphs (d.createTable s)).dropWhile (· != .plain '(')).tail =
      d.glyphs (d.tableDefinition s.columns) ++ .plain ')' :: [.plain ';'] := by
    rw [glyphs_createTable, List.dropWhile_append_of_pos hheader]
    rfl
  rw [declaredKeys, scan_compile, Option.map_some, Glyph.declaredKeys, statement, hdefinitions,
    tableDefinition, Glyph.filterMap_items_commas (goes_definitions d s.columns),
    List.filterMap_append, List.filterMap_append, filterMap_key?_columns, filterMap_key?_clause,
    filterMap_key?_references, List.append_nil]

/-! ### One key -/

variable {columns : List Column}

/-- The columns that should make the primary key. -/
def keyColumns (columns : List Column) : List Column := columns.filter (·.type.properties.primary)

/-- The columns that the database numbers. -/
def numberedColumns (columns : List Column) : List Column :=
  columns.filter (·.type.properties.autoIncrement)

/-- MySQL and PostgreSQL make one key of all columns. -/
theorem declaredKeys_of_ne_sqlite (hd : d ≠ .sqlite) (hkey : keyColumns columns ≠ []) :
    d.inlineKeys columns ++ d.clauseKeys columns = [(keyColumns columns).map (·.name)] := by
  have hcolumns : d.primaryColumns columns = keyColumns columns := by
    cases d with
    | sqlite => exact absurd rfl hd
    | _ => rfl
  have hinline : d.inlineKeys columns = [] :=
    List.filterMap_eq_nil_iff.mpr fun c _ => if_neg fun h => hd h.1
  rw [hinline, clauseKeys, hcolumns, if_neg hkey, List.nil_append]

/-- SQLite makes a key of every column that it numbers, -/
theorem inlineKeys_sqlite (columns : List Column) :
    inlineKeys .sqlite columns = (numberedColumns columns).map fun c => [c.name] := by
  induction columns with
  | nil => rfl
  | cons c rest ih =>
    rw [inlineKeys, List.filterMap_cons, numberedColumns, List.filter_cons]
    cases hauto : c.type.properties.autoIncrement with
    | false | true => simpa [inlineKeys, numberedColumns] using ih

/-- one key if it numbers a column and there is no other one, -/
theorem declaredKeys_of_numbered (hone : (numberedColumns columns).length ≤ 1)
    (hkey : keyColumns columns ≠ [])
    (hsame : ∀ c ∈ columns, c.type.properties.primary = c.type.properties.autoIncrement) :
    inlineKeys .sqlite columns ++ clauseKeys .sqlite columns =
      [(keyColumns columns).map (·.name)] := by
  have hcolumns : keyColumns columns = numberedColumns columns :=
    List.filter_congr fun c hc => by rw [hsame c hc]
  have hclause : primaryColumns .sqlite columns = [] :=
    List.filter_eq_nil_iff.mpr fun c hc => by simp [hsame c hc]
  rw [hcolumns] at hkey ⊢
  obtain ⟨c, hc⟩ := List.length_eq_one_iff.mp
    (Nat.le_antisymm hone (List.length_pos_iff.mpr hkey))
  rw [inlineKeys_sqlite, clauseKeys, hclause, if_pos rfl, hc]
  rfl

/-- one key if it numbers no column, -/
theorem declaredKeys_of_not_numbered (hnone : numberedColumns columns = [])
    (hkey : keyColumns columns ≠ []) :
    inlineKeys .sqlite columns ++ clauseKeys .sqlite columns =
      [(keyColumns columns).map (·.name)] := by
  have hcolumns : primaryColumns .sqlite columns = keyColumns columns :=
    List.filter_congr fun c hc => by
      have hauto := List.filter_eq_nil_iff.mp hnone c hc
      simp [hauto]
  rw [inlineKeys_sqlite, hnone, clauseKeys, hcolumns, if_neg hkey, List.map_nil, List.nil_append]

/-- and more than one if there are columns of both kinds. -/
theorem declaredKeys_of_both (hnumbered : numberedColumns columns ≠ [])
    (hother : primaryColumns .sqlite columns ≠ []) :
    1 < (inlineKeys .sqlite columns ++ clauseKeys .sqlite columns).length := by
  have hpos := List.length_pos_iff.mpr hnumbered
  rw [inlineKeys_sqlite, clauseKeys, if_neg hother]
  simp
  omega

/-- **One key, the right one.** A table with a primary key, of whose columns the database numbers
one at most, is declared with exactly one primary key, which is made of exactly the columns that
should be in it, in order, unless SQLite numbers one column of a key that has others. -/
theorem declaredKeys_eq_iff (s : CreateTable)
    (hkey : ∃ c ∈ s.columns, c.type.properties.primary = true)
    (hnumbered : ∀ c ∈ s.columns, c.type.properties.autoIncrement = true →
      c.type.properties.primary = true)
    (hone : (numberedColumns s.columns).length ≤ 1) :
    d.declaredKeys (d.compile (.createTable s)) = some [(keyColumns s.columns).map (·.name)] ↔
      ¬(d = .sqlite ∧ (∃ c ∈ s.columns, c.type.properties.autoIncrement = true) ∧
        ∃ c ∈ s.columns, c.type.properties.primary = true ∧
          c.type.properties.autoIncrement = false) := by
  obtain ⟨e, he, hprimary⟩ := hkey
  have hkey : keyColumns s.columns ≠ [] :=
    List.ne_nil_of_mem (List.mem_filter.mpr ⟨he, hprimary⟩)
  rw [declaredKeys_createTable, Option.some.injEq]
  by_cases hd : d = .sqlite
  case neg => exact iff_of_true (declaredKeys_of_ne_sqlite d hd hkey) fun h => hd h.1
  subst hd
  by_cases hnone : numberedColumns s.columns = []
  · have hplain := List.filter_eq_nil_iff.mp hnone
    exact iff_of_true (declaredKeys_of_not_numbered hnone hkey)
      fun ⟨_, ⟨c, hc, hauto⟩, _⟩ => hplain c hc hauto
  by_cases hother : ∃ c ∈ s.columns, c.type.properties.primary = true ∧
      c.type.properties.autoIncrement = false
  · obtain ⟨c, hc⟩ := List.exists_mem_of_ne_nil _ hnone
    obtain ⟨f, hf, hfkey⟩ := hother
    have hclause : primaryColumns .sqlite s.columns ≠ [] :=
      List.ne_nil_of_mem (List.mem_filter.mpr ⟨hf, by simp [hfkey]⟩)
    have hmore := declaredKeys_of_both hnone hclause
    refine iff_of_false (fun h => ?_) fun h => h ⟨rfl, ⟨c, List.mem_filter.mp hc⟩, f, hf, hfkey⟩
    rw [h] at hmore
    exact absurd hmore (Nat.lt_irrefl 1)
  · refine iff_of_true (declaredKeys_of_numbered hone hkey fun c hc => ?_) fun h => hother h.2.2
    cases hauto : c.type.properties.autoIncrement with
    | true => exact hnumbered c hc hauto
    | false => exact Bool.eq_false_iff.mpr fun h => hother ⟨c, hc, h, hauto⟩

/-- Tickets that are numbered, with a shop that is part of their key. -/
def tickets : Schema := ⟨"tickets", [
  ⟨"id", _, FieldType.field (.numbered (.int .int64))⟩,
  ⟨"shop", _, FieldType.field (.primaryKey .text)⟩,
  ⟨"price", _, FieldType.field (.int .int32)⟩]⟩

/-- PostgreSQL makes one key of the number and the shop of a ticket. -/
theorem declaredKeys_eq_iff_tickets :
    let s := tickets.createTable false
    (∃ c ∈ s.columns, c.type.properties.primary = true) ∧
      (∀ c ∈ s.columns, c.type.properties.autoIncrement = true →
        c.type.properties.primary = true) ∧
      (numberedColumns s.columns).length ≤ 1 ∧
      (Dialect.postgres.declaredKeys (Dialect.postgres.compile (.createTable s)) =
          some [(keyColumns s.columns).map (·.name)] ↔
        ¬(Dialect.postgres = .sqlite ∧
          (∃ c ∈ s.columns, c.type.properties.autoIncrement = true) ∧
            ∃ c ∈ s.columns, c.type.properties.primary = true ∧
              c.type.properties.autoIncrement = false)) ∧
      (keyColumns s.columns).map (·.name) = ["id", "shop"] := by
  intro s
  have hkey : ∃ c ∈ s.columns, c.type.properties.primary = true := by decide
  have hnumbered : ∀ c ∈ s.columns, c.type.properties.autoIncrement = true →
      c.type.properties.primary = true := by decide
  have hone : (numberedColumns s.columns).length ≤ 1 := by decide
  exact ⟨hkey, hnumbered, hone, declaredKeys_eq_iff .postgres s hkey hnumbered hone, by decide⟩

/-- SQLite is given two keys for a ticket, neither of which is the right one. -/
theorem declaredKeys_tickets_sqlite :
    let s := tickets.createTable false
    (∃ c ∈ s.columns, c.type.properties.primary = true) ∧
      (∀ c ∈ s.columns, c.type.properties.autoIncrement = true →
        c.type.properties.primary = true) ∧
      (numberedColumns s.columns).length ≤ 1 ∧
      (keyColumns s.columns).map (·.name) = ["id", "shop"] ∧
      Dialect.sqlite.compile (.createTable s) =
        "CREATE TABLE \"tickets\" (\"id\" INTEGER PRIMARY KEY AUTOINCREMENT, " ++
          "\"shop\" TEXT NOT NULL, \"price\" INTEGER NOT NULL, PRIMARY KEY (\"shop\"));" ∧
      Dialect.sqlite.declaredKeys (Dialect.sqlite.compile (.createTable s)) =
        some [["id"], ["shop"]] := by
  intro s
  have hkeys : inlineKeys .sqlite s.columns ++ clauseKeys .sqlite s.columns =
      [["id"], ["shop"]] := by decide
  refine ⟨by decide, by decide, by decide, by decide, by decide +kernel, ?_⟩
  rw [declaredKeys_createTable, hkeys]

end Dialect

end SqlRecords
