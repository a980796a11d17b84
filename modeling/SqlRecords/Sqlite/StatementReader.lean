import SqlRecords.Sqlite.Store

/-!
# Reading statements

INSERT, CREATE TABLE and queries on one table are read from the lexemes of their text, clause by
clause: keywords, names, lists with commas between, and expressions. What was written is then
looked up in the tables, as the store does with the statement that the text was written from.
-/

namespace SqlRecords.Sqlite

/-! ### Readers -/

/-- Reads something from the front of some lexemes. -/
abbrev LexemeReader (α : Type) := StateT (List Lexeme) Option α

namespace LexemeReader

variable {α : Type}

/-- Reads some lexemes if they are there. -/
def optional (ls : List Lexeme) : LexemeReader Bool := fun input =>
  match ls.isPrefixOf? input with
  | some rest => some (true, rest)
  | none => some (false, input)

/-- Reads some lexemes that have to be there. -/
def expect (ls : List Lexeme) : LexemeReader Unit := fun input =>
  (ls.isPrefixOf? input).map ((), ·)

/-- Reads a clause if the lexemes that it begins with are there. -/
def clause (opening : List Lexeme) (body : LexemeReader α) : LexemeReader (Option α) := do
  if ← optional opening then return some (← body) else return none

/-- Reads a name. -/
def name : LexemeReader String
  | .name n :: rest => some (n, rest)
  | _ => none

/-- Reads a word. -/
def word : LexemeReader String
  | .word w :: rest => some (w, rest)
  | _ => none

/-- Reads a name that may stand behind another one and a point. -/
def qualified : LexemeReader (Option String × String) := do
  let n ← name
  if ← optional [.sign "."] then return (some n, ← name) else return (none, n)

/-- Reads a list of so many items at most, with commas between them. -/
def listWithin (item : LexemeReader α) : Nat → LexemeReader (List α)
  | 0 => failure
  | steps + 1 => do
    let a ← item
    if ← optional [.sign ","] then return a :: (← listWithin item steps) else return [a]

/-- Reads a list with commas between its items. Each comma takes up a lexeme. -/
def list (item : LexemeReader α) : LexemeReader (List α) := do
  listWithin item ((← get).length + 1)

/-- Reads a list in brackets. -/
def bracketed (item : LexemeReader α) : LexemeReader (List α) := do
  expect [.sign "("]
  let items ← list item
  expect [.sign ")"]
  return items

/-- Reads the table that a statement is about. -/
def table : LexemeReader Table := do
  let (schema, n) ← qualified
  return ⟨n, none, schema⟩

/-- What a text holds as a whole. -/
def ofText? (r : LexemeReader α) (sql : String) : Option α := do
  match r (← Lexeme.read sql.toList) with
  | some (a, []) => some a
  | _ => none

end LexemeReader

/-! ### INSERT -/

/-- What is written about rows that share a key with one that is there. -/
inductive WrittenConflict where
  /-- Nothing. -/
  | refuse
  /-- OR REPLACE. -/
  | replace
  /-- ON CONFLICT with the columns of a key, and the columns that are overwritten. -/
  | resolve (target columns : List String)
  deriving DecidableEq, Repr

/-- An INSERT as it is written. -/
structure WrittenInsert where
  /-- The table. -/
  table : Table
  /-- The columns that get values. -/
  columns : List String
  /-- What is done with conflicts. -/
  onConflict : WrittenConflict
  deriving DecidableEq, Repr

namespace LexemeReader

/-- Reads a column that takes its new value. -/
def overwritten : LexemeReader String := do
  let n ← name
  expect [.sign "=", .word "excluded", .sign "."]
  let new ← name
  if n = new then return n else failure

/-- Reads what is done with conflicts, if OR REPLACE has not said so. -/
def conflict (orReplace : Bool) : LexemeReader WrittenConflict := do
  if orReplace then return .replace
  else if ← optional [.word "on", .word "conflict"] then
    let target ← bracketed name
    expect [.word "do"]
    if ← optional [.word "nothing"] then return .resolve target []
    else
      expect [.word "update", .word "set"]
      return .resolve target (← list overwritten)
  else return .refuse

/-- Reads an INSERT, which has a place for each of its columns. -/
def insert : LexemeReader WrittenInsert := do
  expect [.word "insert"]
  let orReplace ← optional [.word "or", .word "replace"]
  expect [.word "into"]
  let table ← table
  let columns ← bracketed name
  expect [.word "values"]
  let places ← bracketed (expect [.sign "?"])
  let onConflict ← conflict orReplace
  expect [.sign ";"]
  if places.length = columns.length then return ⟨table, columns, onConflict⟩ else failure

end LexemeReader

namespace WrittenInsert

/-- Looks up columns by their names. -/
def lookUp (t : TableRule) (table : String) (names : List String) : Except String (List Nat) :=
  Insertion.lookUp t table (names.map Column.named)

/-- Looks an INSERT up in its table. -/
def insertion (t : TableRule) (i : WrittenInsert) : Except String Insertion := do
  let columns ← lookUp t i.table.name i.columns
  match i.onConflict with
  | .refuse => return ⟨columns, .refuse⟩
  | .replace => return ⟨columns, .replace⟩
  | .resolve target overwritten =>
    match (target.mapM t.find?).bind (Insertion.keyOf? t) with
    | none => throw Insertion.noSuchKey
    | some key =>
      match ← lookUp t i.table.name overwritten with
      | [] => return ⟨columns, .skip key⟩
      | overwritten => return ⟨columns, .overwrite key overwritten⟩

end WrittenInsert

/-! ### CREATE TABLE -/

/-- A column of a table definition as it is written. -/
structure WrittenColumn where
  /-- Its name. -/
  name : String
  /-- The name of its type. -/
  type : String
  /-- PRIMARY KEY AUTOINCREMENT stands behind it. -/
  numbered : Bool
  /-- NOT NULL stands behind it. -/
  notNull : Bool
  /-- UNIQUE stands behind it. -/
  unique : Bool
  deriving DecidableEq, Repr

/-- A part of a table definition. -/
inductive WrittenPart where
  | column (c : WrittenColumn)
  /-- PRIMARY KEY with some columns. -/
  | primaryKey (columns : List String)
  /-- FOREIGN KEY with a column and what it refers to. -/
  | foreignKey (column : String) (target : Reference)
  deriving DecidableEq, Repr

namespace WrittenPart

/-- The column that is defined, if this is what the part does. -/
def column? : WrittenPart → Option WrittenColumn
  | .column c => some c
  | _ => none

/-- The columns of the primary key, if the part is one. -/
def primaryKey? : WrittenPart → Option (List String)
  | .primaryKey columns => some columns
  | _ => none

/-- The column and what it refers to, if the part is a foreign key. -/
def foreignKey? : WrittenPart → Option (String × Reference)
  | .foreignKey c r => some (c, r)
  | _ => none

end WrittenPart

/-- A CREATE TABLE as it is written. -/
structure WrittenTable where
  /-- The table. -/
  table : Table
  /-- A table that is there already is left alone. -/
  ifNotExists : Bool
  /-- What stands between the brackets. -/
  parts : List WrittenPart
  deriving DecidableEq, Repr

namespace LexemeReader

/-- Reads the definition of a column. -/
def column : LexemeReader WrittenColumn := do
  let n ← name
  let type ← word
  let numbered ← optional [.word "primary", .word "key", .word "autoincrement"]
  let notNull ← optional [.word "not", .word "null"]
  let unique ← optional [.word "unique"]
  return ⟨n, type, numbered, notNull, unique⟩

/-- Reads a part of a table definition. -/
def part : LexemeReader WrittenPart := do
  if ← optional [.word "primary", .word "key"] then return .primaryKey (← bracketed name)
  else if ← optional [.word "foreign", .word "key", .sign "("] then
    let c ← name
    expect [.sign ")", .word "references"]
    let table ← name
    expect [.sign "("]
    let target ← name
    expect [.sign ")"]
    return .foreignKey c ⟨table, target⟩
  else return .column (← column)

/-- Reads a CREATE TABLE. -/
def createTable : LexemeReader WrittenTable := do
  expect [.word "create", .word "table"]
  let ifNotExists ← optional [.word "if", .word "not", .word "exists"]
  let table ← table
  let parts ← bracketed part
  expect [.sign ";"]
  return ⟨table, ifNotExists, parts⟩

end LexemeReader

namespace WrittenTable

/-- What a column makes of values, by the word that its type is. -/
def affinityOf (type : String) : Affinity :=
  if type = "integer" then .integer else if type = "real" then .real else .text

/-- The columns. -/
def columns (w : WrittenTable) : List WrittenColumn := w.parts.filterMap WrittenPart.column?

/-- The primary keys that stand on their own. -/
def keys (w : WrittenTable) : List (List String) := w.parts.filterMap WrittenPart.primaryKey?

/-- The foreign keys. -/
def foreignKeys (w : WrittenTable) : List (String × Reference) :=
  w.parts.filterMap WrittenPart.foreignKey?

/-- The place of a column. -/
def find? (w : WrittenTable) (name : String) : Option Nat :=
  w.columns.findIdx? fun c => sameName c.name name

/-- The places of the columns with a property. -/
def places (w : WrittenTable) (has : WrittenColumn → Bool) : List Nat :=
  (List.range w.columns.length).filter fun i => w.columns[i]?.any has

/-- The column that is the row id: one that is numbered, or that of integers which is the whole
primary key. -/
def rowId (w : WrittenTable) (keys : List (List Nat)) : Option Nat :=
  match w.places (·.numbered), keys with
  | [i], _ => some i
  | _, [[i]] => if w.columns[i]?.any fun c => affinityOf c.type = .integer then some i else none
  | _, _ => none

/-- The table that is defined. -/
def rule (w : WrittenTable) : Except String TableRule := do
  if let some n := TableRule.duplicate? [] (w.columns.map (·.name)) then
    throw ("duplicate column name: " ++ n)
  if 1 < (w.places (·.numbered)).length + w.keys.length then
    throw ("table \"" ++ w.table.name ++ "\" has more than one primary key")
  let some keys := w.keys.mapM (·.mapM w.find?) | throw unsupported
  let some foreignKeys := w.foreignKeys.mapM fun (c, r) => (w.find? c).map (ForeignKey.mk · r)
    | throw unsupported
  let rowId := w.rowId keys
  let uniques := (w.places (·.unique)).map ([·]) ++ if rowId.isSome then [] else keys
  return {
    name := w.table.name
    columns := w.columns.map fun (c : WrittenColumn) => ⟨c.name, affinityOf c.type, c.notNull⟩
    rowId
    numbered := !(w.places (·.numbered)).isEmpty
    uniques := uniques.eraseDups.reverse
    foreignKeys }

end WrittenTable

/-! ### Queries -/

/-- A field of a query as it is written. -/
structure WrittenField where
  /-- What it shows. -/
  expr : Written
  /-- The name it goes by. -/
  asName : Option String

/-- A column that rows are ordered by, as it is written. -/
structure WrittenOrder where
  /-- The column. -/
  column : ColumnName
  /-- Greatest first. -/
  desc : Bool

/-- A query on one table as it is written. -/
structure WrittenQuery where
  /-- What it shows; `none` if this is a star. -/
  fields : Option (List WrittenField)
  /-- The table. -/
  table : Table
  /-- The condition. -/
  filter : Option Written
  /-- What rows are ordered by. -/
  order : List WrittenOrder
  /-- How many rows are shown at most. -/
  limit : Option Nat

namespace LexemeReader

/-- Reads an expression. -/
def expression : LexemeReader Written := fun input =>
  Written.readFrom (3 * input.length + 3) 0 input

/-- Reads a field of a query. -/
def field : LexemeReader WrittenField := do
  let expr ← expression
  return ⟨expr, ← clause [.word "as"] name⟩

/-- Reads what a query shows. -/
def fields : LexemeReader (Option (List WrittenField)) := do
  if ← optional [.sign "*"] then return none else return some (← list field)

/-- Reads the name that a table goes by, if one stands behind it. -/
def asName : LexemeReader (Option String)
  | .name n :: rest => some (some n, rest)
  | rest => some (none, rest)

/-- Reads a column that rows are ordered by. -/
def orderTerm : LexemeReader WrittenOrder := do
  let (table, n) ← qualified
  return ⟨⟨table, n⟩, ← optional [.word "desc"]⟩

/-- Reads a whole number. -/
def wholeNumber : LexemeReader Nat
  | .number true ⟨false, n, 0⟩ :: rest => some (n, rest)
  | _ => none

/-- Reads a query on one table. -/
def query : LexemeReader WrittenQuery := do
  expect [.word "select"]
  let fields ← fields
  expect [.word "from"]
  let t ← table
  let asName ← asName
  let filter ← clause [.word "where"] expression
  let order ← clause [.word "order", .word "by"] (list orderTerm)
  let limit ← clause [.word "limit"] wholeNumber
  return ⟨fields, { t with asName }, filter, order.getD [], limit⟩

end LexemeReader

namespace WrittenQuery

/-- Looks up a term of the order, which may be the name that a column of the result goes by. -/
def sortTerm (s : Scope) (fields : List WrittenField) (o : WrittenOrder) :
    Except String SortTerm := do
  let named := fields.find? fun f =>
    o.column.table.isNone && f.asName.any (sameName o.column.name)
  let expr ←
    match named with
    | some f => f.expr.resolve s.look
    | none => s.look o.column
  return ⟨expr, o.desc⟩

/-- Looks up what a query shows. -/
def shown (s : Scope) : Option (List WrittenField) → Except String Shown
  | none => .ok .columns
  | some fields => (fields.mapM fun (f : WrittenField) => f.expr.resolve s.look).map .expressions

/-- Looks up a condition, if there is one. -/
def condition (s : Scope) : Option Written → Except String (Option (Expr Nat))
  | none => .ok none
  | some e => (e.resolve s.look).map some

/-- Looks a query up in its table. -/
def lookUp (t : TableRule) (q : WrittenQuery) : Except String Query := do
  let s := Scope.ofTable t q.table
  let shown ← shown s q.fields
  let filter ← condition s q.filter
  let order ← q.order.mapM (sortTerm s (q.fields.getD []))
  return ⟨s, shown, filter, order, q.limit⟩

end WrittenQuery

/-! ### What their texts do -/

namespace Tables

/-- Looks up the INSERT that a text is. -/
def prepareText (ts : Tables) (sql : String) : Except String (StoredTable × Insertion) :=
  match LexemeReader.insert.ofText? sql with
  | none => .error unsupported
  | some i => do
    let t ← ts.get i.table
    let insertion ← i.insertion t.rule
    ts.checkTargets t.rule t.rule.foreignKeys
    return (t, insertion)

/-- Executes the CREATE TABLE that a text is. -/
def createText (ts : Tables) (sql : String) : Except String Tables :=
  match LexemeReader.createTable.ofText? sql with
  | none => .error unsupported
  | some w => do
    let present := (ts.mentioned? w.table).isSome
    if let some schema := w.table.schema then
      unless sameName mainSchema schema do
        throw (unknownSchema schema sql ⟨w.table, [], w.ifNotExists⟩)
    if isReserved w.table.name then
      throw ("object name reserved for internal use: " ++ w.table.name)
    if present && !w.ifNotExists then throw (alreadyExists sql w.table)
    if present then return ts
    return ts ++ [⟨← w.rule, [], 0⟩]

/-- Looks up and runs the query that a text is. -/
def queryText (ts : Tables) (sql : String) : Except String Results :=
  match LexemeReader.query.ofText? sql with
  | none => .error unsupported
  | some q => do
    let t ← ts.get q.table
    return (← q.lookUp t.rule).run t.rows

end Tables

end SqlRecords.Sqlite
