import SqlRecords.Dialect.Statement
import SqlRecords.Sqlite.Stored

/-!
# Tables of a database

A table has columns with rules of their own, keys no two rows may share, and ties to
other tables. Every row has a row id, a column of integers where the table has one
for it, and the rows are kept in the order of their ids.
-/

namespace SqlRecords.Sqlite

/-- Names are the same up to the case of ASCII letters. -/
def sameName (a b : String) : Bool := a.map Char.toLower == b.map Char.toLower

/-! ### Definitions -/

/-- A column of a table. -/
structure ColumnRule where
  /-- Its name. -/
  name : String
  /-- What it makes of the values it is given. -/
  affinity : Affinity
  /-- It has no NULL. -/
  notNull : Bool
  deriving DecidableEq, Repr, Inhabited

/-- A column whose values have to be there in another table. -/
structure ForeignKey where
  /-- The place of the column. -/
  column : Nat
  /-- Where its values have to be. -/
  target : Reference
  deriving DecidableEq, Repr

/-- What a table is like, whatever its rows. -/
structure TableRule where
  /-- Its name. -/
  name : String
  /-- Its columns. -/
  columns : List ColumnRule
  /-- The column that is the row id. -/
  rowId : Option Nat
  /-- An id that was given once is never given again. -/
  numbered : Bool
  /-- The columns that no two rows share all values of, in the order they are checked. -/
  uniques : List (List Nat)
  /-- Ties to other tables. -/
  foreignKeys : List ForeignKey
  deriving DecidableEq, Repr

namespace TableRule

/-- The place of a column. -/
def find? (t : TableRule) (name : String) : Option Nat :=
  t.columns.findIdx? fun c => sameName c.name name

/-- The affinity of a column. -/
def affinity (t : TableRule) (i : Nat) : Affinity := (t.columns[i]?.map (·.affinity)).getD .none

/-- A column with its table, as errors show it. -/
def shown (t : TableRule) (i : Nat) : String :=
  t.name ++ "." ++ (t.columns[i]?.map (·.name)).getD ""

/-- A table of columns without types and rules. -/
def untyped (name : String) (columns : List String) : TableRule :=
  { name
    columns := columns.map fun c => ⟨c, .none, false⟩
    rowId := none
    numbered := false
    uniques := []
    foreignKeys := [] }

/-- What a column makes of values, by the name of its type. -/
def affinityOf (kind : Kind) : Affinity :=
  let type := Dialect.typeName .sqlite kind
  if type == "INTEGER" then .integer else if type == "REAL" then .real else .text

/-- The name of the first column that has the name of an earlier one. -/
def duplicate? : List String → List String → Option String
  | _, [] => none
  | seen, n :: rest => if seen.any (sameName n) then some n else duplicate? (n :: seen) rest

/-- The places of the columns with a property. -/
def places (columns : List Column) (has : Column → Bool) : List Nat :=
  (List.range columns.length).filter fun i => columns[i]?.any has

/-- The table a statement defines. A single primary key column of integers is the row id; other keys
are checked the last one first. -/
def ofStatement (s : CreateTable) : Except String TableRule :=
  let numbered := places s.columns (·.type.properties.autoIncrement)
  let key := places s.columns fun c =>
    c.type.properties.primary && !c.type.properties.autoIncrement
  let isInteger (i : Nat) : Bool := s.columns[i]?.any fun c => affinityOf c.type.kind == .integer
  let rowId :=
    match numbered, key with
    | [i], _ => some i
    | _, [i] => if isInteger i then some i else none
    | _, _ => none
  let unique := places s.columns fun c =>
    c.type.properties.unique && !c.type.properties.autoIncrement
  let keys := unique.map ([·]) ++ if key.isEmpty || rowId.isSome then [] else [key]
  match duplicate? [] (s.columns.map (·.name)) with
  | some n => .error ("duplicate column name: " ++ n)
  | none =>
    if 1 < numbered.length + min 1 key.length then
      .error ("table \"" ++ s.table.name ++ "\" has more than one primary key")
    else
      .ok {
        name := s.table.name
        columns := s.columns.map fun c =>
          ⟨c.name, affinityOf c.type.kind,
            !c.type.properties.nullable && !c.type.properties.autoIncrement⟩
        rowId
        numbered := !numbered.isEmpty
        uniques := keys.eraseDups.reverse
        foreignKeys := (List.range s.columns.length).filterMap fun i =>
          (s.columns[i]?.bind (·.type.properties.foreignKey)).map (⟨i, ·⟩) }

end TableRule

/-! ### Rows -/

/-- A row of a table. -/
structure StoredRow where
  /-- Its row id. -/
  id : Int
  /-- The values of its columns. -/
  values : List Stored
  deriving DecidableEq, Repr

/-- The value of a column. -/
def StoredRow.value (r : StoredRow) (i : Nat) : Stored := (r.values[i]?).getD .null

/-- A table with its rows. -/
structure StoredTable where
  /-- What it is like. -/
  rule : TableRule
  /-- Its rows, by their ids. -/
  rows : List StoredRow
  /-- The greatest id it ever gave. -/
  lastId : Int
  deriving DecidableEq, Repr

namespace StoredTable

/-- The least and the greatest row id are those of 64 bits. -/
def maxId : Int := Int64.maxValue.toInt

/-- The id of the next row: one more than the greatest, and than any given before if ids are never
given again. -/
def nextId (t : StoredTable) : Except String Int :=
  let next :=
    match t.rows.getLast? with
    | some r => r.id + 1
    | none => 1
  let next := if t.rule.numbered then max next (t.lastId + 1) else next
  if maxId < next then .error "database or disk is full" else .ok next

/-- Puts a row in its place. -/
def place (row : StoredRow) : List StoredRow → List StoredRow
  | [] => [row]
  | r :: rest => if row.id < r.id then row :: r :: rest else r :: place row rest

/-- Adds a row. -/
def add (t : StoredTable) (row : StoredRow) : StoredTable :=
  { t with rows := place row t.rows, lastId := max t.lastId row.id }

/-- Takes a row away. -/
def remove (t : StoredTable) (id : Int) : StoredTable :=
  { t with rows := t.rows.filter (·.id != id) }

/-- Puts a row in place of another one. -/
def replace (t : StoredTable) (id : Int) (row : StoredRow) : StoredTable :=
  { t with rows := place row (t.remove id).rows }

/-- A table of columns without types, with rows whose values are stored as they are. -/
def untyped (name : String) (columns : List String) (rows : List (List Stored)) : StoredTable :=
  { rule := .untyped name columns
    rows := rows.zipIdx.map fun (values, i) => ⟨i + 1, values⟩
    lastId := rows.length }

/-! ### Keys -/

/-- What no two rows of a table share. -/
inductive Key where
  /-- The row id. -/
  | rowId
  /-- The values of some columns, unless one of them is NULL. -/
  | columns (is : List Nat)
  deriving DecidableEq, Repr

/-- The keys of a table, in the order they are checked. -/
def keys (t : StoredTable) : List Key := .rowId :: t.rule.uniques.map .columns

/-- Two rows share a key. -/
def Key.shared : Key → StoredRow → StoredRow → Bool
  | .rowId, a, b => a.id == b.id
  | .columns is, a, b =>
    is.all fun i => !(a.value i).isNull && (a.value i).same (b.value i)

/-- The row of the table that shares a key with a row to come, leaving out the row it replaces. -/
def conflict? (t : StoredTable) (without : Option Int) (row : StoredRow) (k : Key) :
    Option StoredRow :=
  t.rows.find? fun r => some r.id != without && k.shared row r

/-- A key that two rows would share. -/
def uniqueFailed (t : StoredTable) (k : Key) : String :=
  let columns :=
    match k with
    | .rowId => t.rule.rowId.toList
    | .columns is => is
  "UNIQUE constraint failed: " ++ ", ".intercalate (columns.map t.rule.shown)

/-- The row shares none of the keys with a row of the table. -/
def checkKeys (t : StoredTable) (without : Option Int) (row : StoredRow) :
    List Key → Except String Unit
  | [] => .ok ()
  | k :: rest =>
    match t.conflict? without row k with
    | some _ => .error (t.uniqueFailed k)
    | none => t.checkKeys without row rest

/-- There is no NULL where there may be none. The row id of a new row is never NULL. -/
def checkNulls (t : StoredTable) (values : List Stored) : Except String Unit :=
  match (List.range t.rule.columns.length).find? fun i =>
      t.rule.columns[i]?.any (·.notNull) && ((values[i]?).getD .null).isNull &&
        t.rule.rowId != some i with
  | some i => .error ("NOT NULL constraint failed: " ++ t.rule.shown i)
  | none => .ok ()

/-- A row with an id and values as the columns keep them. -/
def rowOf (t : StoredTable) (id : Int) (values : List Stored) : StoredRow where
  id
  values := (List.range t.rule.columns.length).map fun i =>
    if t.rule.rowId == some i then .integer (Int64.ofInt id)
    else (t.rule.affinity i).apply ((values[i]?).getD .null)

/-- The row id a value stands for. -/
def idOf (v : Stored) : Except String Int :=
  match Affinity.integer.apply v with
  | .integer n => .ok n.toInt
  | _ => .error "datatype mismatch"

end StoredTable

end SqlRecords.Sqlite
