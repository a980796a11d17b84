import SqlRecords.Sqlite.Table

/-!
# Inserting rows

An INSERT is looked up in its table before its first row comes: which columns get the
values, and what is done with a row that shares a key with one that is there. Then
each row stands alone.
-/

namespace SqlRecords.Sqlite

open StoredTable

/-- What is done with a row that shares a key with one that is there. -/
inductive OnConflict where
  /-- It is refused. -/
  | refuse
  /-- The rows that are there go. -/
  | replace
  /-- It is left out if it shares the key, else it is inserted. -/
  | skip (key : Key)
  /-- The row that shares the key takes its values in some columns. -/
  | overwrite (key : Key) (columns : List Nat)
  deriving DecidableEq, Repr

/-- An INSERT as it was looked up in its table. -/
structure Insertion where
  /-- The columns that get the values. -/
  columns : List Nat
  /-- What is done with conflicts. -/
  onConflict : OnConflict
  deriving DecidableEq, Repr

namespace Insertion

/-- The columns that have some names. -/
def lookUp (t : TableRule) (table : String) : List Column → Except String (List Nat)
  | [] => .ok []
  | c :: rest =>
    match t.find? c.name with
    | some i => (lookUp t table rest).map (i :: ·)
    | none => .error ("table " ++ table ++ " has no column named " ++ c.name)

/-- The lists have the same members. -/
def sameMembers (a b : List Nat) : Bool :=
  a.length == b.length && a.all b.contains && b.all a.contains

/-- The key that some columns are. -/
def keyOf? (t : TableRule) (columns : List Nat) : Option Key :=
  if t.rowId.toList == columns then some .rowId
  else (t.uniques.find? (sameMembers columns)).map .columns

/-- Columns that are no key. -/
def noSuchKey : String := "ON CONFLICT clause does not match any PRIMARY KEY or UNIQUE constraint"

/-- Looks an INSERT up in its table. -/
def ofStatement (t : TableRule) (i : Insert) : Except String Insertion := do
  let columns ← lookUp t i.table.name i.columns
  if !i.orReplace then return ⟨columns, .refuse⟩
  else if i.constraints.isEmpty then return ⟨columns, .replace⟩
  else
    match (i.constraints.mapM fun c => t.find? c.name).bind (keyOf? t) with
    | none => throw noSuchKey
    | some key =>
      match ← lookUp t i.table.name (Dialect.overwritten i) with
      | [] => return ⟨columns, .skip key⟩
      | overwritten => return ⟨columns, .overwrite key overwritten⟩

/-- The values of all columns of a new row, NULL for those that get none. -/
def values (i : Insertion) (t : TableRule) (given : List Stored) : List Stored :=
  (List.range t.columns.length).map fun c => ((i.columns.zip given).lookup c).getD .null

/-- The id of a new row: the value given for it, or the next one. -/
def newId (t : StoredTable) (values : List Stored) : Except String Int :=
  match t.rule.rowId with
  | none => t.nextId
  | some i =>
    match (values[i]?).getD .null with
    | .null => t.nextId
    | v => idOf v

end Insertion

namespace StoredTable

/-- The row with other values in some columns. -/
def changed (row : StoredRow) (columns : List Nat) (value : Nat → Stored) : List Stored :=
  (List.range row.values.length).map fun i => if columns.contains i then value i else row.value i

/-- Gives a row other values in some columns. -/
def change (t : StoredTable) (row : StoredRow) (columns : List Nat) (value : Nat → Stored) :
    Except String StoredTable := do
  let id ←
    match t.rule.rowId with
    | some i => if columns.contains i then idOf (value i) else pure row.id
    | none => pure row.id
  let values := changed row columns value
  t.checkNulls values
  let row' := t.rowOf id values
  t.checkKeys (some row.id) row' t.keys
  return t.replace row.id row'

/-- Takes away the rows that share a key with a row to come. -/
def clear (t : StoredTable) (row : StoredRow) : StoredTable :=
  { t with rows := t.rows.filter fun r => !t.keys.any fun k => k.shared row r }

/-- Inserts a row of values. -/
def insert (t : StoredTable) (i : Insertion) (given : List Stored) : Except String StoredTable := do
  let values := i.values t.rule given
  let id ← Insertion.newId t values
  t.checkNulls values
  let row := t.rowOf id values
  match i.onConflict with
  | .refuse => do
    t.checkKeys none row t.keys
    return t.add row
  | .replace => return (t.clear row).add row
  | .skip key =>
    match t.conflict? none row key with
    | some _ => return { t with lastId := max t.lastId id }
    | none => do
      t.checkKeys none row t.keys
      return t.add row
  | .overwrite key columns =>
    match t.conflict? none row key with
    | some old => ({ t with lastId := max t.lastId id } : StoredTable).change old columns row.value
    | none => do
      t.checkKeys none row t.keys
      return t.add row

end StoredTable

end SqlRecords.Sqlite
