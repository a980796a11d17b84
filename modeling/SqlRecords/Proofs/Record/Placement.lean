import SqlRecords.Proofs.Dialect.Placeholders
import SqlRecords.Proofs.Record.Declared
import SqlRecords.Proofs.Sqlite.ConflictTarget

/-!
# Rows line up with the statements that they are sent with

The columns of an INSERT or a bulk load are those whose column type does not say that the database
numbers them; the cells of a row are those of the fields that do not say so themselves. Each wrapper
of a field passes on both, and they agree for every field type
(`FieldType.autoIncrement_columnType`). So columns and cells belong to the same fields, those at
`Schema.sentPlaces`, in the same order.

## What is proved

* `Schema.insertable_eq_map`, `Schema.toRow_eq_map`: the columns that are sent, and the cells.
* `Schema.fromRow_toRow`: a row without numbered columns is read back.
* **`Schema.rows_line_up`**: the cells of a row, the columns of the statements and the placeholders
  in their texts belong together one by one.
-/

namespace SqlRecords.Schema

variable {s : Schema}

/-- The places of the fields that the database does not give the values of, in order. -/
def sentPlaces (s : Schema) : List (Fin s.fields.length) :=
  (List.finRange s.fields.length).filter fun i => !(s.fields.get i).field.autoIncrement

/-- The record type is declared with a field type for each name. -/
def IsDeclared (s : Schema) : Prop :=
  ∃ fields : List (String × FieldType), s.fields = fields.map RecordType.named

/-- A declared column says that the database numbers it if and only if its field does. -/
theorem IsDeclared.numbersColumns (h : s.IsDeclared) : s.NumbersColumns := by
  obtain ⟨fields, hs⟩ := h
  intro f hf
  rw [hs] at hf
  obtain ⟨g, -, rfl⟩ := List.mem_map.mp hf
  exact g.2.autoIncrement_columnType

/-! ### Columns and cells by their places -/

theorem cells_eq_map (record : s.Record) :
    s.cells record = (List.finRange s.fields.length).map fun i =>
      (s.fields.get i).field.toCell (s.value record i) := by
  refine List.ext_getElem (by simp [cells]) fun n hcells hn => ?_
  rw [List.length_map, List.length_finRange] at hn
  have hcell := Values.getElem?_cells s.fields record ⟨n, hn⟩
  rw [List.getElem_map, List.getElem_finRange]
  exact Option.some.inj ((List.getElem?_eq_getElem hcells).symm.trans hcell)

/-- The columns that are sent. -/
theorem insertable_eq_map (h : s.NumbersColumns) :
    s.insertable = s.sentPlaces.map fun i => (s.fields.get i).column := by
  rw [insertable, columns_eq_map, List.filter_map]
  refine congrArg _ (List.filter_congr fun i _ => ?_)
  exact congrArg _ (h _ (List.get_mem _ i))

/-- The cells that are sent. -/
theorem toRow_eq_map (record : s.Record) :
    s.toRow record = s.sentPlaces.map fun i =>
      (s.fields.get i).field.toCell (s.value record i) := by
  have hrow : s.toRow record =
      ((s.fields.zip (s.cells record)).filter fun p => !p.1.field.autoIncrement).map (·.2) :=
    cells_write s.fields record .empty
  have hpairs : s.fields.zip (s.cells record) = (List.finRange s.fields.length).map fun i =>
      (s.fields.get i, (s.fields.get i).field.toCell (s.value record i)) := by
    rw [cells_eq_map, ← List.zip_map', List.map_get_finRange]
  rw [hrow, hpairs, List.filter_map, List.map_map]
  rfl

/-- If the database numbers no column and each value is read from its cell, the record is read from
its row. -/
theorem fromRow_toRow {record : s.Record} (hplain : ∀ f ∈ s.fields, f.field.autoIncrement = false)
    (hread : ∀ i, (s.fields.get i).field.fromCell
      ((s.fields.get i).field.toCell (s.value record i)) = .ok (s.value record i)) :
    s.fromRow (s.toRow record) = .ok record := by
  have hplaces : s.sentPlaces = List.finRange s.fields.length :=
    List.filter_eq_self.mpr fun i _ => by rw [hplain _ (List.get_mem _ i), Bool.not_false]
  have hrow : s.toRow record = s.cells record := by
    rw [toRow_eq_map, hplaces, cells_eq_map]
  have hcell (i : Fin s.fields.length) := Values.getElem?_cells s.fields record i
  have hcells : (s.cells record).length = s.fields.length := Values.length_cells ..
  obtain ⟨record', hfrom, hvalues⟩ := fromRow_ok hcells fun i => ⟨_, _, hcell i, hread i⟩
  have hsame : record' = record := Values.ext fun i =>
    Except.ok.inj ((hvalues i _ (hcell i)).symm.trans (hread i))
  rw [hrow, hfrom, hsame]

/-- **Rows line up with the statements that they are sent with.** The row of a record has a cell for
each column of an INSERT and of a bulk load, that of the field that the column belongs to. The text
of an INSERT has so many placeholders in each dialect, in order. A query shows the columns of all
fields in the order they were declared, so that a record is read from its own row if the database
numbers no column and each value is read from its cell. -/
theorem rows_line_up (h : s.IsDeclared) (record : s.Record) (orReplace : Bool) :
    (s.insert orReplace).columns = s.sentPlaces.map (fun i => (s.fields.get i).column) ∧
      s.write.columns = s.sentPlaces.map (fun i => (s.fields.get i).column) ∧
      s.toRow record =
        s.sentPlaces.map (fun i => (s.fields.get i).field.toCell (s.value record i)) ∧
      (∀ d : Dialect, d.placeholders (d.compile (.insert (s.insert orReplace))) =
        some ((List.range (s.toRow record).length).map fun i => d.placeholder (i + 1))) ∧
      s.select = .of (.table (.named s.table)) (s.fields.map fun f => showing (col f.name)) ∧
      ((∀ f ∈ s.fields, f.field.autoIncrement = false) →
        (∀ i, (s.fields.get i).field.fromCell
          ((s.fields.get i).field.toCell (s.value record i)) = .ok (s.value record i)) →
        s.fromRow (s.toRow record) = .ok record) := by
  have hnumbers := h.numbersColumns
  have hlength : (s.toRow record).length = (s.insert orReplace).columns.length :=
    length_toRow hnumbers record
  refine ⟨insertable_eq_map hnumbers, insertable_eq_map hnumbers, toRow_eq_map record,
    fun d => ?_, ?_, fromRow_toRow⟩
  · rw [hlength]
    exact d.placeholders_insert _
  · rw [select, columns, List.map_map, SqlRecords.fields, List.map_map]
    rfl

/-- Records that the database numbers, under names that look like placeholders. -/
def markedNames : Schema :=
  ⟨"a?\"$1",
    [("$9", .shared (.numbered (.int .int64))), ("?", .text), (":n", .unique (.optional .text))].map
      RecordType.named⟩

theorem rows_line_up_markedNames :
    markedNames.IsDeclared ∧ markedNames.toRow (none, "b", none, ()) = [some "b", none] ∧
      Dialect.postgres.placeholders (Dialect.postgres.compile (.insert (markedNames.insert true))) =
        some ["$1", "$2"] := by
  have hdeclared : markedNames.IsDeclared := ⟨_, rfl⟩
  obtain ⟨-, -, -, hplaceholders, -⟩ := rows_line_up hdeclared (none, "b", none, ()) true
  exact ⟨hdeclared, rfl, hplaceholders .postgres⟩

end SqlRecords.Schema
