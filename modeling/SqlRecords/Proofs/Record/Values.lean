import SqlRecords.Record.Schema

/-!
# The values of a record and its cells

A record has a value for each field, so the values can be looked up by the place of the
field (`Values.get`). The cell at a place is what the field there writes, and a record is
read from some cells if there is one for every field that the field can read.

The cells that are sent for a record leave out the values that the database gives. They go
with the columns that are sent, which leave out the same places.

## What is proved

* `Values.getElem?_cells`: the cell at a place.
* **`Schema.fromRow_ok`**: what it takes to read a record, and which values it then has.
* `Schema.insertable_zip_toRow`: the cells that are sent, each with its column.
-/

namespace SqlRecords

namespace Values

/-! ### Places -/

/-- The value at a place. -/
def get : (fields : List NamedField) → Values fields → (i : Fin fields.length) →
    (fields.get i).Value
  | _ :: _, (a, _), ⟨0, _⟩ => a
  | _ :: rest, (_, as), ⟨i + 1, h⟩ => get rest as ⟨i, Nat.lt_of_succ_lt_succ h⟩

/-- Values that are the same at every place are the same. -/
theorem ext : ∀ {fields : List NamedField} {as bs : Values fields},
    (∀ i, get fields as i = get fields bs i) → as = bs
  | [], (), (), _ => rfl
  | _ :: _, (_, _), (_, _), h =>
    Prod.ext (h ⟨0, Nat.succ_pos _⟩) (ext fun i => h ⟨i + 1, Nat.succ_lt_succ i.2⟩)

@[simp] theorem length_cells : ∀ (fields : List NamedField) (values : Values fields),
    (cells fields values).length = fields.length
  | [], _ => rfl
  | _ :: rest, (_, as) => congrArg (· + 1) (length_cells rest as)

/-- The cell at a place is what the field there writes. -/
theorem getElem?_cells : ∀ (fields : List NamedField) (values : Values fields)
    (i : Fin fields.length),
    (cells fields values)[i.val]? = some ((fields.get i).field.toCell (get fields values i))
  | _ :: _, (_, _), ⟨0, _⟩ => rfl
  | _ :: rest, (_, as), ⟨i + 1, h⟩ => getElem?_cells rest as ⟨i, Nat.lt_of_succ_lt_succ h⟩

/-! ### Reading -/

/-- Some values are those that the fields read from some cells. -/
def ReadFrom (fields : List NamedField) (cells : List Cell) (values : Values fields) : Prop :=
  ∀ i cell, cells[i.val]? = some cell →
    (fields.get i).field.fromCell cell = .ok (get fields values i)

/-- Cells that the fields can read are read one after the other. -/
theorem read_ok : ∀ {fields : List NamedField} {cells : List Cell} {n : Nat},
    cells.length = fields.length →
      (∀ i : Fin fields.length, ∃ cell a, cells[i.val]? = some cell ∧
        (fields.get i).field.fromCell cell = .ok a) →
          ∃ values, (read fields ⟨cells, n⟩).1 = .ok values ∧ ReadFrom fields cells values
  | [], cells, n, _, _ => ⟨(), rfl, fun i => i.elim0⟩
  | f :: fields, [], _, hlength, _ => by cases hlength
  | f :: fields, cell :: cells, n, hlength, h => by
    obtain ⟨_, a, ⟨⟩, hfirst⟩ := h ⟨0, Nat.succ_pos _⟩
    have hfirst : f.field.fromCell cell = .ok a := hfirst
    obtain ⟨values, hread, hvalues⟩ := read_ok (n := n + 1) (Nat.succ.inj hlength)
      fun i => h ⟨i + 1, Nat.succ_lt_succ i.2⟩
    refine ⟨(a, values), ?_, ?_⟩
    · simp only [read, RowReader.read, hfirst]
      cases hrest : read fields ⟨cells, n + 1⟩ with
      | mk result reader =>
        rw [hrest] at hread
        subst hread
        rfl
    · rintro ⟨_ | i, hi⟩ c hc
      · cases hc
        exact hfirst
      · exact hvalues ⟨i, Nat.lt_of_succ_lt_succ hi⟩ c hc

end Values

namespace Schema

variable {s : Schema}

/-- The value of a record at a place. -/
abbrev value (s : Schema) (record : s.Record) (i : Fin s.fields.length) : (s.fields.get i).Value :=
  Values.get s.fields record i

/-- **A record is read** if there is a cell for every field that the field can read. Its values are
those that are read from the cells. -/
theorem fromRow_ok {row : Row} (hlength : row.length = s.fields.length)
    (h : ∀ i : Fin s.fields.length, ∃ cell a, row[i.val]? = some cell ∧
      (s.fields.get i).field.fromCell cell = .ok a) :
    ∃ record, s.fromRow row = .ok record ∧ Values.ReadFrom s.fields row record := by
  obtain ⟨record, hread, hvalues⟩ := Values.read_ok (n := 0) hlength h
  refine ⟨record, ?_, hvalues⟩
  rw [fromRow, RowReader.ofRow, numColumns, if_pos hlength]
  exact hread

/-! ### Cells that are sent -/

/-- The cells that are written are those of the values that the database does not give. -/
theorem cells_write : ∀ (fields : List NamedField) (values : Values fields) (w : RowWriter),
    (Values.write fields values w).cells =
      w.cells ++ ((fields.zip (Values.cells fields values)).filter
        fun p => !p.1.field.autoIncrement).map (·.2)
  | [], _, w => (List.append_nil _).symm
  | f :: rest, (a, as), w => by
    rw [Values.write, cells_write rest as, RowWriter.write]
    cases hauto : f.field.autoIncrement <;> simp [Values.cells, hauto]

/-- The database gives the values of exactly the columns that say so. -/
def NumbersColumns (s : Schema) : Prop :=
  ∀ f ∈ s.fields, f.field.columnType.properties.autoIncrement = f.field.autoIncrement

/-- The columns and cells that are sent, in pairs. -/
def sent (s : Schema) (record : s.Record) : List (Column × Cell) :=
  (s.columns.zip (s.cells record)).filter fun p => !p.1.type.properties.autoIncrement

theorem map_fst_sent (record : s.Record) : (s.sent record).map (·.1) = s.insertable := by
  have hlength : s.columns.length ≤ (s.cells record).length := by
    simp [columns, cells]
  rw [sent, insertable, ← List.map_fst_zip hlength, List.filter_map]
  simp [Function.comp_def, List.map_fst_zip hlength]

theorem map_snd_sent (h : s.NumbersColumns) (record : s.Record) :
    (s.sent record).map (·.2) = s.toRow record := by
  have hsame : (s.fields.zip (s.cells record)).filter (fun p =>
        !p.1.column.type.properties.autoIncrement) =
      (s.fields.zip (s.cells record)).filter fun p => !p.1.field.autoIncrement :=
    List.filter_congr fun p hp => congrArg _ (h p.1 (List.of_mem_zip hp).1)
  have hrow : s.toRow record =
      ((s.fields.zip (s.cells record)).filter fun p => !p.1.field.autoIncrement).map (·.2) :=
    cells_write s.fields record .empty
  rw [hrow, ← hsame, sent, columns, List.zip_map_left, List.filter_map, List.map_map]
  rfl

/-- The columns that are sent, each with the cell that is sent for it. -/
theorem insertable_zip_toRow (h : s.NumbersColumns) (record : s.Record) :
    s.insertable.zip (s.toRow record) = s.sent record := by
  rw [← map_fst_sent record, ← map_snd_sent h record]
  exact (List.zip_of_prod rfl rfl).symm

/-- There is a cell for each column that is sent. -/
theorem length_toRow (h : s.NumbersColumns) (record : s.Record) :
    (s.toRow record).length = s.insertable.length := by
  rw [← map_fst_sent record, ← map_snd_sent h record, List.length_map, List.length_map]

end Schema

end SqlRecords
