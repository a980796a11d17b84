import SqlRecords.Proofs.Field.RoundTrip
import SqlRecords.Proofs.Sqlite.Records

/-!
# Record types that are declared field by field

A `RecordType` has a name and a field type for each of its columns, and carries the proofs
that a table can be made for it and keeps its values: the names differ, the types make sense
and are exact, and the database numbers one column at most.

## What is proved

* `FieldType.reads_numbers`: the numbers that the database gives can be read.
* `RecordType.hasTable`: there can be a table for the records.
* **`RecordType.kept`**: its columns keep the values of a record if its numbers fit in signed
  numbers of 64 bits and its timestamps are in normal form.
* `RecordType.kept_normalize`, `RecordType.toRow_normalize`: what is kept of any other record,
  which is sent like its normal form.
-/

namespace SqlRecords

open Sqlite

/-! ### Field types -/

namespace FieldType

/-- A column says that the database numbers it if its field does. -/
theorem autoIncrement_columnType : ∀ t : FieldType,
    t.field.columnType.properties.autoIncrement = t.field.autoIncrement
  | .bool | .int _ | .float32 | .float | .text | .varchar _ | .date | .timestamp | .instant
  | .document | .numbered _ => rfl
  | .optional t | .primaryKey t | .unique t | .references t _ | .shared t =>
    autoIncrement_columnType t

/-- A type that the database numbers reads every number of 64 bits as itself. -/
theorem reads_numbers : ∀ {t : FieldType}, t.Admissible → t.field.autoIncrement = true →
    t.field.columnType.kind = .int64 → ∀ n : Int64,
      ∃ a, t.field.fromCell (some (toString n.toInt)) = .ok a ∧
        t.field.toCell a = some (toString n.toInt)
  | .bool, _, h, _ | .int _, _, h, _ | .float32, _, h, _ | .float, _, h, _ | .text, _, h, _
  | .varchar _, _, h, _ | .date, _, h, _ | .timestamp, _, h, _ | .instant, _, h, _
  | .document, _, h, _ => by cases h
  | .optional t, hadm, h, _ | .primaryKey t, hadm, h, _ => by
    have hauto : t.field.autoIncrement = true := h
    rw [(toCell_ne_none_of_notNull (Bool.and_eq_true_iff.mp hadm).1).1] at hauto
    cases hauto
  | .numbered t, hadm, _, hkind => by
    intro n
    cases t with
    | int w =>
      cases w with
      | int64 =>
        let a : IntSize.int64.Number := ⟨n.toInt, n.minValue_le_toInt, n.toInt_le⟩
        have hread : (Field.int .int64).fromCell (some (toString n.toInt)) = .ok a :=
          Field.fromCell_toCell_int a
        refine ⟨some a, ?_, rfl⟩
        simp only [field, Field.numbered, hread]
        rfl
      | _ => cases hkind
    | _ => cases hadm
  | .unique t, hadm, h, hkind | .references t _, hadm, h, hkind | .shared t, hadm, h, hkind =>
    reads_numbers (t := t) hadm h hkind

end FieldType

/-! ### Record types -/

/-- A type of records that is declared field by field, for a table of its own. -/
structure RecordType where
  /-- The name of the table. -/
  table : String
  /-- The fields with their names, in order. -/
  fields : List (String × FieldType)
  /-- The name of the table is not one of the database's own. -/
  notReserved : Tables.isReserved table = false
  /-- No two columns have the same name. -/
  distinct : (fields.map (·.1)).Pairwise fun a b => sameName b a = false
  /-- The types make sense, keep their values exactly and refer to no other table. -/
  plain : ∀ f ∈ fields, f.2.Admissible ∧ f.2.isExact = true ∧
    f.2.field.columnType.properties.foreignKey = none
  /-- Either there are columns and the database numbers none of them, or it numbers exactly one, of
  64 bits and next to others, and there is no other primary key. -/
  numbering : (fields ≠ [] ∧ ∀ f ∈ fields, f.2.field.autoIncrement = false) ∨
    (2 ≤ fields.length ∧
      (∃ i : Fin fields.length, ∀ j, (fields.get j).2.field.autoIncrement = true ↔ j = i) ∧
      ∀ f ∈ fields, (f.2.field.autoIncrement = true → f.2.field.columnType.kind = .int64) ∧
        (f.2.field.columnType.properties.primary = true → f.2.field.autoIncrement = true))

namespace RecordType

/-- A field with its name. -/
def named (f : String × FieldType) : NamedField := ⟨f.1, f.2.Value, f.2.field⟩

/-- The records of a type. -/
def schema (r : RecordType) : Schema := ⟨r.table, r.fields.map named⟩

/-- Some values have a property one by one. -/
def All (p : (t : FieldType) → t.Value → Prop) :
    (fields : List (String × FieldType)) → Values (fields.map named) → Prop
  | [], _ => True
  | f :: rest, (a, as) => p f.2 a ∧ All p rest as

instance decidableAll {p : (t : FieldType) → t.Value → Prop} [d : ∀ t a, Decidable (p t a)] :
    ∀ (fields : List (String × FieldType)) (values : Values (fields.map named)),
      Decidable (All p fields values)
  | [], _ => isTrue trivial
  | f :: rest, (a, as) => @instDecidableAnd _ _ (d f.2 a) (decidableAll rest as)

/-- The numbers of a record fit in signed ones. -/
def Signed (r : RecordType) (record : r.schema.Record) : Prop :=
  All FieldType.Signed r.fields record

instance (r : RecordType) (record : r.schema.Record) : Decidable (r.Signed record) :=
  @decidableAll _ FieldType.decidableSigned r.fields record

/-- The timestamps of a record are in normal form: the fraction of a second is that of one second,
but for a leap second. -/
def IsNormal (r : RecordType) (record : r.schema.Record) : Prop :=
  All FieldType.IsNormal r.fields record

instance (r : RecordType) (record : r.schema.Record) : Decidable (r.IsNormal record) :=
  @decidableAll _ FieldType.decidableIsNormal r.fields record

/-- Some values with their timestamps in normal form. -/
def normalizeAll : (fields : List (String × FieldType)) → Values (fields.map named) →
    Values (fields.map named)
  | [], values => values
  | f :: rest, (a, as) => (f.2.normalize a, normalizeAll rest as)

/-- The record with its timestamps in normal form. -/
def normalize (r : RecordType) (record : r.schema.Record) : r.schema.Record :=
  normalizeAll r.fields record

/-- What holds of all values of the field types holds at each place of a record. -/
theorem forall_get {p : (t : FieldType) → t.Value → Prop} {q : (f : NamedField) → f.Value → Prop} :
    ∀ (fields : List (String × FieldType)) (values : Values (fields.map named)),
      All p fields values →
        (∀ f ∈ fields, ∀ a : f.2.Value, p f.2 a → q (named f) a) →
          ∀ i, q ((fields.map named).get i) (Values.get (fields.map named) values i)
  | [], _, _, _, i => i.elim0
  | f :: _, (a, _), hall, h, ⟨0, _⟩ => h f List.mem_cons_self a hall.1
  | f :: rest, (_, as), hall, h, ⟨i + 1, hi⟩ =>
    forall_get rest as hall.2 (fun g hg => h g (List.mem_cons_of_mem f hg))
      ⟨i, Nat.lt_of_succ_lt_succ hi⟩

theorem All.and {p q : (t : FieldType) → t.Value → Prop} :
    ∀ {fields : List (String × FieldType)} {values : Values (fields.map named)},
      All p fields values → All q fields values → All (fun t a => p t a ∧ q t a) fields values
  | [], _, _, _ => trivial
  | _ :: _, (_, _), hp, hq => ⟨⟨hp.1, hq.1⟩, hp.2.and hq.2⟩

/-- What holds of the normal forms of values holds of values in normal form. -/
theorem All.normalizeAll {p q : (t : FieldType) → t.Value → Prop}
    (h : ∀ t a, p t a → q t (t.normalize a)) :
    ∀ {fields : List (String × FieldType)} {values : Values (fields.map named)},
      All p fields values → All q fields (normalizeAll fields values)
  | [], _, _ => trivial
  | _ :: _, (_, _), hall => ⟨h _ _ hall.1, hall.2.normalizeAll h⟩

theorem write_normalizeAll : ∀ (fields : List (String × FieldType))
    (values : Values (fields.map named)) (w : RowWriter),
    Values.write (fields.map named) (normalizeAll fields values) w =
      Values.write (fields.map named) values w
  | [], _, _ => rfl
  | f :: rest, (a, as), w => by
    have hcell : f.2.field.toCell (f.2.normalize a) = f.2.field.toCell a := f.2.toCell_normalize a
    have hfirst : w.write f.2.field (f.2.normalize a) = w.write f.2.field a :=
      congrArg (fun cell => if f.2.field.autoIncrement then w else ⟨w.cells ++ [cell]⟩) hcell
    have hrest := write_normalizeAll rest as (w.write f.2.field a)
    rw [← hfirst] at hrest
    exact hrest.trans (congrArg _ hfirst)

variable (r : RecordType)

/-- The place of a field among those that were declared. -/
def place (i : Fin r.schema.fields.length) : Fin r.fields.length :=
  i.cast (List.length_map named)

theorem get_schema (i : Fin r.schema.fields.length) :
    r.schema.fields.get i = named (r.fields.get (r.place i)) :=
  List.getElem_map named

theorem mem_place (i : Fin r.schema.fields.length) : r.fields.get (r.place i) ∈ r.fields :=
  List.get_mem r.fields (r.place i)

/-- The database numbers a column if its field says so. -/
theorem isNumbered_iff (i : Fin r.schema.fields.length) :
    r.schema.IsNumbered i ↔ (r.fields.get (r.place i)).2.field.autoIncrement = true := by
  rw [Schema.IsNumbered, Schema.properties, get_schema]
  exact Bool.eq_iff_iff.mp (FieldType.autoIncrement_columnType _)

/-- A record and its normal form are sent alike. -/
theorem toRow_normalize (record : r.schema.Record) :
    r.schema.toRow (r.normalize record) = r.schema.toRow record :=
  congrArg RowWriter.finish (write_normalizeAll r.fields record .empty)

/-- The columns of a record keep its values if its numbers fit and its timestamps are in normal
form. -/
theorem kept {record : r.schema.Record} (h : r.Signed record) (hnormal : r.IsNormal record) :
    r.schema.Kept record := by
  have hfields : ∀ f ∈ r.fields, ∀ a : f.2.Value, f.2.Signed a ∧ f.2.IsNormal a →
      f.2.field.autoIncrement = false →
        (∃ v, Stored.Keeps (TableRule.affinityOf f.2.field.columnType.kind)
          (f.2.field.toCell a) v) ∧
        (f.2.field.columnType.properties.nullable = false → f.2.field.toCell a ≠ none) ∧
        f.2.field.fromCell (f.2.field.toCell a) = .ok a := by
    rintro f hf a ⟨ha, hnormal⟩ hauto
    obtain ⟨hadm, hexact, -⟩ := r.plain f hf
    have hread := FieldType.fromCell_toCell hadm hexact a (by simp [hauto])
    rw [FieldType.normalize_eq_self_iff.mpr hnormal] at hread
    exact ⟨FieldType.keeps hexact hauto a ha,
      fun hnull => FieldType.toCell_ne_none hadm hnull hauto a, hread⟩
  have hall := forall_get (q := fun f a => f.field.autoIncrement = false →
    (∃ v, Stored.Keeps (TableRule.affinityOf f.field.columnType.kind) (f.field.toCell a) v) ∧
    (f.field.columnType.properties.nullable = false → f.field.toCell a ≠ none) ∧
    f.field.fromCell (f.field.toCell a) = .ok a) r.fields record (h.and hnormal) hfields
  have hplain : ∀ i, ¬r.schema.IsNumbered i →
      (r.schema.fields.get i).field.autoIncrement = false := fun i hi => by
    rw [get_schema]
    exact Bool.eq_false_iff.mpr fun hauto => hi ((r.isNumbered_iff i).mpr hauto)
  exact ⟨fun i hi => (hall i (hplain i hi)).1, fun i hi => (hall i (hplain i hi)).2.1,
    fun i hi => (hall i (hplain i hi)).2.2⟩

/-- The columns of a record keep its normal form if its numbers fit. -/
theorem kept_normalize {record : r.schema.Record} (h : r.Signed record) :
    r.schema.Kept (r.normalize record) :=
  r.kept (h.normalizeAll fun _ _ => FieldType.Signed.normalize)
    (h.normalizeAll fun t a _ => t.isNormal_normalize a)

/-- A column that the database numbers is the only one. -/
theorem place_eq {i j : Fin r.schema.fields.length} (hi : r.schema.IsNumbered i)
    (hj : r.schema.IsNumbered j) : i = j := by
  rw [isNumbered_iff] at hi hj
  obtain ⟨-, hnone⟩ | ⟨-, ⟨k, hone⟩, -⟩ := r.numbering
  · rw [hnone _ (r.mem_place i)] at hi
    cases hi
  · have hplace : r.place i = r.place j := ((hone _).mp hi).trans ((hone _).mp hj).symm
    have hval : (r.place i).val = (r.place j).val := congrArg Fin.val hplace
    exact Fin.ext hval

/-- There is a column that the database does not number. -/
theorem exists_not_numbered : ∃ i, ¬r.schema.IsNumbered i := by
  have hlength : r.schema.fields.length = r.fields.length := List.length_map named
  obtain ⟨hne, hnone⟩ | ⟨htwo, -⟩ := r.numbering
  · have hpos : 0 < r.schema.fields.length := hlength ▸ List.length_pos_iff.mpr hne
    refine ⟨⟨0, hpos⟩, fun hi => ?_⟩
    rw [isNumbered_iff, hnone _ (r.mem_place _)] at hi
    cases hi
  · by_contra hall
    rw [not_exists] at hall
    have hsame := r.place_eq (i := ⟨0, by omega⟩) (j := ⟨1, by omega⟩)
      (not_not.mp (hall _)) (not_not.mp (hall _))
    cases hsame

/-- There can be a table for the records. -/
theorem hasTable : r.schema.HasTable where
  distinct := by
    have hnames : r.schema.fields.map (·.name) = r.fields.map (·.1) := by
      simp [schema, named, Function.comp_def]
    rw [hnames]
    exact r.distinct
  numbers f hf := by
    obtain ⟨f, -, rfl⟩ := List.mem_map.mp hf
    exact f.2.autoIncrement_columnType
  sends := by
    obtain ⟨i, hi⟩ := r.exists_not_numbered
    refine List.ne_nil_of_mem (a := (r.schema.fields.get i).column) (List.mem_filter.mpr ⟨?_, ?_⟩)
    · exact List.mem_map_of_mem (List.get_mem _ i)
    · exact (Bool.not_eq_true' _).mpr (Bool.eq_false_iff.mpr hi)
  oneKey i j hi hj := by
    rcases hj with hj | ⟨hprimary, hj⟩
    · exact r.place_eq hj hi
    · exfalso
      rw [isNumbered_iff] at hi hj
      obtain ⟨-, hnone⟩ | ⟨-, -, hkey⟩ := r.numbering
      · rw [hnone _ (r.mem_place i)] at hi
        cases hi
      · rw [Schema.properties, get_schema] at hprimary
        exact hj ((hkey _ (r.mem_place j)).2 hprimary)
  keyNotNull i hi := by
    obtain ⟨hprimary, -⟩ := hi
    rw [Schema.properties, get_schema] at hprimary ⊢
    exact (FieldType.isCoherent (r.plain _ (r.mem_place i)).1).keyNotNull hprimary
  noReference i := by
    rw [Schema.properties, get_schema]
    exact (r.plain _ (r.mem_place i)).2.2
  readsNumbers i hi := by
    rw [isNumbered_iff] at hi
    rw [get_schema]
    obtain ⟨-, hnone⟩ | ⟨-, -, hkey⟩ := r.numbering
    · rw [hnone _ (r.mem_place i)] at hi
      cases hi
    · exact FieldType.reads_numbers (r.plain _ (r.mem_place i)).1 hi ((hkey _ (r.mem_place i)).1 hi)

end RecordType

end SqlRecords
