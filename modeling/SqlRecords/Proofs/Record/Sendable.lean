import SqlRecords.Proofs.Record.Checked
import SqlRecords.Proofs.Record.Placement

/-!
# Records that their table takes

A record of a type that is declared field by field brings no NULL where there may be none, and a
primary key that is the row id is a whole number. The check before a row is sent sees to the rest:
unsigned numbers that do not fit. So there is nothing wrong with a row that passes it, whatever
other types its fields have; floating point numbers and documents are taken as well.

## What is proved

* `FieldType.isExact_of_integer`: what columns of integers are made for.
* **`Schema.IsAdmissible.accepts`**: there is nothing wrong with a row that passes the check.
-/

namespace SqlRecords

open Sqlite SqliteConnection

namespace FieldType

/-- A column of integers is made for whole numbers and truth values. -/
theorem isExact_of_integer : ∀ {t : FieldType},
    TableRule.affinityOf t.field.columnType.kind = .integer → t.isExact = true
  | .bool, _ | .int _, _ | .text, _ | .varchar _, _ | .date, _ | .timestamp, _ | .instant, _ => rfl
  | .float32, h | .float, h | .document, h => absurd h (by decide)
  | .optional t, h | .primaryKey t, h | .numbered t, h | .unique t, h | .references t _, h
  | .shared t, h => isExact_of_integer (t := t) h

/-- A row id that is brought is a whole number, if it is let through. -/
theorem exists_idOf {t : FieldType} (hadm : t.Admissible) (hauto : t.field.autoIncrement = false)
    (hprimary : t.field.columnType.properties.primary = true)
    (hinteger : TableRule.affinityOf t.field.columnType.kind = .integer) (a : t.Value)
    (hfits : t.field.columnType.kind = .uint64 → ∀ text, t.field.toCell a = some text →
      exceedsSigned text = false) :
    ∃ id, StoredTable.idOf (.ofCell (t.field.toCell a)) = .ok id := by
  have hexact := isExact_of_integer hinteger
  obtain ⟨v, hv⟩ := keeps hexact hauto a (signed_of_cell hexact hauto a hfits)
  have hnotNull := (isCoherent hadm).keyNotNull hprimary
  obtain ⟨text, htext⟩ := Option.ne_none_iff_exists'.mp (toCell_ne_none hadm hnotNull hauto a)
  rw [htext, hinteger] at hv
  obtain ⟨n, -, -, hn⟩ := hv.idOf
  rw [htext]
  exact ⟨n.toInt, hn⟩

end FieldType

namespace Schema

variable {s : Schema}

/-- The record type is declared with a field type that makes sense for each name. -/
def IsAdmissible (s : Schema) : Prop :=
  ∃ fields : List (String × FieldType), s.fields = fields.map RecordType.named ∧
    ∀ f ∈ fields, f.2.Admissible

namespace IsAdmissible

theorem numbersColumns (h : s.IsAdmissible) : s.NumbersColumns := by
  obtain ⟨fields, hs, -⟩ := h
  exact IsDeclared.numbersColumns ⟨fields, hs⟩

/-- What holds of all field types that make sense holds at each place. -/
theorem forall_get (h : s.IsAdmissible) {p : NamedField → Prop}
    (hp : ∀ f : String × FieldType, f.2.Admissible → p (RecordType.named f))
    (i : Fin s.fields.length) : p (s.fields.get i) := by
  obtain ⟨fields, hs, hadm⟩ := h
  have hall : ∀ f ∈ s.fields, p f := by
    rw [hs, List.forall_mem_map]
    exact fun f hf => hp f (hadm f hf)
  exact hall _ (List.get_mem s.fields i)

/-- A number that is brought fits if its row passes the check. -/
theorem fits (h : s.IsAdmissible) {record : s.Record}
    (hfits : checkRow s.insertable (s.toRow record) = .ok ()) {i : Fin s.fields.length}
    (hi : ¬s.IsNumbered i) (hkind : (s.fields.get i).field.columnType.kind = .uint64)
    {text : String} (htext : s.cell record i = some text) : exceedsSigned text = false := by
  have hnumbers := h.numbersColumns
  rw [checkRow, if_pos (length_toRow hnumbers record)] at hfits
  refine fits_of_checkRange hfits ((s.fields.get i).column, s.cell record i) ?_ hkind text htext
  rw [insertable_zip_toRow hnumbers]
  refine List.mem_filter.mpr ⟨List.mem_of_getElem? (i := i.val) ?_, ?_⟩
  · rw [List.getElem?_zip_eq_some]
    exact ⟨s.getElem?_columns i, s.getElem?_cells record i⟩
  · exact (Bool.not_eq_true' _).mpr (Bool.eq_false_iff.mpr hi)

/-- **There is nothing wrong with a row that passes the check.** -/
theorem accepts (h : s.IsAdmissible) {rule : TableRule} (htable : TableRule.IsTableOf s rule)
    {record : s.Record} (hfits : checkRow s.insertable (s.toRow record) = .ok ()) :
    rule.Accepts s.insertable (s.toRow record) := by
  have hplain : ∀ {i : Fin s.fields.length}, ¬s.IsNumbered i →
      (s.fields.get i).field.columnType.properties.autoIncrement = false :=
    fun hi => Bool.eq_false_iff.mpr hi
  refine htable.accepts_of_cells h.numbersColumns (fun i hi hnullable => ?_)
    fun i hkey hinteger => ?_
  · have hcell := h.forall_get (p := fun f => f.field.columnType.properties.autoIncrement = false →
      f.field.columnType.properties.nullable = false → ∀ a, f.field.toCell a ≠ none)
      (fun f hadm hauto hnullable => FieldType.toCell_ne_none hadm hnullable
        ((FieldType.autoIncrement_columnType f.2).symm.trans hauto)) i
    exact hcell (hplain hi) hnullable (s.value record i)
  · have hid := h.forall_get (p := fun f => f.field.columnType.properties.autoIncrement = false →
      f.field.columnType.properties.primary = true →
      TableRule.affinityOf f.field.columnType.kind = .integer → ∀ a,
        (f.field.columnType.kind = .uint64 → ∀ text, f.field.toCell a = some text →
          exceedsSigned text = false) →
        ∃ id, StoredTable.idOf (.ofCell (f.field.toCell a)) = .ok id)
      (fun f hadm hauto => FieldType.exists_idOf hadm
        ((FieldType.autoIncrement_columnType f.2).symm.trans hauto)) i
    exact hid (hplain hkey.2) hkey.1 hinteger (s.value record i)
      fun hkind _ htext => h.fits hfits hkey.2 hkind htext

end IsAdmissible

end Schema

end SqlRecords
