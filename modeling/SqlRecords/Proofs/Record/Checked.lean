import SqlRecords.Proofs.Engine.RoundTrip

/-!
# Rows that pass the check

Rows are checked before they are sent: a number of 64 bits without a sign has to fit in one with.
A row that passes is the row of a record whose numbers all fit, so that its columns keep them.

## What is proved

* `SqliteConnection.exceedsSigned_eq_false_iff`: which numbers are let through.
* **`RecordType.signed_of_checkRow`**: the numbers of a record fit if its row passes the check.
-/

namespace SqlRecords

open Sqlite

namespace SqliteConnection

/-- A number of 64 bits without a sign is let through if it fits in one with. -/
theorem exceedsSigned_eq_false_iff {n : Int} (hlow : 0 ≤ n) (hhigh : n ≤ UInt64.size - 1) :
    exceedsSigned (toString n) = false ↔ n ≤ Int64.maxValue.toInt := by
  have hunsigned := Text.readInteger_toString hlow hhigh
  have hmin : Int64.minValue.toInt ≤ 0 := by decide
  have hleast : Int64.minValue.toInt ≤ n := Int.le_trans hmin hlow
  constructor
  · intro hfits
    by_contra hlarge
    have hwide := Text.readInteger_toString hleast (Int.le_refl n)
    simp only [exceedsSigned, hunsigned] at hfits
    cases hread :
        Text.readInteger Int64.minValue.toInt Int64.maxValue.toInt (toString n).toList with
    | error fault =>
      rw [hread] at hfits
      cases hfits
    | ok m =>
      have hsame := Text.readInteger_mono (Int.le_of_lt (Int.not_le.mp hlarge)) hread
      rw [hwide] at hsame
      cases hsame
      have hbound := Text.mem_of_readInteger hmin (by decide) hread
      omega
  · intro hfits
    have hread := Text.readInteger_toString hleast hfits
    simp only [exceedsSigned, hread]
    rfl

/-- Each number of a row that passes the check is let through. -/
theorem fits_of_checkRange : ∀ {columns : List Column} {row : Row},
    checkRange columns row = .ok () → ∀ p ∈ columns.zip row, p.1.type.kind = .uint64 →
      ∀ text, p.2 = some text → exceedsSigned text = false
  | [], _, _, p, hp => by simp at hp
  | _ :: _, [], _, p, hp => by simp at hp
  | c :: columns, none :: row, h, p, hp => by
    rw [checkRange] at h
    rw [List.zip_cons_cons] at hp
    rcases List.mem_cons.mp hp with rfl | hp
    · intro _ text htext
      cases htext
    · exact fits_of_checkRange h p hp
  | c :: columns, some text :: row, h, p, hp => by
    rw [checkRange] at h
    split at h
    · cases h
    · next hfits =>
      rw [List.zip_cons_cons] at hp
      rcases List.mem_cons.mp hp with rfl | hp
      · intro hkind text' htext
        cases htext
        have hkind : c.type.kind = .uint64 := hkind
        simpa [hkind] using hfits
      · exact fits_of_checkRange h p hp

end SqliteConnection

open SqliteConnection

namespace FieldType

/-- The number of a cell that is let through fits. -/
theorem signed_of_cell : ∀ {t : FieldType}, t.isExact = true → t.field.autoIncrement = false →
    ∀ a : t.Value, (t.field.columnType.kind = .uint64 → ∀ text, t.field.toCell a = some text →
      exceedsSigned text = false) → t.Signed a
  | .bool, _, _, _, _ | .text, _, _, _, _ | .varchar _, _, _, _, _ | .date, _, _, _, _
  | .timestamp, _, _, _, _ | .instant, _, _, _, _ => trivial
  | .int w, _, _, n, h => by
    obtain ⟨n, hlow, hhigh⟩ := n
    change n ≤ Int64.maxValue.toInt
    cases w with
    | uint64 => exact (exceedsSigned_eq_false_iff hlow hhigh).mp (h rfl _ rfl)
    | _ => exact Int.le_trans hhigh (by decide)
  | .optional _, _, _, none, _ => fun _ hb => by cases hb
  | .optional t, hexact, hauto, some a, h => by
    intro b hb
    cases hb
    exact signed_of_cell (t := t) hexact hauto a h
  | .primaryKey t, hexact, hauto, a, h | .unique t, hexact, hauto, a, h
  | .references t _, hexact, hauto, a, h | .shared t, hexact, hauto, a, h =>
    signed_of_cell (t := t) hexact hauto a h

end FieldType

namespace RecordType

theorem allSigned_of_cells : ∀ (fields : List (String × FieldType))
    (values : Values (fields.map named)),
    (∀ f ∈ fields, f.2.isExact = true ∧ f.2.field.autoIncrement = false) →
      (∀ p ∈ ((fields.map named).map NamedField.column).zip
          (Values.cells (fields.map named) values),
        p.1.type.kind = .uint64 → ∀ text, p.2 = some text → exceedsSigned text = false) →
        All FieldType.Signed fields values
  | [], _, _, _ => trivial
  | f :: rest, (a, as), hexact, hfits => by
    obtain ⟨hf, hauto⟩ := hexact f List.mem_cons_self
    refine ⟨FieldType.signed_of_cell hf hauto a ?_, allSigned_of_cells rest as
      (fun g hg => hexact g (List.mem_cons_of_mem f hg))
      (fun p hp => hfits p (List.mem_cons_of_mem _ hp))⟩
    exact hfits ((named f).column, f.2.field.toCell a) List.mem_cons_self

/-- **The numbers of a record fit** if its row passes the check and the database gives none of
them. -/
theorem signed_of_checkRow (r : RecordType) (hplain : ∀ i, ¬r.schema.IsNumbered i)
    {record : r.schema.Record}
    (h : checkRow r.schema.insertable (r.schema.toRow record) = .ok ()) : r.Signed record := by
  have hnone : ∀ f ∈ r.fields, f.2.field.autoIncrement = false := by
    intro f hf
    obtain ⟨i, rfl⟩ := List.get_of_mem hf
    let j : Fin r.schema.fields.length := i.cast (List.length_map named).symm
    have hj := hplain j
    rw [isNumbered_iff] at hj
    exact Bool.eq_false_iff.mpr hj
  refine allSigned_of_cells r.fields record (fun f hf => ⟨(r.plain f hf).2.1, hnone f hf⟩) ?_
  intro p hp
  rw [checkRow, if_pos (r.schema.length_toRow r.hasTable.numbers record)] at h
  refine fits_of_checkRange h p ?_
  rw [r.schema.insertable_zip_toRow r.hasTable.numbers]
  refine List.mem_filter.mpr ⟨hp, ?_⟩
  obtain ⟨f, hf, hcolumn⟩ := List.mem_map.mp (List.of_mem_zip hp).1
  obtain ⟨g, hg, rfl⟩ := List.mem_map.mp hf
  rw [← hcolumn]
  exact (Bool.not_eq_true' _).mpr ((FieldType.autoIncrement_columnType g.2).trans (hnone g hg))

end RecordType

end SqlRecords
