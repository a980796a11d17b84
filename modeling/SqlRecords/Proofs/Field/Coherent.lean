import SqlRecords.Field.Type

/-!
# What a column says and how it behaves

A field says more than once what its column is for: the type of the column allows NULL or
makes it a key, a flag tells whether the database numbers it, and its cells are read and
written in their own way. The field is coherent (`Field.IsCoherent`) if all of this agrees.

Each wrapper keeps a field coherent, whatever the field is made of, so that it does not
matter how wrappers are nested. Those that allow NULL or make a key ask for a plain field
(`Field.IsPlain`), which allows no NULL and is no key. This is why admissible types have
nothing else under them, and also why no step in the building of their columns is refused.

## What is proved

* `Field.IsCoherent.optional` and the lemmas after it: what each wrapper asks for.
* `FieldType.isPlain_of_notNull`: the types that are marked to be without NULL are plain.
* `FieldType.buildColumnType_eq`: the column of an admissible type can be built.
* **`FieldType.column_coherent`**: it says how the values of the type behave.
-/

namespace SqlRecords

/-! ### Coherent fields -/

namespace Field

variable {α : Type} {f : Field α}

/-- A column that does not allow NULL and is no key. -/
structure IsPlain (f : Field α) : Prop where
  notNull : f.columnType.properties.nullable = false
  notKey : f.columnType.properties.primary = false

/-- The column of a field says how the field behaves. -/
structure IsCoherent (f : Field α) : Prop where
  /-- There is no NULL in a primary key. -/
  keyNotNull : f.columnType.properties.primary = true → f.columnType.properties.nullable = false
  /-- Only primary keys of whole numbers are numbered. -/
  numberedKey : f.columnType.properties.autoIncrement = true →
    f.columnType.properties.primary = true ∧ f.columnType.kind.isIntegral = true
  /-- The flag says what the column says. -/
  flag : f.autoIncrement = f.columnType.properties.autoIncrement
  /-- NULL is read exactly where the column allows it. -/
  readsNull : (∃ a, f.fromCell none = .ok a) ↔ f.columnType.properties.nullable = true
  /-- NULL is written there, or for a number that the database has still to give. -/
  writesNull : ∀ a, f.toCell a = none →
    f.columnType.properties.nullable = true ∨ f.columnType.properties.autoIncrement = true

namespace IsCoherent

/-- Values are not NULL unless the column allows NULL or is numbered. -/
theorem toCell_ne_none (h : f.IsCoherent) (hnull : f.columnType.properties.nullable = false)
    (hauto : f.autoIncrement = false) (a : α) : f.toCell a ≠ none := by
  intro ha
  rw [h.flag] at hauto
  rcases h.writesNull a ha with h | h
  · cases hnull.symm.trans h
  · cases hauto.symm.trans h

/-- A field without properties is coherent. -/
theorem ofText (kind : Kind) (read : String → Result α) (write : α → String) :
    (Field.ofText kind read write).IsCoherent where
  keyNotNull := nofun
  numberedKey := nofun
  flag := rfl
  readsNull := iff_of_false (fun ⟨_, h⟩ => nomatch h) nofun
  writesNull := nofun

/-- NULL can be allowed where there is none yet, if the column is no key, -/
theorem optional (h : f.IsCoherent) (hplain : f.IsPlain) : f.optional.IsCoherent where
  keyNotNull hkey := absurd hkey (Bool.eq_false_iff.mp hplain.notKey)
  numberedKey := h.numberedKey
  flag := h.flag
  readsNull := iff_of_true ⟨none, rfl⟩ rfl
  writesNull _ _ := .inl rfl

/-- a column without NULL can be made a key, -/
theorem primaryKey (h : f.IsCoherent) (hplain : f.IsPlain) : f.primaryKey.IsCoherent where
  keyNotNull _ := hplain.notNull
  numberedKey hauto := ⟨rfl, (h.numberedKey hauto).2⟩
  flag := h.flag
  readsNull := h.readsNull
  writesNull := h.writesNull

/-- and the database can number it if it has whole numbers. -/
theorem numbered (h : f.IsCoherent) (hplain : f.IsPlain)
    (hintegral : f.columnType.kind.isIntegral = true) : f.numbered.IsCoherent where
  keyNotNull _ := hplain.notNull
  numberedKey _ := ⟨rfl, hintegral⟩
  flag := rfl
  readsNull := by
    refine Iff.trans ⟨?_, ?_⟩ h.readsNull
    · rintro ⟨a, ha⟩
      cases hnull : f.fromCell none with
      | ok b => exact ⟨b, rfl⟩
      | error e =>
        simp only [Field.numbered, hnull] at ha
        cases ha
    · rintro ⟨a, ha⟩
      refine ⟨some a, ?_⟩
      simp only [Field.numbered, ha]
      rfl
  writesNull _ _ := .inr rfl

/-- Whether values are shared by rows or refer to others has nothing to do with NULL. -/
theorem unique (h : f.IsCoherent) : f.unique.IsCoherent := ⟨h.1, h.2, h.3, h.4, h.5⟩

theorem references (h : f.IsCoherent) (r : Reference) : (f.references r).IsCoherent :=
  ⟨h.1, h.2, h.3, h.4, h.5⟩

end IsCoherent

end Field

/-! ### Field types -/

namespace FieldType

/-- The types that are marked to be without NULL are plain. -/
theorem isPlain_of_notNull : ∀ {t : FieldType}, t.notNull = true → t.field.IsPlain
  | .bool, _ | .int _, _ | .float32, _ | .float, _ | .text, _ | .varchar _, _ | .date, _
  | .timestamp, _ | .instant, _ | .document, _ => ⟨rfl, rfl⟩
  | .unique t, h | .references t _, h | .shared t, h =>
    have hplain := isPlain_of_notNull (t := t) h
    ⟨hplain.notNull, hplain.notKey⟩

/-- However wrappers are nested, the field of an admissible type is coherent. -/
theorem isCoherent : ∀ {t : FieldType}, t.Admissible → t.field.IsCoherent
  | .bool, _ | .int _, _ | .float32, _ | .float, _ | .text, _ | .varchar _, _ | .date, _
  | .timestamp, _ | .instant, _ | .document, _ => .ofText _ _ _
  | .optional _, hadm =>
    have ⟨hnotNull, hadm⟩ := Bool.and_eq_true_iff.mp hadm
    (isCoherent hadm).optional (isPlain_of_notNull hnotNull)
  | .primaryKey _, hadm =>
    have ⟨hnotNull, hadm⟩ := Bool.and_eq_true_iff.mp hadm
    (isCoherent hadm).primaryKey (isPlain_of_notNull hnotNull)
  | .numbered (.int w), _ => .numbered (.ofText _ _ _) ⟨rfl, rfl⟩ w.isIntegral_kind
  | .unique t, hadm => (isCoherent (t := t) hadm).unique
  | .references t r, hadm => (isCoherent (t := t) hadm).references r
  | .shared t, hadm => isCoherent (t := t) hadm

/-- No step in the building of a column is refused if the type is admissible. -/
theorem buildColumnType_eq : ∀ {t : FieldType}, t.Admissible →
    t.buildColumnType = .ok t.field.columnType
  | .bool, _ | .int _, _ | .float32, _ | .float, _ | .text, _ | .varchar _, _ | .date, _
  | .timestamp, _ | .instant, _ | .document, _ => rfl
  | .optional t, hadm => by
    rw [buildColumnType, buildColumnType_eq (Bool.and_eq_true_iff.mp hadm).2]
    rfl
  | .primaryKey t, hadm => by
    obtain ⟨hnotNull, hadm⟩ := Bool.and_eq_true_iff.mp hadm
    have hnull : ¬t.field.columnType.properties.nullable = true :=
      Bool.eq_false_iff.mp (isPlain_of_notNull hnotNull).notNull
    rw [buildColumnType, buildColumnType_eq hadm]
    exact if_neg hnull
  | .numbered (.int w), _ => if_pos w.isIntegral_kind
  | .unique t, hadm | .references t _, hadm => by
    rw [buildColumnType, buildColumnType_eq (t := t) hadm]
    rfl
  | .shared t, hadm => buildColumnType_eq (t := t) hadm

/-- **The column of every admissible type is coherent**: it can be built without a step being
refused, and what it says about keys, numbering and NULL is how the values of the type are read and
written, whatever wrappers the type is made with and in whatever order. -/
theorem column_coherent {t : FieldType} (hadm : t.Admissible) :
    t.buildColumnType = .ok t.field.columnType ∧ t.field.IsCoherent :=
  ⟨buildColumnType_eq hadm, isCoherent hadm⟩

/-- A column of unique numbers that the database gives, which refer to another table. -/
theorem column_coherent_numbered :
    let t : FieldType := .references (.unique (.shared (.numbered (.int .uint32)))) ⟨"t", "c"⟩
    t.Admissible ∧ (t.buildColumnType = .ok t.field.columnType ∧ t.field.IsCoherent) ∧
      t.field.columnType = ⟨.uint32, ⟨false, true, true, true, some ⟨"t", "c"⟩⟩⟩ := by
  intro t
  have hadm : t.Admissible := by decide
  exact ⟨hadm, column_coherent hadm, rfl⟩

/-- A key that may be NULL is not admissible, and is refused. -/
example : ¬(primaryKey (.unique (.optional .text))).Admissible ∧
    (primaryKey (.unique (.optional .text))).buildColumnType = .error .nullablePrimary :=
  ⟨by decide, rfl⟩

end FieldType

end SqlRecords
