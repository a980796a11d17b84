import SqlRecords.Proofs.Engine.FilteredRead
import SqlRecords.Proofs.Record.Values

/-!
# The table of some records

The table of a record type has the type's columns, and its keys follow from what the columns
promise. If the database numbers a column, this column is the row id. A primary key that is
one column of integers is the row id too; any other primary key, and each unique column, is
a key of its own.

`Schema.HasTable` says what has to be so for a table to be made at all, and `IsTableOf` what
it is like then.

## What is proved

* `TableRule.ofStatement_ok`: what it takes to make a table, and what its keys are.
* `TableRule.IsTableOf.of_made`: the table of a record type, if it was made.
* **`Schema.HasTable.isTableOf`**: the table of a record type that has one.
-/

namespace SqlRecords

open Sqlite

namespace Schema

variable {s : Schema}

/-! ### Columns with rules of their own -/

/-- What the column at a place promises. -/
def properties (s : Schema) (i : Fin s.fields.length) : Properties :=
  (s.fields.get i).field.columnType.properties

/-- The affinity of the column at a place. -/
def affinity (s : Schema) (i : Fin s.fields.length) : Affinity :=
  TableRule.affinityOf (s.fields.get i).field.columnType.kind

/-- The database numbers the column at a place. -/
def IsNumbered (s : Schema) (i : Fin s.fields.length) : Prop :=
  (s.properties i).autoIncrement = true

/-- The column at a place is part of the primary key that records bring. -/
def IsKey (s : Schema) (i : Fin s.fields.length) : Prop :=
  (s.properties i).primary = true ∧ ¬s.IsNumbered i

/-- No two records have the same value at a place, unless it is NULL. -/
def IsUnique (s : Schema) (i : Fin s.fields.length) : Prop :=
  (s.properties i).unique = true ∧ ¬s.IsNumbered i

instance (s : Schema) (i : Fin s.fields.length) : Decidable (s.IsNumbered i) :=
  inferInstanceAs (Decidable (_ = true))

instance (s : Schema) (i : Fin s.fields.length) : Decidable (s.IsKey i) :=
  inferInstanceAs (Decidable (_ ∧ _))

instance (s : Schema) (i : Fin s.fields.length) : Decidable (s.IsUnique i) :=
  inferInstanceAs (Decidable (_ ∧ _))

/-- There can be a table for the records, on its own. -/
structure HasTable (s : Schema) : Prop where
  /-- No two columns have the same name. -/
  distinct : (s.fields.map (·.name)).Pairwise fun a b => sameName b a = false
  /-- The database numbers exactly the columns that say so. -/
  numbers : s.NumbersColumns
  /-- Some values are sent. -/
  sends : s.insertable ≠ []
  /-- A column that the database numbers is the only one, and the whole primary key. -/
  oneKey : ∀ i j, s.IsNumbered i → s.IsNumbered j ∨ s.IsKey j → j = i
  /-- There is no NULL in the primary key. -/
  keyNotNull : ∀ i, s.IsKey i → (s.properties i).nullable = false
  /-- No column refers to another table. -/
  noReference : ∀ i, (s.properties i).foreignKey = none
  /-- The numbers that the database gives are read, each as itself. -/
  readsNumbers : ∀ i, s.IsNumbered i → ∀ n : Int64,
    ∃ a, (s.fields.get i).field.fromCell (some (toString n.toInt)) = .ok a ∧
      (s.fields.get i).field.toCell a = some (toString n.toInt)

theorem getElem?_columns (i : Fin s.fields.length) :
    s.columns[i.val]? = some (s.fields.get i).column := by
  simp [columns]

end Schema

namespace Sqlite.TableRule

variable {s : Schema}

/-! ### The table of some records -/

/-- Names that are all different have no duplicate. -/
theorem duplicate?_of_pairwise : ∀ {seen names : List String},
    (∀ n ∈ names, ∀ m ∈ seen, sameName n m = false) →
      (names.Pairwise fun a b => sameName b a = false) → duplicate? seen names = none
  | _, [], _, _ => rfl
  | seen, n :: rest, hseen, hnames => by
    have hnew : seen.any (sameName n) = false :=
      List.any_eq_false.mpr fun m hm => by simp [hseen n List.mem_cons_self m hm]
    obtain ⟨hn, hrest⟩ := List.pairwise_cons.mp hnames
    rw [duplicate?, hnew]
    refine duplicate?_of_pairwise (fun k hk m hm => ?_) hrest
    rcases List.mem_cons.mp hm with rfl | hm
    · exact hn k hk
    · exact hseen k (List.mem_cons_of_mem n hk) m hm

theorem mem_places {has : Column → Bool} {k : Nat} :
    k ∈ places s.columns has ↔ ∃ i : Fin s.fields.length, i.val = k ∧
      has (s.fields.get i).column = true := by
  simp only [places, List.mem_filter, List.mem_range, Schema.columns, List.length_map]
  constructor
  · rintro ⟨hk, hhas⟩
    exact ⟨⟨k, hk⟩, rfl, by simpa [hk] using hhas⟩
  · rintro ⟨i, rfl, hhas⟩
    exact ⟨i.2, by simpa using hhas⟩

theorem nodup_places (columns : List Column) (has : Column → Bool) : (places columns has).Nodup :=
  List.nodup_range.filter _

/-- The places of the columns that the database numbers. -/
def numberedPlaces (columns : List Column) : List Nat :=
  places columns (·.type.properties.autoIncrement)

/-- The places of the primary key. -/
def keyPlaces (columns : List Column) : List Nat :=
  places columns fun c => c.type.properties.primary && !c.type.properties.autoIncrement

/-- The places of the unique columns. -/
def uniquePlaces (columns : List Column) : List Nat :=
  places columns fun c => c.type.properties.unique && !c.type.properties.autoIncrement

theorem mem_numberedPlaces {k : Nat} :
    k ∈ numberedPlaces s.columns ↔ ∃ i : Fin s.fields.length, i.val = k ∧ s.IsNumbered i :=
  mem_places

/-- The places of the columns with a property that the database does not number. -/
theorem mem_places_given (has : Properties → Bool) {k : Nat} :
    k ∈ places s.columns (fun c => has c.type.properties && !c.type.properties.autoIncrement) ↔
      ∃ i : Fin s.fields.length, i.val = k ∧ has (s.properties i) = true ∧ ¬s.IsNumbered i := by
  refine mem_places.trans (exists_congr fun i => and_congr_right fun _ => ?_)
  rw [Bool.and_eq_true, Bool.not_eq_true']
  exact and_congr_right fun _ => Bool.eq_false_iff

theorem mem_keyPlaces {k : Nat} :
    k ∈ keyPlaces s.columns ↔ ∃ i : Fin s.fields.length, i.val = k ∧ s.IsKey i :=
  mem_places_given (·.primary)

theorem mem_uniquePlaces {k : Nat} :
    k ∈ uniquePlaces s.columns ↔ ∃ i : Fin s.fields.length, i.val = k ∧ s.IsUnique i :=
  mem_places_given (·.unique)

/-- What there has to be for a table to be made, and what its keys are then. -/
theorem ofStatement_ok {c : CreateTable} {columns : List Column} (hc : c.columns = columns)
    (hnames : duplicate? [] (columns.map (·.name)) = none)
    (hkeys : (numberedPlaces columns).length + min 1 (keyPlaces columns).length ≤ 1) :
    ∃ t, ofStatement c = .ok t ∧
      t.columns = (columns.map fun c => ⟨c.name, affinityOf c.type.kind,
        !c.type.properties.nullable && !c.type.properties.autoIncrement⟩) ∧
      t.rowId = (match numberedPlaces columns, keyPlaces columns with
        | [i], _ => some i
        | _, [i] =>
          if columns[i]?.any fun c => affinityOf c.type.kind == .integer then some i else none
        | _, _ => none) ∧
      t.uniques = ((uniquePlaces columns).map ([·]) ++
        if (keyPlaces columns).isEmpty || t.rowId.isSome then []
        else [keyPlaces columns]).eraseDups.reverse ∧
      t.foreignKeys = (List.range columns.length).filterMap fun i =>
        (columns[i]?.bind (·.type.properties.foreignKey)).map (⟨i, ·⟩) := by
  subst hc
  have hone : ¬1 < (numberedPlaces c.columns).length + min 1 (keyPlaces c.columns).length := by
    omega
  unfold numberedPlaces keyPlaces at hone
  rw [ofStatement]
  simp only [hnames]
  rw [if_neg hone]
  exact ⟨_, rfl, rfl, rfl, rfl, rfl⟩

/-- If a table is made, the names are different and there is one primary key at most. -/
theorem ofStatement_needs {c : CreateTable} {t : TableRule} (h : ofStatement c = .ok t) :
    duplicate? [] (c.columns.map (·.name)) = none ∧
      (numberedPlaces c.columns).length + min 1 (keyPlaces c.columns).length ≤ 1 := by
  rw [ofStatement] at h
  simp only at h
  split at h
  · cases h
  · next hnames =>
    split at h
    · cases h
    · next hkeys => exact ⟨hnames, Nat.not_lt.mp hkeys⟩

theorem numberedPlaces_eq_nil (h : ∀ i, ¬s.IsNumbered i) : numberedPlaces s.columns = [] :=
  List.eq_nil_iff_forall_not_mem.mpr fun _ hk => by
    obtain ⟨i, -, hi⟩ := mem_numberedPlaces.mp hk
    exact h i hi

/-- What the table of some records is like. -/
structure IsTableOf (s : Schema) (t : TableRule) : Prop where
  /-- It can be made. -/
  made : ofStatement (s.createTable true) = .ok t
  /-- Its columns are those of the records. -/
  columns : t.columns = s.columns.map fun c => ⟨c.name, affinityOf c.type.kind,
    !c.type.properties.nullable && !c.type.properties.autoIncrement⟩
  /-- A column that the database numbers is the row id. -/
  numbered : ∀ i, s.IsNumbered i → t.rowId = some i.val
  /-- A row id is such a column, or the only column of the primary key and one of integers. -/
  rowId : ∀ k, t.rowId = some k → ∃ i : Fin s.fields.length, i.val = k ∧
    (s.IsNumbered i ∨ s.IsKey i ∧ (∀ j, s.IsKey j → j = i) ∧ s.affinity i = .integer)
  /-- Rows differ in unique columns and in the primary key. -/
  uniques : ∀ is ∈ t.uniques, (∃ i, s.IsUnique i ∧ is = [i.val]) ∨
    (∃ i, s.IsKey i) ∧ ∀ i, s.IsKey i → i.val ∈ is
  /-- There are no ties to other tables. -/
  foreignKeys : t.foreignKeys = []

/-- A list of one value at most. -/
theorem eq_nil_or_singleton {α : Type} {l : List α} (hnodup : l.Nodup)
    (h : ∀ a ∈ l, ∀ b ∈ l, a = b) : l = [] ∨ ∃ a, l = [a] := by
  match l with
  | [] => exact .inl rfl
  | [a] => exact .inr ⟨a, rfl⟩
  | a :: b :: rest =>
    have hne : a ≠ b := List.rel_of_pairwise_cons hnodup List.mem_cons_self
    exact absurd (h a List.mem_cons_self b (by simp)) hne

namespace IsTableOf

variable {t : TableRule}

/-- A table that is made for some records is what it has to be, unless it has ties to others. -/
theorem of_made (hforeign : ∀ i, (s.properties i).foreignKey = none)
    (hmade : ofStatement (s.createTable true) = .ok t) : IsTableOf s t := by
  obtain ⟨hnames, hkeys⟩ := ofStatement_needs hmade
  obtain ⟨t', hmade', hcolumns, hrowId, huniques, hties⟩ :=
    ofStatement_ok (show (s.createTable true).columns = s.columns from rfl) hnames hkeys
  obtain rfl : t = t' := Except.ok.inj (hmade.symm.trans hmade')
  -- A column that the database numbers is the only one, and there is no other primary key.
  have halone : ∀ {i : Fin s.fields.length}, s.IsNumbered i →
      numberedPlaces s.columns = [i.val] := by
    intro i hi
    have hmem : i.val ∈ numberedPlaces s.columns := mem_numberedPlaces.mpr ⟨i, rfl, hi⟩
    have hpos := List.length_pos_of_mem hmem
    have hone : (numberedPlaces s.columns).length = 1 := by
      change (numberedPlaces s.columns).length + _ ≤ 1 at hkeys
      omega
    obtain ⟨k, hk⟩ := List.length_eq_one_iff.mp hone
    rw [hk] at hmem ⊢
    rw [List.mem_singleton.mp hmem]
  refine ⟨hmade, hcolumns, fun i hi => by rw [hrowId, halone hi], fun k hk => ?_,
    fun is his => ?_, ?_⟩
  · by_cases hnumbered : ∃ i, s.IsNumbered i
    · obtain ⟨i, hi⟩ := hnumbered
      rw [hrowId, halone hi] at hk
      exact ⟨i, Option.some.inj hk, .inl hi⟩
    · rw [hrowId, numberedPlaces_eq_nil (not_exists.mp hnumbered)] at hk
      split at hk
      · next heq => cases heq
      · next hkey _ =>
        split at hk
        · next hinteger =>
          cases hk
          obtain ⟨i, rfl, hi⟩ := mem_keyPlaces.mp (hkey ▸ List.mem_singleton_self k)
          refine ⟨i, rfl, .inr ⟨hi, fun j hj => ?_, ?_⟩⟩
          · have hmem := mem_keyPlaces.mpr ⟨j, rfl, hj⟩
            rw [hkey, List.mem_singleton] at hmem
            exact Fin.ext hmem
          · rw [Schema.getElem?_columns] at hinteger
            exact eq_of_beq hinteger
        · cases hk
      · cases hk
  · rw [huniques, List.mem_reverse, List.mem_eraseDups, List.mem_append] at his
    rcases his with his | his
    · obtain ⟨k, hk, rfl⟩ := List.mem_map.mp his
      obtain ⟨i, rfl, hi⟩ := mem_uniquePlaces.mp hk
      exact .inl ⟨i, hi, rfl⟩
    · split at his
      · cases his
      · next hkey =>
        rw [List.mem_singleton] at his
        subst his
        refine .inr ⟨?_, fun i hi => mem_keyPlaces.mpr ⟨i, rfl, hi⟩⟩
        obtain ⟨k, hk⟩ := List.exists_mem_of_ne_nil _ (by simp at hkey; exact hkey.1)
        obtain ⟨i, -, hi⟩ := mem_keyPlaces.mp hk
        exact ⟨i, hi⟩
  · rw [hties]
    refine List.filterMap_eq_nil_iff.mpr fun k hk => ?_
    have hk : k < s.fields.length := by simpa [Schema.columns] using hk
    have hcolumn : s.columns[k]? = some (s.fields.get ⟨k, hk⟩).column :=
      Schema.getElem?_columns ⟨k, hk⟩
    have hnone : (s.fields.get ⟨k, hk⟩).column.type.properties.foreignKey = none :=
      hforeign ⟨k, hk⟩
    rw [hcolumn, Option.bind_some, hnone, Option.map_none]

/-- If the database numbers a column, there is no other primary key. -/
theorem not_isKey_of_numbered (h : IsTableOf s t) {i j : Fin s.fields.length}
    (hi : s.IsNumbered i) : ¬s.IsKey j := by
  intro hj
  obtain ⟨-, hkeys⟩ := ofStatement_needs h.made
  change (numberedPlaces s.columns).length + min 1 (keyPlaces s.columns).length ≤ 1 at hkeys
  have hnumbered := List.length_pos_of_mem (mem_numberedPlaces.mpr ⟨i, rfl, hi⟩)
  have hkey := List.length_pos_of_mem (mem_keyPlaces.mpr ⟨j, rfl, hj⟩)
  omega

/-- The keys next to the row id: one for each unique column, and the primary key unless it is the
row id. -/
theorem mem_uniques_iff (h : IsTableOf s t) {is : List Nat} :
    is ∈ t.uniques ↔ (∃ i, s.IsUnique i ∧ is = [i.val]) ∨
      is = keyPlaces s.columns ∧ (∃ i, s.IsKey i) ∧ t.rowId = none := by
  obtain ⟨hnames, hkeys⟩ := ofStatement_needs h.made
  obtain ⟨t', hmade, -, -, huniques, -⟩ :=
    ofStatement_ok (show (s.createTable true).columns = s.columns from rfl) hnames hkeys
  obtain rfl : t = t' := Except.ok.inj (h.made.symm.trans hmade)
  have hkey : (keyPlaces s.columns).isEmpty = false ↔ ∃ i, s.IsKey i := by
    rw [List.isEmpty_eq_false_iff_exists_mem]
    constructor
    · rintro ⟨k, hk⟩
      obtain ⟨i, -, hi⟩ := mem_keyPlaces.mp hk
      exact ⟨i, hi⟩
    · rintro ⟨i, hi⟩
      exact ⟨i.val, mem_keyPlaces.mpr ⟨i, rfl, hi⟩⟩
  rw [huniques, List.mem_reverse, List.mem_eraseDups, List.mem_append, List.mem_map]
  refine or_congr ⟨?_, ?_⟩ ?_
  · rintro ⟨k, hk, rfl⟩
    obtain ⟨i, rfl, hi⟩ := mem_uniquePlaces.mp hk
    exact ⟨i, hi, rfl⟩
  · rintro ⟨i, hi, rfl⟩
    exact ⟨i.val, mem_uniquePlaces.mpr ⟨i, rfl, hi⟩, rfl⟩
  · rw [← hkey]
    cases (keyPlaces s.columns).isEmpty <;> cases t.rowId <;> simp

end IsTableOf

end Sqlite.TableRule

namespace Schema.HasTable

open TableRule

variable {s : Schema}

/-- If the database numbers a column, there is no other primary key. -/
theorem places_of_numbered (h : s.HasTable) {i : Fin s.fields.length} (hi : s.IsNumbered i) :
    numberedPlaces s.columns = [i.val] ∧ keyPlaces s.columns = [] := by
  have hmem : i.val ∈ numberedPlaces s.columns := mem_numberedPlaces.mpr ⟨i, rfl, hi⟩
  refine ⟨?_, List.eq_nil_iff_forall_not_mem.mpr fun k hk => ?_⟩
  · obtain hnone | ⟨k, hone⟩ := eq_nil_or_singleton (nodup_places s.columns _) fun a ha b hb => by
      obtain ⟨j, rfl, hj⟩ := mem_numberedPlaces.mp ha
      obtain ⟨k, rfl, hk⟩ := mem_numberedPlaces.mp hb
      rw [h.oneKey j k hj (.inl hk)]
    · rw [numberedPlaces, hnone] at hmem
      cases hmem
    · rw [numberedPlaces, hone] at hmem ⊢
      rw [List.mem_singleton.mp hmem]
  · obtain ⟨j, rfl, hj⟩ := mem_keyPlaces.mp hk
    exact hj.2 (h.oneKey i j hi (.inr hj) ▸ hi)

theorem fields_ne_nil (h : s.HasTable) : s.fields ≠ [] := fun hnil =>
  h.sends (by simp [insertable, columns, hnil])

/-- The table of some records can be made. -/
theorem isTableOf (h : s.HasTable) : ∃ t, IsTableOf s t := by
  have hnames : duplicate? [] (s.columns.map (·.name)) = none := by
    have hcolumns : s.columns.map (·.name) = s.fields.map (·.name) := by
      simp [Schema.columns, NamedField.column, Column.define]
    rw [hcolumns]
    exact duplicate?_of_pairwise (by simp) h.distinct
  have hkeys : (numberedPlaces s.columns).length + min 1 (keyPlaces s.columns).length ≤ 1 := by
    by_cases hnumbered : ∃ i, s.IsNumbered i
    · obtain ⟨i, hi⟩ := hnumbered
      simp [h.places_of_numbered hi]
    · rw [numberedPlaces_eq_nil (not_exists.mp hnumbered), List.length_nil]
      omega
  obtain ⟨t, hmade, -⟩ :=
    ofStatement_ok (show (s.createTable true).columns = s.columns from rfl) hnames hkeys
  exact ⟨t, .of_made h.noReference hmade⟩

end Schema.HasTable

end SqlRecords
