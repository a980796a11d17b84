import SqlRecords.Proofs.Sqlite.Inserting
import SqlRecords.Proofs.Sqlite.Keeping
import SqlRecords.Proofs.Sqlite.RecordTable

/-!
# Records as rows of their table

A record is sent as cells, kept as a row of its table and read back from there. Nothing gets
lost on the way if its columns keep its values (`Schema.Kept`). A column that the database
numbers is sent nothing and has the row id.

Records are accepted one after the other if no two of them share a key (`Schema.Apart`): keys
are compared by what the columns keep of the values, and different values are kept as
different ones.

## What is proved

* `IsTableOf.keeps_of_holds`: the row of a record has what the columns keep of its values.
* `IsTableOf.accepts`, `IsTableOf.apart`: there is nothing wrong with the row of a record, and
  records that share no key have rows that share none.
* **`IsTableOf.ofStored`**: a record is read back from its row.
* **`IsTableOf.insertRow_has`**: a table takes one record more.
-/

namespace SqlRecords

open Sqlite

/-! ### The values of a record -/

namespace Schema

variable {s : Schema}

/-- The cell of the value of a record at a place. -/
def cell (s : Schema) (record : s.Record) (i : Fin s.fields.length) : Cell :=
  (s.fields.get i).field.toCell (s.value record i)

theorem getElem?_cells (record : s.Record) (i : Fin s.fields.length) :
    (s.cells record)[i.val]? = some (s.cell record i) :=
  Values.getElem?_cells s.fields record i

/-- The columns of a record keep its values, but for those that the database gives. -/
structure Kept (s : Schema) (record : s.Record) : Prop where
  /-- Each column keeps the cell of its value. -/
  keeps : ∀ i, ¬s.IsNumbered i → ∃ v, Stored.Keeps (s.affinity i) (s.cell record i) v
  /-- There is no NULL where there may be none. -/
  notNull : ∀ i, ¬s.IsNumbered i → (s.properties i).nullable = false → s.cell record i ≠ none
  /-- The value is read from its cell. -/
  reads : ∀ i, ¬s.IsNumbered i →
    (s.fields.get i).field.fromCell (s.cell record i) = .ok (s.value record i)

/-- Values with the same cell are the same. -/
theorem Kept.value_eq {a b : s.Record} (ha : s.Kept a) (hb : s.Kept b) {i : Fin s.fields.length}
    (hi : ¬s.IsNumbered i) (h : s.cell a i = s.cell b i) : s.value a i = s.value b i := by
  have hread := ha.reads i hi
  rw [h, hb.reads i hi] at hread
  exact (Except.ok.inj hread).symm

/-- Two records share no key. -/
structure Apart (s : Schema) (a b : s.Record) : Prop where
  /-- Their primary keys are different, if they have one. -/
  key : (∃ i, s.IsKey i) → ∃ i, s.IsKey i ∧ s.value a i ≠ s.value b i
  /-- A unique value that they have both is NULL. -/
  unique : ∀ i, s.IsUnique i → s.value a i = s.value b i → s.cell a i = none

/-- Two records have the same values, but for those that the database gives. -/
def SameGiven (s : Schema) (a b : s.Record) : Prop :=
  ∀ i, ¬s.IsNumbered i → s.value a i = s.value b i

/-- There is one record for each of some others, with the same values but for those that the
database gives. -/
def SameRecords (s : Schema) (records back : List s.Record) : Prop :=
  ∃ arranged, List.Forall₂ s.SameGiven records arranged ∧ arranged.Perm back

end Schema

namespace Sqlite.Stored

theorem toCells_ok : ∀ (n : Nat) {values : List Stored},
    (∀ v ∈ values, ∃ cell, v.toCell = .ok cell) →
      ∃ cells, toCells n values = .ok cells ∧
        List.Forall₂ (fun v cell => toCell v = .ok cell) values cells
  | _, [], _ => ⟨[], rfl, .nil⟩
  | n, v :: values, h => by
    obtain ⟨cell, hcell⟩ := h v List.mem_cons_self
    obtain ⟨cells, hcells, hrest⟩ := toCells_ok (n + 1) fun w hw => h w (List.mem_cons_of_mem v hw)
    refine ⟨cell :: cells, ?_, .cons hcell hrest⟩
    rw [toCells, hcell]
    simp only [hcells]
    rfl

/-- The first values of a row become cells, each in its place. -/
theorem toRow_range (row : StoredRow) {n : Nat}
    (h : ∀ k < n, ∃ cell, (row.value k).toCell = .ok cell) :
    ∃ cells, toRow ((List.range n).map row.value) = .ok cells ∧ cells.length = n ∧
      ∀ k < n, ∀ {cell}, (row.value k).toCell = .ok cell → cells[k]? = some cell := by
  have hvalues : ∀ v ∈ (List.range n).map row.value, ∃ cell, v.toCell = .ok cell := by
    intro v hv
    obtain ⟨k, hk, rfl⟩ := List.mem_map.mp hv
    exact h k (List.mem_range.mp hk)
  obtain ⟨cells, hcells, hall⟩ := toCells_ok 0 hvalues
  have hlength : cells.length = n := by simpa using hall.length_eq.symm
  refine ⟨cells, hcells, hlength, fun k hk cell hcell => ?_⟩
  have hk' : k < cells.length := hlength.symm ▸ hk
  have hplace := (List.forall₂_iff_get.mp hall).2 k (by simpa using hk) hk'
  simp only [List.get_eq_getElem, List.getElem_map, List.getElem_range, hcell] at hplace
  rw [List.getElem?_eq_getElem hk', Except.ok.inj hplace]

end Sqlite.Stored

namespace Sqlite.TableRule.IsTableOf

variable {s : Schema} {t : TableRule}

theorem find?_name (h : IsTableOf s t) (i : Fin s.fields.length) :
    t.find? (s.fields.get i).name = some i.val := by
  have hi : i.val < s.columns.length := by simp [Schema.columns]
  have hname : s.columns[i.val].name = (s.fields.get i).name := by
    simp [Schema.columns, NamedField.column, Column.define]
  rw [← hname]
  exact find?_own h.made hi

/-- Columns are looked up in their places. -/
theorem lookUp_places (h : IsTableOf s t) (table : String) :
    ∀ places : List (Fin s.fields.length),
      Insertion.lookUp t table (places.map fun i => (s.fields.get i).column) =
        .ok (places.map (·.val))
  | [] => rfl
  | i :: rest => by
    have hplace : t.find? (s.fields.get i).column.name = some i.val := h.find?_name i
    rw [List.map_cons, Insertion.lookUp, hplace]
    simp only [h.lookUp_places table rest]
    rfl

theorem mapM_places (h : IsTableOf s t) : ∀ places : List (Fin s.fields.length),
    (places.map fun i => (s.fields.get i).column).mapM (fun c => t.find? c.name) =
      some (places.map (·.val))
  | [] => rfl
  | i :: rest => by
    have hplace : t.find? (s.fields.get i).column.name = some i.val := h.find?_name i
    rw [List.map_cons, List.mapM_cons, hplace, h.mapM_places rest]
    rfl

/-- A column of the records at a place. -/
theorem getElem_zip {record : s.Record} {k : Nat}
    (hk : k < (s.columns.zip (s.cells record)).length) :
    ∃ i : Fin s.fields.length, i.val = k ∧
      (s.columns.zip (s.cells record))[k] = ((s.fields.get i).column, s.cell record i) := by
  have hlength : k < s.fields.length := by
    simpa [Schema.columns, Schema.cells] using hk
  refine ⟨⟨k, hlength⟩, rfl, Option.some.inj ?_⟩
  rw [← List.getElem?_eq_getElem hk, List.getElem?_zip_eq_some.mpr]
  exact ⟨s.getElem?_columns ⟨k, hlength⟩, s.getElem?_cells record ⟨k, hlength⟩⟩

/-- A value that is sent is given to its column. -/
theorem given_sent (h : IsTableOf s t) (hnumbers : s.NumbersColumns) (record : s.Record)
    {i : Fin s.fields.length} (hi : ¬s.IsNumbered i) :
    t.given s.insertable (s.toRow record) i = .ofCell (s.cell record i) := by
  have hlength : i.val < (s.columns.zip (s.cells record)).length := by
    simp [Schema.columns, Schema.cells]
  have hfound : (s.sent record).find? (fun p => t.find? p.1.name == some i.val) =
      some ((s.fields.get i).column, s.cell record i) := by
    rw [Schema.sent, List.find?_filter, List.find?_eq_some_iff_getElem]
    have hname : t.find? (s.fields.get i).column.name = some i.val := h.find?_name i
    have hplain : (s.fields.get i).column.type.properties.autoIncrement = false :=
      Bool.eq_false_iff.mpr hi
    refine ⟨by rw [hname, hplain]; simp, i.val, hlength, ?_, fun k hk => ?_⟩
    · obtain ⟨j, hj, hpair⟩ := getElem_zip hlength
      rw [hpair, Fin.ext hj]
    · obtain ⟨j, rfl, hpair⟩ := getElem_zip (Nat.lt_trans hk hlength)
      have hother : t.find? (s.fields.get j).column.name = some j.val := h.find?_name j
      rw [hpair, hother]
      simp [Nat.ne_of_lt hk]
  rw [given, s.insertable_zip_toRow hnumbers, hfound]

/-- A column that the database numbers is given nothing. -/
theorem given_numbered (h : IsTableOf s t) (hnumbers : s.NumbersColumns) (record : s.Record)
    {i : Fin s.fields.length} (hi : s.IsNumbered i) :
    t.given s.insertable (s.toRow record) i = .null := by
  have hnone : (s.sent record).find? (fun p => t.find? p.1.name == some i.val) = none := by
    refine List.find?_eq_none.mpr fun p hp => ?_
    obtain ⟨hmem, hsent⟩ := List.mem_filter.mp hp
    obtain ⟨k, hk, rfl⟩ := List.getElem_of_mem hmem
    obtain ⟨j, rfl, hpair⟩ := getElem_zip hk
    have hname : t.find? (s.fields.get j).column.name = some j.val := h.find?_name j
    rw [hpair] at hsent
    have hj : ¬s.IsNumbered j := Bool.eq_false_iff.mp ((Bool.not_eq_true' _).mp hsent)
    have hne : j.val ≠ i.val := fun hij => hj (Fin.ext hij ▸ hi)
    rw [hpair, hname]
    simp [hne]
  rw [given, s.insertable_zip_toRow hnumbers, hnone]

/-! ### Rows that hold a record -/

theorem length_columns (h : IsTableOf s t) : t.columns.length = s.fields.length := by
  rw [h.columns, List.length_map, Schema.columns, List.length_map]

theorem lt_length (h : IsTableOf s t) (i : Fin s.fields.length) : i.val < t.columns.length := by
  rw [h.length_columns]
  exact i.2

theorem rowId_lt (h : IsTableOf s t) : ∀ k, t.rowId = some k → k < t.columns.length := by
  intro k hk
  obtain ⟨i, rfl, -⟩ := h.rowId k hk
  exact h.lt_length i

theorem getElem?_columns (h : IsTableOf s t) (i : Fin s.fields.length) :
    t.columns[i.val]? = some ⟨(s.fields.get i).name, s.affinity i,
      !(s.properties i).nullable && !(s.properties i).autoIncrement⟩ := by
  rw [h.columns, List.getElem?_map, Schema.getElem?_columns]
  rfl

theorem affinity_eq (h : IsTableOf s t) (i : Fin s.fields.length) :
    t.affinity i = s.affinity i := by
  rw [affinity, h.getElem?_columns]
  rfl

variable {record : s.Record} {row : StoredRow} {i : Fin s.fields.length}

/-- A row id that a record brings is a whole number. -/
theorem idOf_key (h : IsTableOf s t) (hs : s.HasTable) (hrecord : s.Kept record)
    (hkey : s.IsKey i) (hinteger : s.affinity i = .integer) :
    ∃ n : Int64, Stored.Keeps (s.affinity i) (s.cell record i) (.integer n) ∧
      t.given s.insertable (s.toRow record) i ≠ .null ∧
        StoredTable.idOf (t.given s.insertable (s.toRow record) i) = .ok n.toInt := by
  obtain ⟨v, hv⟩ := hrecord.keeps i hkey.2
  obtain ⟨text, htext⟩ :=
    Option.ne_none_iff_exists'.mp (hrecord.notNull i hkey.2 (hs.keyNotNull i hkey))
  rw [h.given_sent hs.numbers record hkey.2]
  rw [hinteger, htext] at hv ⊢
  obtain ⟨n, -, rfl, hid⟩ := hv.idOf
  exact ⟨n, hv, nofun, hid⟩

/-- A row that holds a record keeps its values. -/
theorem keeps_of_holds (h : IsTableOf s t) (hs : s.HasTable) (hrecord : s.Kept record)
    (hrow : t.Holds s.insertable (s.toRow record) row) (hi : ¬s.IsNumbered i) :
    Stored.Keeps (s.affinity i) (s.cell record i) (row.value i) := by
  have hlength := h.lt_length i
  by_cases hid : t.rowId = some i.val
  · obtain ⟨j, hj, hkind⟩ := h.rowId i hid
    obtain rfl := Fin.ext hj
    obtain hnumbered | ⟨hkey, -, hinteger⟩ := hkind
    · exact absurd hnumbered hi
    · obtain ⟨n, hkeeps, hgiven, hn⟩ := h.idOf_key hs hrecord hkey hinteger
      have hrowId : row.id = n.toInt := by
        rw [hrow.id j hlength hid hgiven] at hn
        exact Except.ok.inj hn
      rw [hrow.rowId j hlength hid, hrowId, Int64.ofInt_toInt]
      exact hkeeps
  · obtain ⟨v, hv⟩ := hrecord.keeps i hi
    rw [hrow.value i hlength hid, h.affinity_eq, h.given_sent hs.numbers record hi, hv.apply]
    exact hv

/-- A column that the database numbers has the row id. -/
theorem value_numbered (h : IsTableOf s t) (hrow : t.Holds s.insertable (s.toRow record) row)
    (hi : s.IsNumbered i) : row.value i = .integer (Int64.ofInt row.id) :=
  hrow.rowId i (h.lt_length i) (h.numbered i hi)

/-! ### Records as rows of their table -/

theorem selfNumbered (h : IsTableOf s t) (hs : s.HasTable) (hi : s.IsNumbered i)
    (record : s.Record) : t.SelfNumbered s.insertable (s.toRow record) := fun k hk => by
  rw [h.numbered i hi, Option.some.injEq] at hk
  rw [← hk, h.given_numbered hs.numbers record hi]

/-- Either the database gives all row ids, or all records bring theirs. -/
theorem selfNumbered_or (h : IsTableOf s t) (hs : s.HasTable) :
    (∀ record, t.SelfNumbered s.insertable (s.toRow record)) ∨
      ∀ record, s.Kept record → ¬t.SelfNumbered s.insertable (s.toRow record) := by
  cases hid : t.rowId with
  | none => exact .inl fun _ k hk => by rw [hid] at hk; cases hk
  | some k =>
    obtain ⟨i, rfl, hnumbered | ⟨hkey, -, hinteger⟩⟩ := h.rowId k hid
    · exact .inl (h.selfNumbered hs hnumbered)
    · refine .inr fun record hrecord hself => ?_
      obtain ⟨n, -, hgiven, -⟩ := h.idOf_key hs hrecord hkey hinteger
      exact hgiven (hself i hid)

/-- There is nothing wrong with the row of a record if there is no NULL where there may be none, and
a row id that is brought is a whole number. -/
theorem accepts_of_cells (h : IsTableOf s t) (hnumbers : s.NumbersColumns)
    (hnotNull : ∀ i, ¬s.IsNumbered i → (s.properties i).nullable = false → s.cell record i ≠ none)
    (hid : ∀ i, s.IsKey i → s.affinity i = .integer →
      ∃ id, StoredTable.idOf (.ofCell (s.cell record i)) = .ok id) :
    t.Accepts s.insertable (s.toRow record) where
  notNull k hk hcolumn _ := by
    have hk : k < s.fields.length := h.length_columns ▸ hk
    let i : Fin s.fields.length := ⟨k, hk⟩
    have hcolumn : (!(s.properties i).nullable && !(s.properties i).autoIncrement) = true := by
      rwa [h.getElem?_columns i] at hcolumn
    obtain ⟨hnullable, hplain⟩ := Bool.and_eq_true_iff.mp hcolumn
    have hi : ¬s.IsNumbered i := Bool.eq_false_iff.mp ((Bool.not_eq_true' _).mp hplain)
    obtain ⟨text, htext⟩ := Option.ne_none_iff_exists'.mp
      (hnotNull i hi ((Bool.not_eq_true' _).mp hnullable))
    have hgiven := h.given_sent hnumbers record hi
    rw [hgiven, htext]
    rfl
  id k hrowId hgiven := by
    obtain ⟨i, rfl, hnumbered | ⟨hkey, -, hinteger⟩⟩ := h.rowId k hrowId
    · exact absurd (h.given_numbered hnumbers record hnumbered) hgiven
    · rw [h.given_sent hnumbers record hkey.2]
      exact hid i hkey hinteger

/-- There is nothing wrong with the row of a record whose values are kept. -/
theorem accepts (h : IsTableOf s t) (hs : s.HasTable) (hrecord : s.Kept record) :
    t.Accepts s.insertable (s.toRow record) :=
  h.accepts_of_cells hs.numbers hrecord.notNull fun i hkey hinteger => by
    obtain ⟨n, -, -, hn⟩ := h.idOf_key hs hrecord hkey hinteger
    rw [h.given_sent hs.numbers record hkey.2] at hn
    exact ⟨n.toInt, hn⟩

/-- Records that share no key have rows that share none. -/
theorem apart (h : IsTableOf s t) (hs : s.HasTable) {a b : s.Record} (ha : s.Kept a)
    (hb : s.Kept b) (hab : s.Apart a b) :
    t.Apart s.insertable (s.toRow a) (s.toRow b) := by
  intro row row' hrow hrow'
  refine ⟨fun is his => Bool.eq_false_iff.mpr fun hshared => ?_, fun hself hid => ?_⟩
  · -- A value that the rows share is one that the records share.
    have hvalue : ∀ i : Fin s.fields.length, ¬s.IsNumbered i → i.val ∈ is →
        s.cell b i ≠ none ∧ s.cell b i = s.cell a i := by
      intro i hi hmem
      have hboth := List.all_eq_true.mp hshared i.val hmem
      rw [Bool.and_eq_true, Bool.not_eq_true'] at hboth
      have hkeeps := h.keeps_of_holds hs hb hrow' hi
      refine ⟨fun hnone => ?_, hkeeps.eq_of_same (h.keeps_of_holds hs ha hrow hi) hboth.1 hboth.2⟩
      rw [hkeeps.isNull_iff.mpr hnone] at hboth
      cases hboth.1
    obtain ⟨i, hi, rfl⟩ | ⟨hkey, hall⟩ := h.uniques is his
    · obtain ⟨hsome, hsame⟩ := hvalue i hi.2 (List.mem_singleton_self _)
      have hnone := hab.unique i hi (ha.value_eq hb hi.2 hsame.symm)
      exact hsome (hsame.trans hnone)
    · obtain ⟨i, hi, hne⟩ := hab.key hkey
      obtain ⟨-, hsame⟩ := hvalue i hi.2 (hall i hi)
      exact hne (ha.value_eq hb hi.2 hsame.symm)
  · cases hrowId : t.rowId with
    | none => exact hself fun k hk => by rw [hrowId] at hk; cases hk
    | some k =>
      obtain ⟨i, rfl, hnumbered | ⟨hkey, honly, -⟩⟩ := h.rowId k hrowId
      · exact hself (h.selfNumbered hs hnumbered b)
      · have hlength := h.lt_length i
        have hcell := (h.keeps_of_holds hs ha hrow hkey.2).toCell
        rw [hrow.rowId i hlength hrowId, hid, ← hrow'.rowId i hlength hrowId,
          (h.keeps_of_holds hs hb hrow' hkey.2).toCell] at hcell
        obtain ⟨j, hj, hne⟩ := hab.key ⟨i, hkey⟩
        obtain rfl := honly j hj
        exact hne (ha.value_eq hb hkey.2 (Except.ok.inj hcell).symm)

/-! ### Reading a row back -/

/-- The row that holds a record is read as one that has the same values, but for those that the
database gives. -/
theorem ofStored (h : IsTableOf s t) (hs : s.HasTable) (hrecord : s.Kept record)
    (hrow : t.Holds s.insertable (s.toRow record) row) :
    ∃ back, s.ofStored row = .ok back ∧ s.SameGiven record back ∧
      ∀ i, s.IsNumbered i → s.cell back i = some (toString (Int64.ofInt row.id).toInt) := by
  have hcell : ∀ i : Fin s.fields.length, ∃ cell a, (row.value i).toCell = .ok cell ∧
      (s.fields.get i).field.fromCell cell = .ok a ∧
      (¬s.IsNumbered i → a = s.value record i) ∧
      (s.IsNumbered i → (s.fields.get i).field.toCell a =
        some (toString (Int64.ofInt row.id).toInt)) := by
    intro i
    by_cases hi : s.IsNumbered i
    · obtain ⟨a, hread, hwrite⟩ := hs.readsNumbers i hi (Int64.ofInt row.id)
      refine ⟨_, a, ?_, hread, (absurd hi ·), fun _ => hwrite⟩
      rw [h.value_numbered hrow hi]
      rfl
    · exact ⟨_, _, (h.keeps_of_holds hs hrecord hrow hi).toCell, hrecord.reads i hi, fun _ => rfl,
        (absurd · hi)⟩
  obtain ⟨cells, hcells, hlength, hplaces⟩ := Stored.toRow_range row fun k hk =>
    let ⟨cell, _, h, _⟩ := hcell ⟨k, hk⟩
    ⟨cell, h⟩
  have hplace : ∀ i : Fin s.fields.length, ∃ cell a, cells[i.val]? = some cell ∧
      (s.fields.get i).field.fromCell cell = .ok a := by
    intro i
    obtain ⟨cell, a, hi, hread, -⟩ := hcell i
    exact ⟨cell, a, hplaces i i.2 hi, hread⟩
  obtain ⟨back, hback, hread⟩ := s.fromRow_ok hlength hplace
  have hvalue : ∀ i : Fin s.fields.length, ∀ cell a, (row.value i).toCell = .ok cell →
      (s.fields.get i).field.fromCell cell = .ok a → s.value back i = a := by
    intro i cell a hi ha
    have hsame := hread i cell (hplaces i i.2 hi)
    rw [ha] at hsame
    exact (Except.ok.inj hsame).symm
  refine ⟨back, ?_, fun i hi => ?_, fun i hi => ?_⟩
  · rw [Schema.ofStored, Schema.numColumns, hcells]
    exact hback
  · obtain ⟨cell, a, hi', ha, hsame, -⟩ := hcell i
    rw [hvalue i cell a hi' ha, hsame hi]
  · obtain ⟨cell, a, hi', ha, -, hid⟩ := hcell i
    rw [Schema.cell, hvalue i cell a hi' ha, hid hi]

/-- Where the database numbers no column, it is read as the record itself. -/
theorem ofStored_plain (h : IsTableOf s t) (hs : s.HasTable) (hplain : ∀ i, ¬s.IsNumbered i)
    (hrecord : s.Kept record) (hrow : t.Holds s.insertable (s.toRow record) row) :
    s.ofStored row = .ok record := by
  obtain ⟨back, hback, hsame, -⟩ := h.ofStored hs hrecord hrow
  rwa [Values.ext fun i => hsame i (hplain i)]

end Sqlite.TableRule.IsTableOf

/-! ### Records that are stored together -/

namespace Schema

variable {s : Schema}

/-- Records can be stored together in a new table. -/
structure Storable (s : Schema) (records : List s.Record) : Prop where
  /-- Their columns keep them. -/
  kept : ∀ record ∈ records, s.Kept record
  /-- No two of them share a key. -/
  apart : records.Pairwise s.Apart
  /-- There are row ids for all of them. -/
  room : (records.length : Int) ≤ StoredTable.maxId

theorem Storable.of_append {records more : List s.Record} (h : s.Storable (records ++ more)) :
    s.Storable records where
  kept record hrecord := h.kept record (List.mem_append_left more hrecord)
  apart := (List.pairwise_append.mp h.apart).1
  room := by
    have hroom := h.room
    rw [List.length_append] at hroom
    omega

/-- The database has the table of some records and nothing else, with a row for each of some
records. -/
def Has (s : Schema) (rule : TableRule) (records : List s.Record) (ts : Tables) : Prop :=
  ∃ t, ts = [t] ∧ Loaded rule s.insertable (records.map s.toRow) t

end Schema

namespace Sqlite.TableRule.IsTableOf

variable {s : Schema} {rule : TableRule} {t : StoredTable}

theorem find?_singleton (h : IsTableOf s rule) (ht : t.rule = rule) :
    Tables.find? [t] s.table = some t := by
  have hname : t.rule.name = s.table := by
    rw [ht]
    exact Tables.name_ofStatement h.made
  simp [Tables.find?, hname]

/-- The columns that are sent are there. -/
theorem find?_insertable (h : IsTableOf s rule) :
    ∀ c ∈ s.insertable, (rule.find? c.name).isSome := by
  intro c hc
  obtain ⟨f, hf, rfl⟩ := List.mem_map.mp (List.mem_filter.mp hc).1
  obtain ⟨i, rfl⟩ := List.get_of_mem hf
  have hname : rule.find? (s.fields.get i).column.name = some i.val := h.find?_name i
  rw [hname]
  rfl

/-- A new database makes the table. -/
theorem createTable_empty (h : IsTableOf s rule) (hs : s.HasTable)
    (hreserved : Tables.isReserved s.table = false) :
    Tables.createTable [] (s.createTable true) = .ok [⟨rule, [], 0⟩] := by
  have hnone : Tables.mentioned? [] (s.createTable true).table = none := rfl
  have hschema : (s.createTable true).table.schema = none := rfl
  have hname : (s.createTable true).table.name = s.table := rfl
  have hcolumns : (s.createTable true).columns.isEmpty = false := by
    simpa [Schema.createTable, Schema.columns] using hs.fields_ne_nil
  simp only [Tables.createTable, hnone, hschema, hname, hreserved, hcolumns, h.made]
  rfl

/-- **One record more.** The table takes a record that can be stored with those that it has. -/
theorem insertRow_has (h : IsTableOf s rule) (hs : s.HasTable) {sent : List s.Record}
    {record : s.Record} (hstorable : s.Storable (sent ++ [record])) {ts : Tables}
    (hts : s.Has rule sent ts) :
    ∃ ts', ts.insertRow (SqliteConnection.insertOf s.write) ((s.toRow record).map .ofCell) =
        .ok ts' ∧
      s.Has rule (sent ++ [record]) ts' := by
  obtain ⟨t, rfl, hloaded⟩ := hts
  have hrecord := hstorable.kept record (by simp)
  have hsent : ∀ r ∈ sent, s.Kept r := fun r hr => hstorable.kept r (by simp [hr])
  have hapart : ∀ c ∈ sent.map s.toRow, rule.Apart s.insertable c (s.toRow record) := by
    intro c hc
    obtain ⟨r, hr, rfl⟩ := List.mem_map.mp hc
    have hpair := (List.pairwise_append.mp hstorable.apart).2.2 r hr record (by simp)
    exact h.apart hs (hsent r hr) hrecord hpair
  have hids : (∀ c ∈ sent.map s.toRow ++ [s.toRow record], rule.SelfNumbered s.insertable c) ∨
      ¬rule.SelfNumbered s.insertable (s.toRow record) := by
    refine (h.selfNumbered_or hs).imp (fun hall c hc => ?_) fun hnone => hnone record hrecord
    rw [← List.map_singleton, ← List.map_append] at hc
    obtain ⟨r, -, rfl⟩ := List.mem_map.mp hc
    exact hall r
  have hroom : ((sent.map s.toRow).length : Int) + 1 ≤ StoredTable.maxId := by
    have hroom := hstorable.room
    rw [List.length_append, List.length_singleton] at hroom
    rw [List.length_map]
    omega
  have hforeign : ∀ u ∈ [t], u.rule.foreignKeys = [] := by
    intro u hu
    rw [List.mem_singleton.mp hu, hloaded.sameRule]
    exact h.foreignKeys
  have hfound : Tables.mentioned? [t] (SqliteConnection.insertOf s.write).table = some t :=
    h.find?_singleton hloaded.sameRule
  obtain ⟨t', hinsert, hloaded'⟩ := hloaded.step hfound rfl hs.sends h.find?_insertable hforeign
    h.rowId_lt (h.accepts hs hrecord) hapart hids hroom
  refine ⟨_, hinsert, t', ?_, ?_⟩
  · simp [Tables.put, hloaded.sameRule, hloaded'.sameRule]
  · rw [List.map_append]
    exact hloaded'

end Sqlite.TableRule.IsTableOf

end SqlRecords
