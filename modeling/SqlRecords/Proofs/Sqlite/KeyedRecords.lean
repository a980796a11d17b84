import SqlRecords.Proofs.Sqlite.ConflictTarget
import SqlRecords.Proofs.Sqlite.Sound

/-!
# Records by their primary keys

A table of records with a primary key, of which the database numbers none
(`TableRule.IsKeyedTableOf`), holds one record for each key. A row says which record it
holds.

The database knows the primary key under a name of its own: it is the row id if it is one column of
integers, and a list of columns if not (`IsPrimary`). Either way rows share it exactly if their
records have the same key.

## What is proved

* `IsKeyedTableOf.eq_of_holds`: a row holds one record only.
* `IsKeyedTableOf.isPrimary`: how the database knows the primary key.
* **`IsKeyedTableOf.handles`**: what an INSERT of the records does with a row whose key is there
  already.
-/

namespace SqlRecords

open Sqlite

namespace Schema

variable {s : Schema} {a b c : s.Record}

/-- Two records have the same primary key. -/
def SameKey (s : Schema) (a b : s.Record) : Prop := ∀ i, s.IsKey i → s.value a i = s.value b i

theorem SameKey.refl (a : s.Record) : s.SameKey a a := fun _ _ => rfl

theorem SameKey.symm (h : s.SameKey a b) : s.SameKey b a := fun i hi => (h i hi).symm

theorem SameKey.trans (h : s.SameKey a b) (h' : s.SameKey b c) : s.SameKey a c := fun i hi =>
  (h i hi).trans (h' i hi)

end Schema

namespace Sqlite.TableRule

variable {s : Schema} {rule : TableRule}

/-- The table of records that bring a primary key, and of which the database numbers nothing. -/
structure IsKeyedTableOf (s : Schema) (rule : TableRule) : Prop extends IsTableOf s rule where
  /-- There can be such a table. -/
  hasTable : s.HasTable
  /-- The database numbers no column. -/
  plain : ∀ i, ¬s.IsNumbered i
  /-- There is a primary key. -/
  keyed : ∃ i, s.IsKey i

namespace IsKeyedTableOf

variable {a b : s.Record} {row other : StoredRow} {i : Fin s.fields.length}

/-! ### A row and its record -/

/-- What a row keeps of its record. -/
theorem keeps (h : IsKeyedTableOf s rule) (ha : s.Kept a)
    (hrow : rule.Holds s.insertable (s.toRow a) row) (i : Fin s.fields.length) :
    Stored.Keeps (s.affinity i) (s.cell a i) (row.value i) :=
  h.keeps_of_holds h.hasTable ha hrow (h.plain i)

/-- Records with the same cell have the same value. -/
theorem value_eq (h : IsKeyedTableOf s rule) (ha : s.Kept a) (hb : s.Kept b)
    (hcell : s.cell a i = s.cell b i) : s.value a i = s.value b i :=
  ha.value_eq hb (h.plain i) hcell

/-- A row holds one record only. -/
theorem eq_of_holds (h : IsKeyedTableOf s rule) (ha : s.Kept a) (hb : s.Kept b)
    (hrow : rule.Holds s.insertable (s.toRow a) row)
    (hrow' : rule.Holds s.insertable (s.toRow b) row) : a = b := by
  refine Values.ext fun i => h.value_eq ha hb ?_
  have hcell := (h.keeps ha hrow i).toCell
  rw [(h.keeps hb hrow' i).toCell] at hcell
  exact (Except.ok.inj hcell).symm

/-- A row id that a record brings is what its column keeps. -/
theorem id_of_holds (h : IsKeyedTableOf s rule) (ha : s.Kept a)
    (hrow : rule.Holds s.insertable (s.toRow a) row) (hi : rule.rowId = some i.val) :
    ∃ n : Int64, row.id = n.toInt ∧ row.value i = .integer n := by
  obtain ⟨j, hj, hnumbered | ⟨hkey, -, hinteger⟩⟩ := h.rowId i hi
  · exact absurd hnumbered (h.plain j)
  · obtain rfl := Fin.ext hj
    obtain ⟨n, -, hgiven, hn⟩ := h.idOf_key h.hasTable ha hkey hinteger
    have hid : row.id = n.toInt := by
      rw [hrow.id j (h.lt_length j) hi hgiven] at hn
      exact Except.ok.inj hn
    refine ⟨n, hid, ?_⟩
    rw [hrow.rowId j (h.lt_length j) hi, hid, Int64.ofInt_toInt]

/-- If the database gives the row id of a record, it is no column. -/
theorem rowId_eq_none (h : IsKeyedTableOf s rule) (ha : s.Kept a)
    (hself : rule.SelfNumbered s.insertable (s.toRow a)) : rule.rowId = none := by
  refine Option.eq_none_iff_forall_ne_some.mpr fun k hk => ?_
  obtain ⟨i, rfl, hnumbered | ⟨hkey, -, hinteger⟩⟩ := h.rowId k hk
  · exact h.plain i hnumbered
  · obtain ⟨-, -, hgiven, -⟩ := h.idOf_key h.hasTable ha hkey hinteger
    exact hgiven (hself i hk)

/-- A row that keeps the values of a record holds it. -/
theorem holds_of_keeps (h : IsKeyedTableOf s rule)
    (hwidth : row.values.length = rule.columns.length)
    (hkeeps : ∀ i, Stored.Keeps (s.affinity i) (s.cell a i) (row.value i))
    (hid : ∀ i : Fin s.fields.length, rule.rowId = some i.val →
      ∃ n : Int64, row.id = n.toInt ∧ row.value i = .integer n) :
    rule.Holds s.insertable (s.toRow a) row where
  named := h.find?_insertable
  width := hwidth
  value k hk _ := by
    let i : Fin s.fields.length := ⟨k, h.length_columns ▸ hk⟩
    have hgiven := h.given_sent h.hasTable.numbers a (h.plain i)
    have haffinity := h.affinity_eq i
    rw [show k = i.val from rfl, hgiven, haffinity]
    exact (hkeeps i).apply.symm
  rowId k hk hrowId := by
    obtain ⟨n, hn, hvalue⟩ := hid ⟨k, h.length_columns ▸ hk⟩ hrowId
    rw [hn, Int64.ofInt_toInt]
    exact hvalue
  id k hk hrowId hnull := by
    let i : Fin s.fields.length := ⟨k, h.length_columns ▸ hk⟩
    obtain ⟨n, hn, hvalue⟩ := hid i hrowId
    have hgiven := h.given_sent h.hasTable.numbers a (h.plain i)
    rw [show k = i.val from rfl, hgiven] at hnull ⊢
    have hkept := hkeeps i
    rw [hvalue] at hkept
    -- The column has an integer, so the cell is the text of one.
    generalize s.affinity i = affinity, s.cell a i = cell at hkept hnull ⊢
    cases hkept with
    | integer n =>
      obtain ⟨m, htext, hm, hread⟩ := (Stored.Keeps.integer n).idOf
      cases hm
      rw [hn]
      exact hread

/-! ### The primary key as the database knows it -/

/-- Rows share this key exactly if their records have the same primary key. -/
structure IsPrimary (s : Schema) (rule : TableRule) (k : StoredTable.Key) : Prop where
  /-- It is a key of the table. -/
  mem : k ∈ StoredTable.Key.rowId :: rule.uniques.map .columns
  /-- Sharing it means having the same primary key. -/
  shared_iff : ∀ {a b : s.Record} {row other : StoredRow}, s.Kept a → s.Kept b →
    rule.Holds s.insertable (s.toRow a) row → rule.Holds s.insertable (s.toRow b) other →
      (k.shared row other = true ↔ s.SameKey a b)

/-- The primary key is the row id. -/
theorem isPrimary_rowId (h : IsKeyedTableOf s rule) {k : Nat} (hk : rule.rowId = some k) :
    IsPrimary s rule .rowId where
  mem := List.mem_cons_self
  shared_iff {a b row other} ha hb hrow hother := by
    obtain ⟨i, rfl, hnumbered | ⟨hkey, honly, -⟩⟩ := h.rowId k hk
    · exact absurd hnumbered (h.plain i)
    obtain ⟨n, hn, hvalue⟩ := h.id_of_holds ha hrow hk
    obtain ⟨m, hm, hvalue'⟩ := h.id_of_holds hb hother hk
    have hkeeps := h.keeps ha hrow i
    have hkeeps' := h.keeps hb hother i
    constructor
    · intro hshared j hj
      obtain rfl := honly j hj
      have hid : row.id = other.id := beq_iff_eq.mp hshared
      have hsame : n = m := Int64.toInt_inj.mp (by rw [← hn, ← hm, hid])
      rw [hvalue, hsame, ← hvalue'] at hkeeps
      have hcell := hkeeps.toCell.symm.trans hkeeps'.toCell
      exact h.value_eq ha hb (Except.ok.inj hcell)
    · intro hsame
      have hcell : s.cell a i = s.cell b i := congrArg _ (hsame i hkey)
      rw [hcell] at hkeeps
      have heq := hkeeps.eq hkeeps'
      rw [hvalue, hvalue'] at heq
      cases heq
      exact beq_iff_eq.mpr (hn.trans hm.symm)

/-- The primary key is a list of columns. -/
theorem isPrimary_columns (h : IsKeyedTableOf s rule) {is : List Nat} (his : is ∈ rule.uniques)
    (hkeys : ∀ k, k ∈ is ↔ ∃ i : Fin s.fields.length, i.val = k ∧ s.IsKey i) :
    IsPrimary s rule (.columns is) where
  mem := List.mem_cons_of_mem _ (List.mem_map_of_mem his)
  shared_iff {a b row other} ha hb hrow hother := by
    constructor
    · intro hshared i hi
      have hboth := List.all_eq_true.mp hshared i.val ((hkeys i).mpr ⟨i, rfl, hi⟩)
      rw [Bool.and_eq_true, Bool.not_eq_true'] at hboth
      have hcell := (h.keeps ha hrow i).eq_of_same (h.keeps hb hother i) hboth.1 hboth.2
      exact h.value_eq ha hb hcell
    · intro hsame
      refine List.all_eq_true.mpr fun k hk => ?_
      obtain ⟨i, rfl, hi⟩ := (hkeys k).mp hk
      have hcell : s.cell a i = s.cell b i := congrArg _ (hsame i hi)
      have hkeeps := h.keeps ha hrow i
      have hkeeps' := h.keeps hb hother i
      have hnotNull : (row.value i).isNull = false := by
        have hsome := ha.notNull i (h.plain i) (h.hasTable.keyNotNull i hi)
        exact Bool.eq_false_iff.mpr fun hnull => hsome (hkeeps.isNull_iff.mp hnull)
      have heq : other.value i = row.value i := by
        rw [← hcell] at hkeeps'
        exact hkeeps'.eq hkeeps
      rw [heq, hnotNull, hkeeps.same_self]
      rfl

/-- The key that decides which row a record overwrites is the primary key. -/
theorem isPrimary (h : IsKeyedTableOf s rule) {key : StoredTable.Key}
    (hkey : IsTargetKey s rule key) : IsPrimary s rule key := by
  have hplaces : ∀ n, n ∈ key.places rule ↔ ∃ i : Fin s.fields.length, i.val = n ∧ s.IsKey i :=
    fun n => (hkey.mem_places n).trans
      (exists_congr fun i => and_congr_right fun _ => Schema.isTarget_iff_isKey h.keyed)
  cases key with
  | rowId =>
    obtain ⟨i, hi⟩ := h.keyed
    exact h.isPrimary_rowId (Option.mem_toList.mp ((hplaces i).mpr ⟨i, rfl, hi⟩))
  | columns is =>
    rcases List.mem_cons.mp hkey.mem with hrowId | hmem
    · cases hrowId
    · obtain ⟨is', his, hsame⟩ := List.mem_map.mp hmem
      cases hsame
      exact h.isPrimary_columns his hplaces

theorem exists_isPrimary (h : IsKeyedTableOf s rule) : ∃ key, IsPrimary s rule key := by
  obtain ⟨i, hi⟩ := h.keyed
  obtain ⟨key, -, hkey⟩ := h.keyOf?_target ⟨i, .inl hi⟩
  exact ⟨key, h.isPrimary hkey⟩

/-- Ids may be given again. -/
theorem numbered_eq_false (h : IsKeyedTableOf s rule) : rule.numbered = false := by
  have hnumbered : places s.columns (·.type.properties.autoIncrement) = [] :=
    numberedPlaces_eq_nil h.plain
  have hmade := h.made
  unfold ofStatement at hmade
  simp only at hmade
  split at hmade
  · cases hmade
  · split at hmade
    · cases hmade
    · cases hmade
      simp [Schema.createTable, hnumbered]

/-! ### What an INSERT does with conflicts -/

/-- What is done with a record whose primary key is there already: it is refused, or the row takes
all values that are no part of the key. If there are none, nothing is to be done. -/
structure Handles (s : Schema) (rule : TableRule) (orReplace : Bool) (insertion : Insertion) :
    Prop where
  /-- The columns that are sent are looked up. -/
  looked : s.insertable.map (fun c => rule.find? c.name) = insertion.columns.map some
  /-- A plain INSERT refuses the record. -/
  refuses : orReplace = false → insertion.onConflict = .refuse
  /-- Any other overwrites what is no part of the key. -/
  overwrites : orReplace = true → ∃ key, IsPrimary s rule key ∧
    (insertion.onConflict = .skip key ∧ (∀ i, s.IsKey i) ∨
      ∃ columns, insertion.onConflict = .overwrite key columns ∧
        ∀ i : Fin s.fields.length, i.val ∈ columns ↔ ¬s.IsKey i)

/-- **What an INSERT of the records does** with one whose key is there already. -/
theorem handles (h : IsKeyedTableOf s rule) (orReplace : Bool) :
    ∃ insertion, Insertion.ofStatement rule (s.insert orReplace) = .ok insertion ∧
      Handles s rule orReplace insertion := by
  cases orReplace with
  | false =>
    obtain ⟨columns, hcolumns⟩ := Tables.lookUp_accepts s.table h.find?_insertable
    refine ⟨⟨columns, .refuse⟩, ?_, Insertion.lookUp_ok hcolumns, fun _ => rfl, (by cases ·)⟩
    simp only [Insertion.ofStatement, Schema.insert, Table.named, hcolumns]
    rfl
  | true =>
    have htarget : ∀ i, s.IsTarget i ↔ s.IsKey i := fun _ => Schema.isTarget_iff_isKey h.keyed
    obtain ⟨⟨columns, onConflict⟩, hstatement, hlooked, hover⟩ := h.overwriting
    refine ⟨_, hstatement, hlooked, (by cases ·), fun _ => ?_⟩
    cases hover with
    | replace hnone =>
      obtain ⟨i, hi⟩ := h.keyed
      exact absurd (.inl hi) (hnone i)
    | skip hkey hall =>
      exact ⟨_, h.isPrimary hkey, .inl ⟨rfl, fun i =>
        (htarget i).mp ((hall i).resolve_right (h.plain i))⟩⟩
    | overwrite hkey hcolumns =>
      refine ⟨_, h.isPrimary hkey, .inr ⟨_, rfl, fun i => ?_⟩⟩
      rw [hcolumns, htarget]
      exact and_iff_left (h.plain i)

end IsKeyedTableOf

end Sqlite.TableRule

end SqlRecords
