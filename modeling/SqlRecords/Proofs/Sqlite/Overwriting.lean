import SqlRecords.Proofs.Sqlite.KeyedRecords

/-!
# A record overwrites the one with its key

A record that is inserted into a table of keyed records gets a row: one of its own if its key is
new, and the row of the record with its key if not (`Places`). What was in the table before is
there still, but for the record with the same key.

## What is proved

* `Stores.insert`: what an INSERT of one record does if it succeeds.
* **`Places.contains_iff`**: the records of the table afterwards.
* **`Stores.insert_accepts`**: an upsert succeeds, unless a record with another key has the same
  value in a unique column.
-/

namespace SqlRecords

open Sqlite TableRule

namespace Schema

variable {s : Schema} {rule : TableRule} {n m : Nat} {t t' : StoredTable} {a b : s.Record}

/-- If two records share the value of a unique column, and it is not NULL, they have the same
primary key. -/
def Compatible (s : Schema) (a b : s.Record) : Prop :=
  ∀ i, s.IsUnique i → s.value a i = s.value b i → s.cell a i ≠ none → s.SameKey a b

/-- Compatible records with different primary keys share no key at all. -/
theorem Compatible.apart (h : s.Compatible a b) (hkey : ¬s.SameKey a b) : s.Apart a b where
  key _ := by
    simp only [SameKey, not_forall] at hkey
    obtain ⟨i, hi, hne⟩ := hkey
    exact ⟨i, hi, hne⟩
  unique i hi hvalue := by
    by_contra hcell
    exact hkey (h i hi hvalue hcell)

/-- A table stores records, of which so many were inserted at most: each of its rows holds one. -/
structure Stores (s : Schema) (rule : TableRule) (n : Nat) (t : StoredTable) : Prop where
  /-- The table is theirs. -/
  sameRule : t.rule = rule
  /-- Its rows are in order, and no key is there twice. -/
  sound : t.Sound
  /-- Each row holds a record. -/
  holds : ∀ row ∈ t.rows, ∃ record, s.Kept record ∧ rule.Holds s.insertable (s.toRow record) row
  /-- Row ids that the database gives are counted from 1. -/
  ids : rule.rowId = none → ∀ row ∈ t.rows, row.id ≤ n

/-- A table has a row for a record. -/
def Contains (s : Schema) (rule : TableRule) (t : StoredTable) (record : s.Record) : Prop :=
  s.Kept record ∧ ∃ row ∈ t.rows, rule.Holds s.insertable (s.toRow record) row

/-- A record got a row in a table. -/
inductive Places (s : Schema) (rule : TableRule) (a : s.Record) (t t' : StoredTable) : Prop where
  /-- It is a new row, which shares no key with any other. -/
  | added (row : StoredRow) (hrow : rule.Holds s.insertable (s.toRow a) row)
    (hkeys : ∀ k ∈ t.keys, ∀ r ∈ t.rows, k.shared row r = false)
    (hrows : ∀ r, r ∈ t'.rows ↔ r = row ∨ r ∈ t.rows)
  /-- It comes in place of the row of a record with the same key. -/
  | changed (row old : StoredRow) (b : s.Record) (hrow : rule.Holds s.insertable (s.toRow a) row)
    (hold : old ∈ t.rows) (hid : row.id = old.id) (hb : s.Kept b)
    (hheld : rule.Holds s.insertable (s.toRow b) old) (hsame : s.SameKey a b)
    (hrows : ∀ r, r ∈ t'.rows ↔ r = row ∨ r ∈ t.rows ∧ r.id ≠ old.id)

namespace Stores

/-- A table without rows. -/
theorem empty (s : Schema) (rule : TableRule) (n : Nat) (lastId : Int) :
    Stores s rule n ⟨rule, [], lastId⟩ :=
  ⟨rfl, .empty rule lastId, nofun, nofun⟩

/-- It does not matter if fewer were inserted. -/
theorem mono (ht : Stores s rule n t) (h : n ≤ m) : Stores s rule m t :=
  ⟨ht.sameRule, ht.sound, ht.holds, fun hnone row hrow =>
    Int.le_trans (ht.ids hnone row hrow) (Int.ofNat_le.mpr h)⟩

/-- The greatest id ever given makes no difference. -/
theorem withLastId (ht : Stores s rule n t) (lastId : Int) : Stores s rule n { t with lastId } :=
  ⟨ht.sameRule, ht.sound.withLastId lastId, ht.holds, ht.ids⟩

/-- The table is found by the name of the record type. -/
theorem sameName (h : IsKeyedTableOf s rule) (ht : Stores s rule n t) :
    sameName t.rule.name s.table = true := by
  rw [ht.sameRule, Tables.name_ofStatement h.made]
  exact sameName_refl s.table

theorem mem_keys (ht : Stores s rule n t) {key : StoredTable.Key}
    (hkey : IsKeyedTableOf.IsPrimary s rule key) : key ∈ t.keys := by
  rw [StoredTable.keys, ht.sameRule]
  exact hkey.mem

/-- There is one row for each key. -/
theorem row_eq (h : IsKeyedTableOf s rule) (ht : Stores s rule n t) (ha : s.Kept a) (hb : s.Kept b)
    {row other : StoredRow} (hrow : row ∈ t.rows) (hother : other ∈ t.rows)
    (hheld : rule.Holds s.insertable (s.toRow a) row)
    (hheld' : rule.Holds s.insertable (s.toRow b) other) (hsame : s.SameKey a b) :
    row = other := by
  obtain ⟨key, hkey⟩ := h.exists_isPrimary
  refine ht.sound.apart row hrow other hother key (ht.mem_keys hkey) ?_ ?_
  · exact (hkey.shared_iff ha hb hheld hheld').mpr hsame
  · exact (hkey.shared_iff hb ha hheld' hheld).mpr hsame.symm

/-- A row that shares no key with the others brings a new primary key. -/
theorem not_sameKey (h : IsKeyedTableOf s rule) (ht : Stores s rule n t) (ha : s.Kept a)
    {row : StoredRow} (hrow : rule.Holds s.insertable (s.toRow a) row)
    (hkeys : ∀ k ∈ t.keys, ∀ r ∈ t.rows, k.shared row r = false) (hb : s.Contains rule t b) :
    ¬s.SameKey a b := by
  intro hsame
  obtain ⟨hb, r, hr, hheld⟩ := hb
  obtain ⟨key, hkey⟩ := h.exists_isPrimary
  have hshared := (hkey.shared_iff ha hb hrow hheld).mpr hsame
  rw [hkeys key (ht.mem_keys hkey) r hr] at hshared
  cases hshared

end Stores

/-! ### The row of a record -/

/-- What a row has after a record took all columns of it but those of the primary key, which is the
same: what they keep of the record. -/
theorem changed_keeps (h : IsKeyedTableOf s rule) (ha : s.Kept a) (hb : s.Kept b)
    {row old : StoredRow} (hrow : rule.Holds s.insertable (s.toRow a) row)
    (hheld : rule.Holds s.insertable (s.toRow b) old) (hsame : s.SameKey a b) {columns : List Nat}
    (hcolumns : ∀ i : Fin s.fields.length, i.val ∈ columns ↔ ¬s.IsKey i) (i : Fin s.fields.length) :
    ∃ v, (StoredTable.changed old columns row.value)[i.val]? = some v ∧
      Stored.Keeps (s.affinity i) (s.cell a i) v := by
  refine ⟨_, StoredTable.getElem?_changed (hheld.width ▸ h.lt_length i), ?_⟩
  split
  · exact h.keeps ha hrow i
  · next hnot =>
    have hi : s.IsKey i := by
      by_contra hi
      exact hnot ((hcolumns i).mpr hi)
    have hcell : s.cell a i = s.cell b i := congrArg _ (hsame i hi)
    rw [hcell]
    exact h.keeps hb hheld i

/-- There is no NULL in it where there may be none. -/
theorem checkNulls_changed (h : IsKeyedTableOf s rule) (hrule : t.rule = rule) (ha : s.Kept a)
    (hb : s.Kept b) {row old : StoredRow} (hrow : rule.Holds s.insertable (s.toRow a) row)
    (hheld : rule.Holds s.insertable (s.toRow b) old) (hsame : s.SameKey a b) {columns : List Nat}
    (hcolumns : ∀ i : Fin s.fields.length, i.val ∈ columns ↔ ¬s.IsKey i) :
    t.checkNulls (StoredTable.changed old columns row.value) = .ok () := by
  subst hrule
  refine StoredTable.checkNulls_ok fun k hk hnotNull _ => ?_
  let i : Fin s.fields.length := ⟨k, h.length_columns ▸ hk⟩
  obtain ⟨v, hv, hkeeps⟩ := changed_keeps h ha hb hrow hheld hsame hcolumns i
  rw [show k = i.val from rfl, h.getElem?_columns i] at hnotNull
  have hnullable := (Bool.and_eq_true_iff.mp hnotNull).1
  have hsome := ha.notNull i (h.plain i) ((Bool.not_eq_true' _).mp hnullable)
  rw [show k = i.val from rfl, hv]
  exact Bool.eq_false_iff.mpr fun hnull => hsome (hkeeps.isNull_iff.mp hnull)

/-- The row id is not among the columns that it took. -/
theorem rowId_notMem (h : IsKeyedTableOf s rule) {columns : List Nat}
    (hcolumns : ∀ i : Fin s.fields.length, i.val ∈ columns ↔ ¬s.IsKey i) :
    ∀ k, rule.rowId = some k → k ∉ columns := by
  intro k hk hmem
  obtain ⟨i, rfl, hnumbered | ⟨hi, -⟩⟩ := h.rowId k hk
  · exact h.plain i hnumbered
  · exact (hcolumns i).mp hmem hi

/-- The row that comes in place of another one: the primary key and the row id stay, all else is the
record's. -/
theorem holds_changed (h : IsKeyedTableOf s rule) (hrule : t.rule = rule) (ha : s.Kept a)
    (hb : s.Kept b) {row old : StoredRow} (hrow : rule.Holds s.insertable (s.toRow a) row)
    (hheld : rule.Holds s.insertable (s.toRow b) old) (hsame : s.SameKey a b) {columns : List Nat}
    (hcolumns : ∀ i : Fin s.fields.length, i.val ∈ columns ↔ ¬s.IsKey i) :
    rule.Holds s.insertable (s.toRow a)
      (t.rowOf old.id (StoredTable.changed old columns row.value)) := by
  subst hrule
  have hlength : ∀ i : Fin s.fields.length, i.val < t.rule.columns.length := h.lt_length
  have hid : ∀ i : Fin s.fields.length, t.rule.rowId = some i.val →
      ∃ n : Int64, old.id = n.toInt ∧
        (t.rowOf old.id (StoredTable.changed old columns row.value)).value i = .integer n := by
    intro i hi
    obtain ⟨n, hn, -⟩ := h.id_of_holds hb hheld hi
    refine ⟨n, hn, ?_⟩
    rw [StoredTable.value_rowOf _ _ _ (hlength i), hi, hn]
    simp
  refine h.holds_of_keeps (by simp [StoredTable.rowOf]) (fun i => ?_) hid
  by_cases hrowId : t.rule.rowId = some i.val
  · obtain ⟨n, hn, hvalue⟩ := hid i hrowId
    obtain ⟨m, hm, hvalue'⟩ := h.id_of_holds hb hheld hrowId
    have hnm : n = m := Int64.toInt_inj.mp (hn.symm.trans hm)
    obtain ⟨j, hj, hnumbered | ⟨hkey, -⟩⟩ := h.rowId i hrowId
    · exact absurd hnumbered (h.plain j)
    · obtain rfl := Fin.ext hj
      have hcell : s.cell a j = s.cell b j := congrArg _ (hsame j hkey)
      rw [hvalue, hnm, ← hvalue', hcell]
      exact h.keeps hb hheld j
  · obtain ⟨v, hv, hkeeps⟩ := changed_keeps h ha hb hrow hheld hsame hcolumns i
    rw [StoredTable.value_rowOf _ _ _ (hlength i), if_neg (by simpa using hrowId), hv,
      h.affinity_eq, Option.getD_some, hkeeps.apply_self]
    exact hkeeps

namespace Stores

/-- A row that shares the primary key holds a record with the same one. -/
theorem exists_of_conflict (ht : Stores s rule n t) {key : StoredTable.Key}
    (hkey : IsKeyedTableOf.IsPrimary s rule key) (ha : s.Kept a) {row old : StoredRow}
    (hrow : rule.Holds s.insertable (s.toRow a) row)
    (hconflict : t.conflict? none row key = some old) :
    old ∈ t.rows ∧ ∃ b, s.Kept b ∧ rule.Holds s.insertable (s.toRow b) old ∧ s.SameKey a b := by
  obtain ⟨hold, hshared⟩ := StoredTable.conflict?_eq_some hconflict
  obtain ⟨b, hb, hheld⟩ := ht.holds old hold
  exact ⟨hold, b, hb, hheld, (hkey.shared_iff ha hb hrow hheld).mp hshared⟩

/-- **What an INSERT of one record does** if it succeeds: the record gets a row. -/
theorem insert (h : IsKeyedTableOf s rule) (ht : Stores s rule n t) {orReplace : Bool}
    {insertion : Insertion} (hi : IsKeyedTableOf.Handles s rule orReplace insertion)
    (ha : s.Kept a)
    (hinsert : t.insert insertion ((s.toRow a).map .ofCell) = .ok t') :
    Stores s rule (n + 1) t' ∧ Places s rule a t t' := by
  obtain rfl := ht.sameRule
  have hkept : insertion.onConflict ≠ .replace := by
    intro hreplace
    cases orReplace with
    | false => cases hreplace.symm.trans (hi.refuses rfl)
    | true =>
      obtain ⟨key, -, ⟨hskip, -⟩ | ⟨columns, hover, -⟩⟩ := hi.overwrites rfl
      · cases hreplace.symm.trans hskip
      · cases hreplace.symm.trans hover
  obtain ⟨id, hid, -, hcases⟩ := StoredTable.insert_cases hkept hinsert
  have hrow := StoredTable.rowOf_holds hi.looked hid
  have hnew : t.rule.rowId = none → t.nextId = .ok id := by
    intro hnone
    rwa [Insertion.newId, hnone] at hid
  have hgot : (t.rowOf id (insertion.values t.rule ((s.toRow a).map .ofCell))).id = id := rfl
  generalize t.rowOf id (insertion.values t.rule ((s.toRow a).map .ofCell)) = row
    at hrow hcases hgot
  rcases hcases with ⟨hchecked, rfl⟩ | ⟨key, old, hskip, hconflict, rfl⟩ |
    ⟨key, columns, old, hover, hconflict, hchange⟩
  · have hfresh := StoredTable.checkKeys_eq_ok_iff.mp hchecked
    refine ⟨⟨rfl, ht.sound.add hchecked, fun r hr => ?_, fun hnone r hr => ?_⟩,
      .added row hrow (fun k hk r hr => hfresh k hk r hr (Option.some_ne_none r.id))
        fun r => StoredTable.mem_place⟩
    · rcases StoredTable.mem_place.mp hr with rfl | hr
      · exact ⟨a, ha, hrow⟩
      · exact ht.holds r hr
    · rcases StoredTable.mem_place.mp hr with rfl | hr
      · rw [hgot]
        exact (ht.sound.nextId_ok h.numbered_eq_false (hnew hnone)).2 n (ht.ids hnone)
      · exact Int.le_add_one (ht.ids hnone r hr)
  · -- Nothing is left to overwrite, so the record is there already.
    cases orReplace with
    | false => cases hskip.symm.trans (hi.refuses rfl)
    | true =>
      obtain ⟨key', hkey, ⟨hskip', hall⟩ | ⟨columns, hover, -⟩⟩ := hi.overwrites rfl
      · cases hskip.symm.trans hskip'
        obtain ⟨hold, b, hb, hheld, hsame⟩ := ht.exists_of_conflict hkey ha hrow hconflict
        have heq : a = b := Values.ext fun i => hsame i (hall i)
        refine ⟨(ht.withLastId _).mono (Nat.le_succ n),
          .changed old old b (heq ▸ hheld) hold rfl hb hheld hsame fun r =>
            ht.sound.mem_rows_iff hold⟩
      · cases hskip.symm.trans hover
  · cases orReplace with
    | false => cases hover.symm.trans (hi.refuses rfl)
    | true =>
      obtain ⟨key', hkey, ⟨hskip, -⟩ | ⟨columns', hover', hcolumns⟩⟩ := hi.overwrites rfl
      · cases hover.symm.trans hskip
      · cases hover.symm.trans hover'
        obtain ⟨hold, b, hb, hheld, hsame⟩ := ht.exists_of_conflict hkey ha hrow hconflict
        obtain ⟨id', hkeptId, hchecked, rfl⟩ := StoredTable.change_ok hchange
        obtain rfl : id' = old.id := by
          refine hkeptId.resolve_right ?_
          rintro ⟨i, hi, hrowId, _⟩
          exact rowId_notMem h hcolumns i hrowId hi
        have hrow' := holds_changed h rfl ha hb hrow hheld hsame hcolumns
        refine ⟨⟨rfl, (ht.sound.withLastId _).replace hchecked, fun r hr => ?_,
            fun hnone r hr => ?_⟩,
          .changed _ old b hrow' hold rfl hb hheld hsame fun r => StoredTable.mem_replace⟩
        · rcases StoredTable.mem_replace.mp hr with rfl | ⟨hr, -⟩
          · exact ⟨a, ha, hrow'⟩
          · exact ht.holds r hr
        · rcases StoredTable.mem_replace.mp hr with rfl | ⟨hr, -⟩
          · exact Int.le_add_one (ht.ids hnone old hold)
          · exact Int.le_add_one (ht.ids hnone r hr)

/-! ### When a record is taken -/

/-- The row of a record has an id, which is no other's unless it is in the record. -/
theorem exists_newId (h : IsKeyedTableOf s rule) (ht : Stores s rule n t) {insertion : Insertion}
    (hlooked : s.insertable.map (fun c => rule.find? c.name) = insertion.columns.map some)
    (ha : s.Kept a) (hroom : (n : Int) < StoredTable.maxId) :
    ∃ id, Insertion.newId t (insertion.values t.rule ((s.toRow a).map .ofCell)) = .ok id ∧
      (rule.SelfNumbered s.insertable (s.toRow a) → ∀ r ∈ t.rows, r.id ≠ id) := by
  obtain rfl := ht.sameRule
  by_cases hself : t.rule.SelfNumbered s.insertable (s.toRow a)
  · have hnone := h.rowId_eq_none ha hself
    obtain ⟨id, hid⟩ := ht.sound.nextId_accepts h.numbered_eq_false fun r hr =>
      Int.lt_of_le_of_lt (ht.ids hnone r hr) hroom
    refine ⟨id, (StoredTable.newId_self hlooked h.rowId_lt hself).trans hid, fun _ r hr => ?_⟩
    exact Int.ne_of_lt ((ht.sound.nextId_ok h.numbered_eq_false hid).1 r hr)
  · obtain ⟨id, hid⟩ := StoredTable.newId_given hlooked h.rowId_lt (h.accepts h.hasTable ha) hself
    exact ⟨id, hid, fun hself' => absurd hself' hself⟩

/-- The row of a record passes the checks if the other rows hold compatible records with different
primary keys, and the row ids that the database gives are different. -/
theorem checkKeys_ok (h : IsKeyedTableOf s rule) (ht : Stores s rule n t) (ha : s.Kept a)
    (hfits : ∀ b, s.Contains rule t b → s.Compatible b a) {row : StoredRow}
    (hrow : rule.Holds s.insertable (s.toRow a) row) {without : Option Int}
    (hothers : ∀ r ∈ t.rows, some r.id ≠ without → ∀ b, s.Kept b →
      rule.Holds s.insertable (s.toRow b) r → ¬s.SameKey b a)
    (hids : rule.SelfNumbered s.insertable (s.toRow a) →
      ∀ r ∈ t.rows, some r.id ≠ without → r.id ≠ row.id) :
    t.checkKeys without row t.keys = .ok () := by
  refine StoredTable.checkKeys_eq_ok_iff.mpr fun k hk r hr hne => ?_
  obtain ⟨b, hb, hheld⟩ := ht.holds r hr
  have hapart := (hfits b ⟨hb, r, hr, hheld⟩).apart (hothers r hr hne b hb hheld)
  obtain ⟨huniques, hgiven⟩ := h.apart h.hasTable hb ha hapart hheld hrow
  rw [StoredTable.keys, ht.sameRule] at hk
  rcases List.mem_cons.mp hk with rfl | hk
  · have hid : r.id ≠ row.id := by
      by_cases hself : rule.SelfNumbered s.insertable (s.toRow a)
      · exact hids hself r hr hne
      · exact hgiven hself
    simpa [StoredTable.Key.shared] using hid.symm
  · obtain ⟨is, his, rfl⟩ := List.mem_map.mp hk
    exact huniques is his

/-- **An upsert succeeds** for a record that is compatible with those that are there. -/
theorem insert_accepts (h : IsKeyedTableOf s rule) (ht : Stores s rule n t) {insertion : Insertion}
    (hi : IsKeyedTableOf.Handles s rule true insertion) (ha : s.Kept a)
    (hfits : ∀ b, s.Contains rule t b → s.Compatible b a) (hroom : (n : Int) < StoredTable.maxId) :
    ∃ t', t.insert insertion ((s.toRow a).map .ofCell) = .ok t' := by
  obtain rfl := ht.sameRule
  obtain ⟨id, hid, hids⟩ := ht.exists_newId h hi.looked ha hroom
  have hrow := StoredTable.rowOf_holds hi.looked hid
  have hnulls : t.checkNulls (insertion.values t.rule ((s.toRow a).map .ofCell)) = .ok () :=
    StoredTable.checkNulls_ok fun k hk hnotNull hrowId => by
      rw [Insertion.getElem?_values hi.looked hk]
      exact (h.accepts h.hasTable ha).notNull k hk hnotNull hrowId
  have hgot : (t.rowOf id (insertion.values t.rule ((s.toRow a).map .ofCell))).id = id := rfl
  obtain ⟨key, hkey, hover⟩ := hi.overwrites rfl
  simp only [StoredTable.insert, hid, hnulls, bind, Except.bind]
  generalize t.rowOf id (insertion.values t.rule ((s.toRow a).map .ofCell)) = row at hrow hgot ⊢
  cases hconflict : t.conflict? none row key with
  | none =>
    have hchecked : t.checkKeys none row t.keys = .ok () := by
      refine ht.checkKeys_ok h ha hfits hrow (fun r hr hne b hb hheld hsame => ?_)
        (fun hself r hr _ => hgot ▸ hids hself r hr)
      have hshared := (hkey.shared_iff ha hb hrow hheld).mpr hsame.symm
      rw [StoredTable.conflict?_eq_none_iff.mp hconflict r hr hne] at hshared
      cases hshared
    obtain ⟨hskip, -⟩ | ⟨columns, hoverwrite, -⟩ := hover
    · simp [hskip, hconflict, hchecked, pure, Except.pure]
    · simp [hoverwrite, hconflict, hchecked, pure, Except.pure]
  | some old =>
    obtain ⟨hskip, -⟩ | ⟨columns, hoverwrite, hcolumns⟩ := hover
    · simp [hskip, hconflict, pure, Except.pure]
    obtain ⟨hold, b, hb, hheld, hsame⟩ := ht.exists_of_conflict hkey ha hrow hconflict
    have hrow' := holds_changed h rfl ha hb hrow hheld hsame hcolumns
    have hnulls' := checkNulls_changed h rfl ha hb hrow hheld hsame hcolumns
    have hne : ∀ r : StoredRow, some r.id ≠ some old.id → r ≠ old := fun _ hne hr => hne (hr ▸ rfl)
    have hchecked : StoredTable.checkKeys { t with lastId := max t.lastId id } (some old.id)
        (t.rowOf old.id (StoredTable.changed old columns row.value)) t.keys = .ok () := by
      refine (ht.withLastId (max t.lastId id)).checkKeys_ok h ha hfits hrow'
        (fun r hr hid b' hb' hheld' hsame' => ?_) (fun _ _ _ hid hsame' => ?_)
      · exact hne r hid (ht.row_eq h hb' hb hr hold hheld' hheld (hsame'.trans hsame))
      · exact hid (congrArg some hsame')
    simp only [hoverwrite, hconflict]
    exact ⟨_, StoredTable.change_accepts (rowId_notMem h hcolumns) hnulls' hchecked⟩

end Stores

namespace Places

/-- **The records of the table afterwards**: the new one, and those with other keys. -/
theorem contains_iff (h : IsKeyedTableOf s rule) (ht : Stores s rule n t) (ha : s.Kept a)
    (hplaces : Places s rule a t t') {record : s.Record} :
    s.Contains rule t' record ↔
      record = a ∨ s.Contains rule t record ∧ ¬s.SameKey a record := by
  cases hplaces with
  | added row hrow hkeys hrows =>
    constructor
    · rintro ⟨hkept, r, hr, hheld⟩
      rcases (hrows r).mp hr with rfl | hr
      · exact .inl (h.eq_of_holds hkept ha hheld hrow)
      · have hthere : s.Contains rule t record := ⟨hkept, r, hr, hheld⟩
        exact .inr ⟨hthere, ht.not_sameKey h ha hrow hkeys hthere⟩
    · rintro (rfl | ⟨⟨hkept, r, hr, hheld⟩, -⟩)
      · exact ⟨ha, row, (hrows row).mpr (.inl rfl), hrow⟩
      · exact ⟨hkept, r, (hrows r).mpr (.inr hr), hheld⟩
  | changed row old b hrow hold _ hb hheld hsame hrows =>
    constructor
    · rintro ⟨hkept, r, hr, hheld'⟩
      rcases (hrows r).mp hr with rfl | ⟨hr, hne⟩
      · exact .inl (h.eq_of_holds hkept ha hheld' hrow)
      · refine .inr ⟨⟨hkept, r, hr, hheld'⟩, fun hsame' => hne ?_⟩
        rw [ht.row_eq h hkept hb hr hold hheld' hheld (hsame'.symm.trans hsame)]
    · rintro (rfl | ⟨⟨hkept, r, hr, hheld'⟩, hother⟩)
      · exact ⟨ha, row, (hrows row).mpr (.inl rfl), hrow⟩
      · refine ⟨hkept, r, (hrows r).mpr (.inr ⟨hr, fun hid => hother ?_⟩), hheld'⟩
        obtain rfl := ht.sound.eq_of_id hr hold hid
        rwa [h.eq_of_holds hkept hb hheld' hheld]

/-- Each row leaves its primary key behind. -/
theorem keeps_key (h : IsKeyedTableOf s rule) (ht : Stores s rule n t) (ha : s.Kept a)
    (hplaces : Places s rule a t t') {i : Fin s.fields.length} (hi : s.IsKey i) :
    ∀ r ∈ t.rows, ∃ r' ∈ t'.rows, r'.value i = r.value i := by
  intro r hr
  cases hplaces with
  | added row hrow hkeys hrows => exact ⟨r, (hrows r).mpr (.inr hr), rfl⟩
  | changed row old b hrow hold _ hb hheld hsame hrows =>
    by_cases hid : r.id = old.id
    · obtain rfl := ht.sound.eq_of_id hr hold hid
      have hcell : s.cell a i = s.cell b i := congrArg _ (hsame i hi)
      have hkeeps := h.keeps ha hrow i
      rw [hcell] at hkeeps
      exact ⟨row, (hrows row).mpr (.inl rfl), hkeeps.eq (h.keeps hb hheld i)⟩
    · exact ⟨r, (hrows r).mpr (.inr ⟨hr, hid⟩), rfl⟩

end Places

end Schema

end SqlRecords
