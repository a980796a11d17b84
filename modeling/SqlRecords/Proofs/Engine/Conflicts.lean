import SqlRecords.Proofs.Engine.Built
import SqlRecords.Proofs.Record.Sendable
import SqlRecords.Proofs.Sqlite.References
import SqlRecords.Proofs.Sqlite.Resolving

/-!
# What becomes of a record that shares a key

A record that is inserted to overwrite shares a key with one row of its table. If it is the primary
key, or the first unique column where there is no primary key, the row is overwritten. If it is any
other key, the record is refused, though it was to overwrite: the statement names the columns of one
key, and the others are checked as they are for a plain INSERT.

## What is proved

* `Engine.insertOrReplace_one`: one record is inserted, or refused with its number.
* **`Engine.insertOrReplace_resolves`**: what becomes of a record that shares keys with one row at
  most, of any type without foreign keys and in a table that engines made.
* `Engine.insertOrReplace_uniqueFailed`: a record that is refused, though it was to overwrite.
-/

namespace SqlRecords

open Sqlite SqliteConnection TableRule

namespace Schema

variable {s : Schema} {ts : Tables} {t t' : StoredTable} {row old new : StoredRow}

/-- The row that is made of a record: there is nothing wrong with it, unless it shares a key. -/
theorem exists_candidate (h : IsTableOf s t.rule) (ht : t.Tidy) (hs : s.IsAdmissible)
    {record : s.Record} (hfits : checkRow s.insertable (s.toRow record) = .ok ())
    (hroom : t.rule.SelfNumbered s.insertable (s.toRow record) → ∃ id, t.nextId = .ok id)
    {insertion : Insertion}
    (hlooked : s.insertable.map (fun c => t.rule.find? c.name) = insertion.columns.map some) :
    ∃ row, t.rule.Holds s.insertable (s.toRow record) row ∧
      (t.rule.SelfNumbered s.insertable (s.toRow record) → t.nextId = .ok row.id) ∧
      s.Candidate t row ∧ t.insert insertion ((s.toRow record).map .ofCell) =
        t.settle insertion.onConflict row := by
  have haccepts := hs.accepts h hfits
  have hself : t.rule.SelfNumbered s.insertable (s.toRow record) →
      Insertion.newId t (insertion.values t.rule ((s.toRow record).map .ofCell)) = t.nextId :=
    StoredTable.newId_self hlooked h.rowId_lt
  obtain ⟨id, hid⟩ : ∃ id,
      Insertion.newId t (insertion.values t.rule ((s.toRow record).map .ofCell)) = .ok id := by
    by_cases hnumbers : t.rule.SelfNumbered s.insertable (s.toRow record)
    · rw [hself hnumbers]
      exact hroom hnumbers
    · exact StoredTable.newId_given hlooked h.rowId_lt haccepts hnumbers
  have hnulls : t.checkNulls (insertion.values t.rule ((s.toRow record).map .ofCell)) = .ok () :=
    StoredTable.checkNulls_ok fun k hk hnotNull hrowId => by
      rw [Insertion.getElem?_values hlooked hk]
      exact haccepts.notNull k hk hnotNull hrowId
  have hholds := StoredTable.rowOf_holds hlooked hid
  have hnext : t.rule.SelfNumbered s.insertable (s.toRow record) → t.nextId = .ok id :=
    fun hnumbers => hself hnumbers ▸ hid
  refine ⟨_, hholds, hnext, ⟨⟨⟨_, rfl⟩, ?_⟩, fun k hk hnotNull hrowId => ?_, fun hkey r hr => ?_⟩,
    StoredTable.insert_eq_settle hid hnulls⟩
  · exact StoredTable.fits_of_newId (fun r hr => (ht.made r hr).fits) hid
  · rw [hholds.value k hk hrowId, Affinity.isNull_apply]
    exact haccepts.notNull k hk hnotNull hrowId
  · -- A row id that is no part of the primary key is one that the database gives.
    have hnumbers : t.rule.SelfNumbered s.insertable (s.toRow record) := by
      intro k hk
      obtain ⟨i, rfl, hnumbered | ⟨hi, -⟩⟩ := h.rowId k hk
      · exact h.given_numbered hs.numbersColumns record hnumbered
      · exact absurd hk (hkey i hi)
    exact Int.ne_of_gt (ht.lt_nextId (hnext hnumbers) r hr)

/-- References hold if no row is taken away. -/
theorem checkReferences_add (hfound : ts.find? s.table = some t) (h : IsTableOf s t.rule)
    (row : StoredRow) : ts.checkReferences (ts.put (t.add row)) = .ok (ts.put (t.add row)) := by
  have hle : (ts.put (t.add row)).dangling ≤ ts.dangling :=
    Tables.dangling_put_le hfound rfl h.foreignKeys fun _ _ _ _ _ _ _ r hr =>
      ⟨r, StoredTable.mem_place.mpr (.inr hr), rfl⟩
  exact if_neg (Nat.not_lt.mpr hle)

/-- References hold if they are to columns that no record overwrites. -/
theorem TakesOver.checkReferences (hover : s.TakesOver row old new t t') (ht : t.Tidy)
    (hold : old ∈ t.rows) (hfound : ts.find? s.table = some t) (h : IsTableOf s t.rule)
    (hrefers : s.KeepsReferences ts) : ts.checkReferences (ts.put t') = .ok (ts.put t') := by
  refine hrefers.checkReferences hfound h hover.sameRule fun i hi r hr => ?_
  by_cases hid : r.id = old.id
  · obtain rfl := ht.eq_of_id hr hold hid
    exact ⟨new, (hover.rows new).mpr (.inl rfl), hover.kept i hi⟩
  · exact ⟨r, (hover.rows r).mpr (.inr ⟨hr, hid⟩), rfl⟩

end Schema

namespace Engine

variable {s : Schema} {c : SqliteConnection Store} {t t' : StoredTable} {insertion : Insertion}

/-- One record is inserted, or refused with its number, by a statement that can be prepared. -/
theorem insertOrReplace_one (e : Engine) {record : s.Record}
    (hfits : checkRow s.insertable (s.toRow record) = .ok ())
    (hprepared : c.database.tables.prepare (s.insert true) = .ok (t, insertion)) :
    Ensures (e.insertOrReplace s [record]) c
      (fun _ d => d.database.saved = c.database.saved ∧ c.database.tables.insertRow (s.insert true)
        ((s.toRow record).map .ofCell) = .ok d.database.tables)
      (fun err d => d.database = c.database ∧ ∃ text, err = inRow 0 (insertFault text) ∧
        c.database.tables.insertRow (s.insert true) ((s.toRow record).map .ofCell) =
          .error text) := by
  have hpieces : chunks e.batchSize [s.toRow record] = [[s.toRow record]] := by
    simp [chunks]
  have hchecked : checkRow (s.insert true).columns (s.toRow record) = .ok () := hfits
  unfold insertOrReplace insertWith
  rw [List.map_singleton, hpieces]
  refine (ensures_bind (insertRows _ _) _).mpr ((ensures_bind (prepareInsert _) _).mpr
    ((prepareInsert_ensures _ c).mono (fun _ d hd => ?_) fun _ d hd => ?_))
  · unfold sendRows
    simp only [ensures_bind, ensures_ofResult, ensures_onDatabase, hchecked, hd]
    refine ⟨fun _ _ => Store.ensures_step.mpr ⟨fun d' hd' => Store.changing_ok hd',
      fun text htext => ⟨rfl, text, rfl, Store.changing_error htext⟩⟩, fun _ he => by cases he⟩
  · obtain ⟨-, text, htext⟩ := hd
    rw [hprepared] at htext
    cases htext

/-- A record that the database takes. -/
theorem insertOrReplace_ok (e : Engine) {record : s.Record}
    (hfits : checkRow s.insertable (s.toRow record) = .ok ())
    (hprepared : c.database.tables.prepare (s.insert true) = .ok (t, insertion))
    (hinsert : t.insert insertion ((s.toRow record).map .ofCell) = .ok t')
    (hchecked : c.database.tables.checkReferences (c.database.tables.put t') =
      .ok (c.database.tables.put t')) :
    ∃ d, e.insertOrReplace s [record] c = .ok () d ∧
      d.database = { c.database with tables := c.database.tables.put t' } := by
  have hrow : c.database.tables.insertRow (s.insert true) ((s.toRow record).map .ofCell) =
      .ok (c.database.tables.put t') := by
    rw [Tables.insertRow, hprepared]
    simp only [bind, Except.bind, hinsert]
    exact hchecked
  have hends := e.insertOrReplace_one hfits hprepared
  cases hrun : e.insertOrReplace s [record] c with
  | ok x d =>
    obtain ⟨hsaved, htables⟩ := hends.of_ok hrun
    rw [hrow] at htables
    refine ⟨d, rfl, ?_⟩
    calc d.database = ⟨d.database.tables, d.database.saved⟩ := rfl
      _ = ⟨c.database.tables.put t', c.database.saved⟩ := by rw [hsaved, Except.ok.inj htables]
  | error err d =>
    obtain ⟨-, text, -, htext⟩ := hends.of_error hrun
    rw [hrow] at htext
    cases htext

/-- A record that the database refuses. -/
theorem insertOrReplace_error (e : Engine) {record : s.Record}
    (hfits : checkRow s.insertable (s.toRow record) = .ok ())
    (hprepared : c.database.tables.prepare (s.insert true) = .ok (t, insertion)) {text : String}
    (hinsert : t.insert insertion ((s.toRow record).map .ofCell) = .error text) :
    ∃ d, e.insertOrReplace s [record] c = .error (inRow 0 (insertFault text)) d ∧
      d.database = c.database := by
  have hrow : c.database.tables.insertRow (s.insert true) ((s.toRow record).map .ofCell) =
      .error text := by
    rw [Tables.insertRow, hprepared]
    simp only [bind, Except.bind, hinsert]
  have hends := e.insertOrReplace_one hfits hprepared
  cases hrun : e.insertOrReplace s [record] c with
  | ok x d =>
    obtain ⟨-, htables⟩ := hends.of_ok hrun
    rw [hrow] at htables
    cases htables
  | error err d =>
    obtain ⟨hsame, text', rfl, htext⟩ := hends.of_error hrun
    rw [hrow] at htext
    cases htext
    exact ⟨d, rfl, hsame⟩

/-- **What becomes of a record that shares a key.** Take a type of records without foreign keys, and
a connection to a database that engines made, with a table for them; take a record whose numbers fit
in signed ones, while there is a row id left for it. The record makes one row. If this shares no key
with any row of the table, the record is inserted. If there is one row that it shares a key with and
no other, it depends on the columns that decide: the primary key, or the first unique column if
there is no primary key. If these have the same values, the row takes over all others, as long as no
other table refers to any of them. If not, the record is refused for a key that the two rows
share. -/
theorem insertOrReplace_resolves (e : Engine) (hs : s.IsAdmissible)
    (hforeign : ∀ i, (s.properties i).foreignKey = none) (hsends : s.insertable ≠ [])
    (hbuilt : Built c.database.tables) (hfound : c.database.tables.find? s.table = some t)
    (hmade : ofStatement (s.createTable true) = .ok t.rule) {record : s.Record}
    (hfits : checkRow s.insertable (s.toRow record) = .ok ())
    (hroom : t.rule.SelfNumbered s.insertable (s.toRow record) → ∃ id, t.nextId = .ok id) :
    ∃ row, t.rule.Holds s.insertable (s.toRow record) row ∧
      (t.rule.SelfNumbered s.insertable (s.toRow record) → t.nextId = .ok row.id) ∧
      ((∀ r ∈ t.rows, ¬t.Collides row r) →
        ∃ d, e.insertOrReplace s [record] c = .ok () d ∧
          d.database = { c.database with tables := c.database.tables.put (t.add row) }) ∧
      ∀ old ∈ t.rows, (∀ r ∈ t.rows, t.Collides row r ↔ r = old) →
        (s.SameTarget row old → s.KeepsReferences c.database.tables →
          ∃ d t' new, e.insertOrReplace s [record] c = .ok () d ∧
            d.database = { c.database with tables := c.database.tables.put t' } ∧
            s.TakesOver row old new t t') ∧
        (¬s.SameTarget row old → ∃ k ∈ t.keys, k.shared row old = true ∧
          ∃ d, e.insertOrReplace s [record] c =
            .error (inRow 0 (insertFault (t.uniqueFailed k))) d ∧ d.database = c.database) := by
  have h : IsTableOf s t.rule := .of_made hforeign hmade
  have ht := hbuilt.tidy t (List.mem_of_find?_eq_some hfound)
  obtain ⟨insertion, hlooked, hcolumns, hover⟩ := h.overwriting
  have hprepared : c.database.tables.prepare (s.insert true) = .ok (t, insertion) := by
    have hne : (s.insert true).columns.isEmpty = false := List.isEmpty_eq_false_iff.mpr hsends
    have hget : c.database.tables.get (s.insert true).table = .ok t := by
      rw [Tables.get, show c.database.tables.mentioned? (s.insert true).table = some t from hfound]
    simp [Tables.prepare, hne, hget, hlooked, h.foreignKeys, Tables.checkTargets, bind, Except.bind,
      pure, Except.pure]
  obtain ⟨row, hholds, hnext, hrow, hinsert⟩ := s.exists_candidate h ht hs hfits hroom hcolumns
  refine ⟨row, hholds, hnext, fun hnone => ?_, fun old hold hcollides =>
    ⟨fun hsame hrefers => ?_, fun hother => ?_⟩⟩
  · rw [Schema.Candidate.settle_adds hover hnone] at hinsert
    exact e.insertOrReplace_ok hfits hprepared hinsert (s.checkReferences_add hfound h row)
  · have honly : ∀ r ∈ t.rows, t.Collides row r → r = old := fun r hr => (hcollides r hr).mp
    obtain ⟨t', new, hsettled, htakes⟩ :=
      hrow.settle_takesOver h ht hover hold honly hsame
    obtain ⟨d, hrun, hd⟩ := e.insertOrReplace_ok hfits hprepared (hinsert.trans hsettled)
      (htakes.checkReferences ht hold hfound h hrefers)
    exact ⟨d, t', new, hrun, hd, htakes⟩
  · obtain ⟨k, hk, hshared, hsettled⟩ := hrow.settle_refuses h ht hover hold
      ((hcollides old hold).mpr rfl) (fun r hr => (hcollides r hr).mp) hother
    exact ⟨k, hk, hshared, e.insertOrReplace_error hfits hprepared (hinsert.trans hsettled)⟩

/-- Accounts with a number that is the primary key, and a unique address. -/
def accounts : Schema :=
  ⟨"Account", [("id", .primaryKey (.int .int64)), ("email", .unique .text), ("n", .int .int32)].map
    RecordType.named⟩

/-- A connection to a database with two of them. -/
def withAccounts : SqliteConnection Store :=
  let e := Engine.default
  let created := (((Work.createTable accounts false).action e).outcome (.ofDatabase .empty)).2
  let records : List accounts.Record := [(⟨1, by decide⟩, "a@x", ⟨1, by decide⟩, ()),
    (⟨2, by decide⟩, "b@x", ⟨2, by decide⟩, ())]
  (((Work.insert accounts records).action e).outcome created).2

/-- The table that holds them. -/
def accountTable : StoredTable where
  rule := ⟨"Account", [⟨"id", .integer, true⟩, ⟨"email", .text, true⟩, ⟨"n", .integer, true⟩],
    some 0, false, [[1]], []⟩
  rows := [⟨1, [.integer 1, .text "a@x", .integer 1]⟩, ⟨2, [.integer 2, .text "b@x", .integer 2]⟩]
  lastId := 2

/-- An engine made the table. -/
theorem withAccounts_built : Built withAccounts.database.tables :=
  .worked (.worked .new Engine.default (.createTable accounts false)) Engine.default
    (.insert accounts _)

/-- There is no other table. -/
theorem withAccounts_tables : withAccounts.database.tables = [accountTable] := by
  decide +kernel

theorem withAccounts_found :
    withAccounts.database.tables.find? accounts.table = some accountTable := by
  rw [withAccounts_tables]
  decide +kernel

/-- An account whose number is there already gets another address. -/
theorem insertOrReplace_resolves_account :
    let record : accounts.Record := (⟨1, by decide⟩, "c@x", ⟨9, by decide⟩, ())
    let row : StoredRow := ⟨1, [.integer 1, .text "c@x", .integer 9]⟩
    let old : StoredRow := ⟨1, [.integer 1, .text "a@x", .integer 1]⟩
    ∃ d t' new, Engine.default.insertOrReplace accounts [record] withAccounts = .ok () d ∧
      d.database = { withAccounts.database with tables := withAccounts.database.tables.put t' } ∧
      accounts.TakesOver row old new accountTable t' := by
  intro record row old
  have hadmissible : accounts.IsAdmissible := ⟨_, rfl, by decide⟩
  have hforeign : ∀ i, (accounts.properties i).foreignKey = none := by decide +kernel
  have hsends : accounts.insertable ≠ [] := by decide +kernel
  have hmade : ofStatement (accounts.createTable true) = .ok accountTable.rule := by decide +kernel
  have hfits : checkRow accounts.insertable (accounts.toRow record) = .ok () := rfl
  obtain ⟨row', hholds, -, -, hcollides⟩ := insertOrReplace_resolves Engine.default hadmissible
    hforeign hsends withAccounts_built withAccounts_found hmade hfits
    fun _ => ⟨3, by decide +kernel⟩
  have hrow : accountTable.rule.Holds accounts.insertable (accounts.toRow record) row :=
    ⟨by decide +kernel, rfl, by decide +kernel, by decide +kernel, by decide +kernel⟩
  have hid : row'.id = row.id := by
    have hgiven := hholds.id 0 (by decide) rfl (by decide +kernel)
    have hone : StoredTable.idOf
        (accountTable.rule.given accounts.insertable (accounts.toRow record) 0) = .ok 1 := by
      decide +kernel
    exact Except.ok.inj (hgiven.symm.trans hone)
  obtain rfl := hholds.eq_of_id hrow hid
  obtain ⟨hover, -⟩ := hcollides old (by decide +kernel) (by decide +kernel)
  refine hover ⟨⟨⟨0, by decide⟩, by decide +kernel⟩, by decide +kernel⟩ ?_
  rw [withAccounts_tables]
  intro u hu k hk
  obtain rfl := List.mem_singleton.mp hu
  cases hk

/-- **A record may be refused though it was to overwrite.** Of the two accounts that are there, the
record shares a key with the first one only, and not its number but its address. -/
theorem insertOrReplace_uniqueFailed :
    let record : accounts.Record := (⟨3, by decide⟩, "a@x", ⟨5, by decide⟩, ())
    let row : StoredRow := ⟨3, [.integer 3, .text "a@x", .integer 5]⟩
    let old : StoredRow := ⟨1, [.integer 1, .text "a@x", .integer 1]⟩
    Built withAccounts.database.tables ∧
      withAccounts.database.tables.find? accounts.table = some accountTable ∧
      (∀ i, (accounts.properties i).foreignKey = none) ∧ (∃ i, accounts.IsKey i) ∧
      checkRow accounts.insertable (accounts.toRow record) = .ok () ∧
      accountTable.rule.Holds accounts.insertable (accounts.toRow record) row ∧
      (∀ r ∈ accountTable.rows, accountTable.Collides row r ↔ r = old) ∧
      ∃ d, Engine.default.insertOrReplace accounts [record] withAccounts =
        .error (inRow 0 (insertFault "UNIQUE constraint failed: Account.email")) d := by
  intro record row old
  have hrow : accountTable.rule.Holds accounts.insertable (accounts.toRow record) row :=
    ⟨by decide +kernel, rfl, by decide +kernel, by decide +kernel, by decide +kernel⟩
  have hfits : checkRow accounts.insertable (accounts.toRow record) = .ok () := rfl
  have hinsert : accountTable.insert ⟨[0, 1, 2], .overwrite .rowId [1, 2]⟩
      ((accounts.toRow record).map .ofCell) = .error "UNIQUE constraint failed: Account.email" := by
    decide +kernel
  have hprepared : withAccounts.database.tables.prepare (accounts.insert true) =
      .ok (accountTable, ⟨[0, 1, 2], .overwrite .rowId [1, 2]⟩) := by
    rw [withAccounts_tables]
    decide +kernel
  obtain ⟨d, hrun, -⟩ := Engine.default.insertOrReplace_error hfits hprepared hinsert
  exact ⟨withAccounts_built, withAccounts_found, by decide +kernel,
    ⟨⟨0, by decide⟩, by decide +kernel⟩, hfits, hrow, by decide +kernel, d, hrun⟩

end Engine

end SqlRecords
