import SqlRecords.Proofs.Engine.InsertOrWrite
import SqlRecords.Proofs.Record.Checked
import SqlRecords.Proofs.Session.Scope
import SqlRecords.Proofs.Sqlite.Upserting

/-!
# What engines make of the table of some records

Engines make the table of a record type and drop it, insert records one way or another, update and
delete them (`Reached`). Each of these works may fail, and may then have done a part. Whatever is
done, the table stores records: no key is there twice, and each row is that of a record whose
numbers fit. Only an UPDATE could leave other rows behind, as it writes what it is told to; the ones
that are allowed here do not.

## What is proved

* `StoredIn.madeBy`, `StoredIn.drop`, `StoredIn.delete`, `StoredIn.update`: what a statement keeps.
* **`Work.storedIn`**: what a work keeps, whether it succeeds or fails.
* **`Reached.storedIn`**: what all of them keep together.
-/

namespace SqlRecords

open Sqlite TableRule SqliteConnection

/-! ### Statements -/

namespace Sqlite

/-- All of some results are among them. -/
theorem Query.mem_of_allOrError {α : Type} : ∀ {results : List (Except String α)} {as : List α},
    allOrError results = .ok as → ∀ a ∈ as, .ok a ∈ results
  | [], _, h, a, ha => by
    cases h
    cases ha
  | .ok b :: rest, as, h, a, ha => by
    obtain ⟨bs, hbs, rfl⟩ := Except.map_eq_ok_iff.mp h
    rcases List.mem_cons.mp ha with rfl | ha
    · exact List.mem_cons_self
    · exact List.mem_cons_of_mem _ (mem_of_allOrError hbs a ha)
  | .error _ :: _, _, h, _, _ => by cases h

/-- The rows that a condition holds for are among the rows of the table. -/
theorem Scope.mem_of_matching {s : Scope} {filter : Option (Expr Nat)} {rows : List StoredRow}
    {row : StoredRow} (h : .ok row ∈ s.matching filter rows) : row ∈ rows := by
  obtain ⟨r, hr, hkept⟩ := List.mem_filterMap.mp h
  split at hkept
  · cases hkept
    exact hr
  · cases hkept
  · cases hkept

namespace Tables

variable {ts ts' : Tables} {t t' : StoredTable}

theorem find?_of_mentioned? {table : Table} (h : ts.mentioned? table = some t) :
    ts.find? table.name = some t := by
  unfold mentioned? at h
  split at h
  · exact h
  · cases h

/-- A table of some records that is dropped is there no more. -/
theorem drop_ok {s : Schema} {ifExists : Bool} (h : ts.drop (s.drop ifExists) = .ok ts') :
    ts' = ts ∨ ts' = List.filter (fun u => !sameName u.rule.name s.table) ts := by
  unfold drop at h
  simp only [Schema.drop] at h
  split at h
  · next hkind _ => cases hkind
  · next hkind _ => cases hkind
  · cases ifExists <;> cases h
    exact .inl rfl
  · obtain ⟨-, -, h⟩ := Except.bind_eq_ok_iff.mp h
    cases h
    exact .inr rfl

/-- A DELETE takes rows away from a table. -/
theorem delete_ok {d : DeleteFrom} (h : ts.delete d = .ok ts') :
    ∃ t p, ts.find? d.table.name = some t ∧ ts' = ts.put { t with rows := t.rows.filter p } := by
  simp only [delete, Except.bind_eq_ok_iff] at h
  obtain ⟨t, ht, filter, -, ⟨⟩, -, rows, -, h⟩ := h
  exact ⟨t, _, find?_of_mentioned? (get_ok ht), checkReferences_ok h⟩

/-- An UPDATE changes rows of a table one after the other. -/
theorem update_ok {u : Update} (h : ts.update u = .ok ts') :
    ∃ t t' scope sets rows, ts.find? u.table.name = some t ∧ (∀ row ∈ rows, row ∈ t.rows) ∧
      updateRows scope sets rows t = .ok t' ∧ ts' = ts.put t' := by
  simp only [update, Except.bind_eq_ok_iff] at h
  obtain ⟨t, ht, sets, -, filter, -, ⟨⟩, -, rows, hrows, t', hupdated, h⟩ := h
  exact ⟨t, t', _, sets, rows, find?_of_mentioned? (get_ok ht),
    fun row hrow => Scope.mem_of_matching (Query.mem_of_allOrError hrows row hrow), hupdated,
    checkReferences_ok h⟩

/-- An UPDATE keeps row ids that are no column. -/
theorem updateRows_ids {s : Scope} {sets : List (Nat × Expr Nat)} {bound : Int} :
    ∀ {rows : List StoredRow} {t t' : StoredTable}, updateRows s sets rows t = .ok t' →
      t.rule.rowId = none → (∀ row ∈ rows, row.id ≤ bound) → (∀ row ∈ t.rows, row.id ≤ bound) →
        ∀ row ∈ t'.rows, row.id ≤ bound
  | [], t, t', h, _, _, ht => by
    cases h
    exact ht
  | row :: rest, t, t', h, hnone, hrows, ht => by
    simp only [updateRows, Except.bind_eq_ok_iff] at h
    obtain ⟨values, -, u, hchange, h⟩ := h
    obtain ⟨id, hid, -, rfl⟩ := StoredTable.change_ok hchange
    obtain rfl : id = row.id := by
      refine hid.resolve_right ?_
      rintro ⟨_, _, hi, _⟩
      rw [hnone] at hi
      cases hi
    refine updateRows_ids h hnone (fun r hr => hrows r (List.mem_cons_of_mem row hr)) fun r hr => ?_
    rcases StoredTable.mem_replace.mp hr with rfl | ⟨hr, -⟩
    · exact hrows row List.mem_cons_self
    · exact ht r hr

end Tables

end Sqlite

namespace SqliteConnection

/-- A statement that is executed changes the tables, or nothing if it fails. -/
theorem execute_ensures (s : Statement) (c : SqliteConnection Store) :
    Ensures (execute s) c (fun _ d => c.database.tables.execute s = .ok d.database.tables)
      (fun _ d => d.database = c.database) :=
  (ensures_onDatabase _ _).mpr
    (Store.ensures_step.mpr ⟨fun _ hd => (Store.changing_ok hd).2, fun _ _ => rfl⟩)

end SqliteConnection

namespace Schema.StoredIn

variable {s : Schema} {rule : TableRule} {n : Nat} {ts ts' : Tables}

/-! ### What a statement keeps -/

/-- It does not matter if fewer records were inserted. -/
theorem mono {m : Nat} (hts : StoredIn s rule n ts) (h : n ≤ m) : StoredIn s rule m ts :=
  fun t ht => (hts t ht).mono h

/-- A table that is made has no rows. -/
theorem madeBy (h : IsKeyedTableOf s rule) (hts : StoredIn s rule n ts) {ifNotExists : Bool}
    (hmade : Tables.MadeBy (s.createTable ifNotExists) ts ts') : StoredIn s rule n ts' := by
  obtain rfl | ⟨hnone, rule', hrule, rfl⟩ := hmade
  · exact hts
  obtain rfl : rule = rule' := Except.ok.inj (h.made.symm.trans hrule)
  have hnone : ts.find? s.table = none := hnone
  have hname : sameName rule.name s.table = true := by
    rw [Tables.name_ofStatement h.made]
    exact sameName_refl s.table
  intro t ht
  rw [Tables.find?_append, hnone, Option.none_or, if_pos hname] at ht
  cases ht
  exact .empty s rule n 0

/-- A table that is dropped stores nothing. -/
theorem drop (hts : StoredIn s rule n ts) {ifExists : Bool}
    (hdrop : ts.drop (s.drop ifExists) = .ok ts') : StoredIn s rule n ts' := by
  obtain rfl | rfl := Tables.drop_ok hdrop
  · exact hts
  intro t ht
  have hgone := (List.mem_filter.mp (List.mem_of_find?_eq_some ht)).2
  rw [Tables.sameName_of_find? ht] at hgone
  cases hgone

/-- Another table may come in place of that of some name, if it stores records where that one
does. -/
theorem put_found (hts : StoredIn s rule n ts) {name : String} {t t' : StoredTable}
    (ht : ts.find? name = some t) (hrule : t'.rule = t.rule)
    (ht' : ts.find? s.table = some t → Stores s rule n t → Stores s rule n t') :
    StoredIn s rule n (ts.put t') := by
  cases hname : sameName t.rule.name s.table with
  | true =>
    have hsame : sameName name s.table = true := by
      rw [← sameName_congr (Tables.sameName_of_find? ht)]
      exact hname
    rw [Tables.find?_congr hsame] at ht
    exact hts.put ht (ht' ht (hts t ht))
  | false => exact hts.put_other hrule hname

/-- A DELETE leaves records behind. -/
theorem delete (hts : StoredIn s rule n ts) {d : DeleteFrom} (hdelete : ts.delete d = .ok ts') :
    StoredIn s rule n ts' := by
  obtain ⟨t, p, ht, rfl⟩ := Tables.delete_ok hdelete
  refine hts.put_found ht rfl fun _ hstores => ?_
  have hmem : ∀ row ∈ t.rows.filter p, row ∈ t.rows := fun row hrow => (List.mem_filter.mp hrow).1
  exact ⟨hstores.sameRule, hstores.sound.filter p,
    fun row hrow => hstores.holds row (hmem row hrow),
    fun hnone row hrow => hstores.ids hnone row (hmem row hrow)⟩

/-- An UPDATE leaves records behind if all rows are those of records then. -/
theorem update (hts : StoredIn s rule n ts) {u : Update} (hupdate : ts.update u = .ok ts')
    (hrows : ∀ row ∈ ts'.rowsOf s.table,
      ∃ record, s.Kept record ∧ rule.Holds s.insertable (s.toRow record) row) :
    StoredIn s rule n ts' := by
  obtain ⟨t, t', scope, sets, rows, ht, hmem, hupdated, rfl⟩ := Tables.update_ok hupdate
  have hrule := Tables.updateRows_rule hupdated
  refine hts.put_found ht hrule fun hfound hstores => ?_
  have hname : sameName t'.rule.name s.table = true := hrule ▸ Tables.sameName_of_find? hfound
  rw [Tables.rowsOf_of_find? (Tables.find?_put_self hfound hname)] at hrows
  refine ⟨hrule.trans hstores.sameRule, Tables.updateRows_sound hupdated hstores.sound, hrows,
    fun hnone => ?_⟩
  exact Tables.updateRows_ids hupdated (hstores.sameRule ▸ hnone)
    (fun row hrow => hstores.ids hnone row (hmem row hrow)) (hstores.ids hnone)

end Schema.StoredIn

namespace Engine

/-! ### Works -/

/-- A work is done on the table of some records, of which it sends so many. A DELETE may also be
done on another table. -/
inductive Work.IsOn (s : Schema) : Work → Nat → Prop where
  /-- The table is made. -/
  | createTable (ifNotExists : Bool) : IsOn s (.createTable s ifNotExists) 0
  /-- The table is dropped. -/
  | dropTable (ifExists : Bool) : IsOn s (.dropTable s ifExists) 0
  /-- Records are inserted. -/
  | insert (records : List s.Record) : IsOn s (.insert s records) records.length
  /-- Records are inserted, overwriting rows that are there already. -/
  | insertOrReplace (records : List s.Record) : IsOn s (.insertOrReplace s records) records.length
  /-- Records are loaded in bulk. -/
  | write (records : List s.Record) : IsOn s (.write s records) records.length
  /-- Rows are deleted. -/
  | deleteFrom (d : DeleteFrom) : IsOn s (.deleteFrom d) 0
  /-- Anything is read. -/
  | readAll (other : Schema) (q : Select) : IsOn s (.readAll other q) 0

/-- **What a work keeps**, whether it succeeds or fails: the table stores records. -/
theorem Work.storedIn {r : RecordType} {rule : TableRule} (h : IsKeyedTableOf r.schema rule)
    (e : Engine) {w : Work} {k : Nat} (hw : w.IsOn r.schema k) {n : Nat}
    {c : SqliteConnection Store} (hts : r.schema.StoredIn rule n c.database.tables) :
    r.schema.StoredIn rule (n + k) ((w.action e).outcome c).2.database.tables := by
  -- A record is sent like its normal form, which the columns keep.
  have hrows : ∀ records : List r.schema.Record,
      records.map r.schema.toRow = (records.map r.normalize).map r.schema.toRow := fun records => by
    rw [List.map_map]
    exact List.map_congr_left fun a _ => (r.toRow_normalize a).symm
  have hkept : ∀ records : List r.schema.Record, ∀ a ∈ records.map r.normalize,
      checkRow r.schema.insertable (r.schema.toRow a) = .ok () → r.schema.Kept a := by
    intro records a ha hchecked
    obtain ⟨b, -, rfl⟩ := List.mem_map.mp ha
    rw [r.toRow_normalize] at hchecked
    exact r.kept_normalize (r.signed_of_checkRow h.plain hchecked)
  have hintake : ∀ (orReplace : Bool) (records : List r.schema.Record) {ts : Tables},
      r.schema.StoredIn rule n ts → r.schema.StoredIn rule (n + records.length)
        (intake (r.schema.insert orReplace) (records.map r.schema.toRow) ts).2 := by
    intro orReplace records ts hts
    have htaken := hts.intake h orReplace (hkept records)
    rwa [List.length_map, ← hrows] at htaken
  -- The rows of an INSERT are taken up to the first that is refused.
  have hinsert : ∀ (orReplace : Bool) (records : List r.schema.Record),
      Ensures (e.insertWith (r.schema.insert orReplace) (records.map r.schema.toRow)) c
        (fun _ d => r.schema.StoredIn rule (n + records.length) d.database.tables)
        (fun _ d => r.schema.StoredIn rule (n + records.length) d.database.tables) := by
    intro orReplace records
    have htaken := hintake orReplace records hts
    refine (e.insertWith_ensures (r.schema.insert orReplace) _ c).mono (fun _ d hd => ?_)
      (fun _ d hd => ?_)
    · rwa [show intake _ _ _ = _ from hd.2] at htaken
    · rwa [hd.2.2] at htaken
  refine Ensures.state
    (p := fun d : SqliteConnection Store => r.schema.StoredIn rule (n + k) d.database.tables) ?_
  cases hw with
  | createTable ifNotExists =>
    exact (createTable_ensures r.schema c).mono (fun _ _ hd => hts.madeBy h hd.2.1)
      (fun _ _ hd => hd ▸ hts)
  | dropTable ifExists =>
    exact (execute_ensures _ c).mono (fun _ _ hd => hts.drop hd) (fun _ _ hd => hd ▸ hts)
  | insert records => exact hinsert false records
  | insertOrReplace records => exact hinsert true records
  | write records =>
    refine (e.write_takes_made r.schema records c).mono (fun _ d hd => ?_) (fun _ d hd => ?_)
    · obtain ⟨base, hmade, htakes⟩ := hd
      have htaken := hintake false records (hts.madeBy h hmade)
      rwa [show intake _ _ _ = _ from htakes] at htaken
    · exact (hts.madeBy h hd).mono (Nat.le_add_right n records.length)
  | deleteFrom d =>
    exact (execute_ensures _ c).mono (fun _ _ hd => hts.delete hd) (fun _ _ hd => hd ▸ hts)
  | readAll other q =>
    simp only [Work.action, ensures_bind]
    have hkeeps : ∀ d, SameView Store.tables c d →
        r.schema.StoredIn rule (n + 0) d.database.tables := by
      intro d hd
      rwa [hd.viewed]
    exact (e.readAll_sameView ((Store.query_leaves q).map Store.tables) c).mono
      (fun _ d hd => hkeeps d hd) (fun _ d hd => hkeeps d hd)

end Engine

/-! ### Works one after the other -/

/-- The row is that of a record whose numbers fit. -/
def RecordType.IsRow (r : RecordType) (row : StoredRow) : Prop :=
  ∃ rule record, ofStatement (r.schema.createTable true) = .ok rule ∧ r.Signed record ∧
    rule.Holds r.schema.insertable (r.schema.toRow record) row

namespace Engine

/-- Engines make these tables of an empty database, sending so many records. Transactions do not
matter here: a rollback leads back to tables that were reached before. -/
inductive Reached (r : RecordType) : Nat → Tables → Prop where
  /-- There is nothing yet. -/
  | new : Reached r 0 []
  /-- An engine works on the table of the records, and succeeds or fails. -/
  | worked {n : Nat} {c : SqliteConnection Store} (hreached : Reached r n c.database.tables)
    (e : Engine) {w : Work} {k : Nat} (hw : w.IsOn r.schema k) :
    Reached r (n + k) ((w.action e).outcome c).2.database.tables
  /-- Rows are updated, and then all of them are rows of records. -/
  | updated {n : Nat} {c : SqliteConnection Store} (hreached : Reached r n c.database.tables)
    (u : Update) {d : SqliteConnection Store} (hd : Engine.update u c = .ok () d)
    (hrows : ∀ row ∈ d.database.tables.rowsOf r.table, r.IsRow row) :
    Reached r n d.database.tables
  /-- Something is done to other tables. -/
  | elsewhere {n : Nat} {ts ts' : Tables} (hreached : Reached r n ts)
    (hsame : ts'.find? r.table = ts.find? r.table) : Reached r n ts'

/-- **The table stores records**, whatever engines have done. -/
theorem Reached.storedIn {r : RecordType} {rule : TableRule} (h : IsKeyedTableOf r.schema rule)
    {n : Nat} {ts : Tables} (hreached : Reached r n ts) : r.schema.StoredIn rule n ts := by
  induction hreached with
  | new => exact nofun
  | worked _ e hw ih => exact Work.storedIn h e hw ih
  | @updated n c _ u d hd hrows ih =>
    have hupdate : c.database.tables.update u = .ok d.database.tables :=
      (execute_ensures (.update u) c).of_ok hd
    refine ih.update hupdate fun row hrow => ?_
    obtain ⟨rule', record, hrule, hsigned, hheld⟩ := hrows row hrow
    obtain rfl : rule = rule' := Except.ok.inj (h.made.symm.trans hrule)
    rw [← r.toRow_normalize] at hheld
    exact ⟨r.normalize record, r.kept_normalize hsigned, hheld⟩
  | elsewhere _ hsame ih => exact fun t ht => ih t (hsame ▸ ht)

end Engine

end SqlRecords
