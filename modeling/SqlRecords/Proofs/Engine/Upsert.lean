import SqlRecords.Proofs.Engine.Reached

/-!
# Upserts overwrite a table key by key

Records are inserted into a table that may hold others with the same primary keys, and overwrite
these. Seen as a map from primary keys to records, the table is then the map that it was,
overwritten by the records in their order: the last of some records with the same key stays, and
so do the records of all other keys. How the records are cut into pieces does not matter, nor
whether a key is one column or several, or all of them.

## What is proved

* `StoredIn.selectAll`: the records that a table stores are those that are read from it.
* **`Engine.insertOrReplace_overwrites`**: an upsert of compatible records into a table that engines
  have worked on succeeds and overwrites it; the same upsert once more changes nothing.
* `Engine.insertOrReplace_overwrites_fails`: upserts that fail for a reference to the table, or
  overwrite too much because timestamps are not in normal form.
-/

namespace SqlRecords

open Sqlite TableRule SqliteConnection

namespace Sqlite.Tables

/-- Each name has a table that is like that of the same name among others, and has the same rows. -/
def SameRows (ts ts' : Tables) : Prop :=
  ∀ name, (ts.find? name).map (fun t => (t.rule, t.rows)) =
    (ts'.find? name).map fun t => (t.rule, t.rows)

end Sqlite.Tables

namespace Schema

variable {s : Schema} {rule : TableRule} {n : Nat}

/-- **A map from primary keys to records is overwritten** by some records in their order. -/
structure Overwritten (s : Schema) (old records new : List s.Record) : Prop where
  /-- There is one record for each key. -/
  keys : new.Pairwise fun a b => ¬s.SameKey a b
  /-- The last ones of each key are there, and the old ones of all other keys. -/
  mem_iff : ∀ b, b ∈ new ↔ s.IsLast records b ∨ b ∈ old ∧ ∀ a ∈ records, ¬s.SameKey a b

/-- Whether two records are compatible can be told from their cells. -/
theorem compatible_of_cells {a b : s.Record} (ha : s.Kept a) (hb : s.Kept b)
    (hplain : ∀ i, ¬s.IsNumbered i)
    (h : ∀ i, s.IsUnique i → s.cell a i = s.cell b i → s.cell a i ≠ none →
      ∀ j, s.IsKey j → s.cell a j = s.cell b j) : s.Compatible a b := by
  intro i hi hvalue hsome j hj
  exact ha.value_eq hb (hplain j) (h i hi (congrArg _ hvalue) hsome j hj)

theorem mem_of_isLast {records : List s.Record} {b : s.Record} (h : s.IsLast records b) :
    b ∈ records := by
  obtain ⟨before, after, rfl, -⟩ := h
  simp

/-- **The records that a table stores are read from it**, one for each key. -/
theorem StoredIn.selectAll (e : Engine) (h : IsKeyedTableOf s rule) {c : SqliteConnection Store}
    {t : StoredTable} (hts : StoredIn s rule n c.database.tables)
    (hfound : c.database.tables.find? s.table = some t) :
    ∃ back, e.selectAll s c = .ok back c ∧ t.rows.mapM s.ofStored = .ok back ∧
      (∀ b, b ∈ back ↔ s.Contains rule t b) ∧ back.Pairwise fun a b => ¬s.SameKey a b := by
  have ht := hts t hfound
  have hholds : ∀ row : { row // row ∈ t.rows }, ∃ b, s.Kept b ∧
      rule.Holds s.insertable (s.toRow b) row.1 := fun row => ht.holds row.1 row.2
  choose record hkept hheld using hholds
  have hrows : t.rows.attach.map Subtype.val = t.rows := List.attach_map_subtype_val t.rows
  have hread : ∀ row, s.ofStored row.1 = .ok (record row) := fun row =>
    h.ofStored_plain h.hasTable h.plain (hkept row) (hheld row)
  have hall : List.Forall₂ (fun row record => s.ofStored row = .ok record)
      (t.rows.attach.map Subtype.val) (t.rows.attach.map record) := by
    rw [List.forall₂_map_left_iff, List.forall₂_map_right_iff, List.forall₂_same]
    exact fun row _ => hread row
  rw [hrows] at hall
  refine ⟨t.rows.attach.map record, ?_, Except.mapM_eq_ok_of_forall₂ hall, fun b => ?_, ?_⟩
  · exact e.readAll_ok
      (Tables.query_all hfound (ht.sameRule ▸ h.made) h.hasTable.fields_ne_nil) hall
  · rw [List.mem_map]
    constructor
    · rintro ⟨row, -, rfl⟩
      exact ⟨hkept row, row.1, row.2, hheld row⟩
    · rintro ⟨hb, row, hrow, hrowHeld⟩
      exact ⟨⟨row, hrow⟩, List.mem_attach _ _, h.eq_of_holds (hkept _) hb (hheld _) hrowHeld⟩
  · have hsorted := ht.sound.sorted
    rw [← hrows, List.pairwise_map] at hsorted
    refine List.pairwise_map.mpr (hsorted.imp fun {row other} hlt hsame => ?_)
    have heq := ht.row_eq h (hkept row) (hkept other) row.2 other.2 (hheld row) (hheld other) hsame
    exact Int.ne_of_lt hlt (congrArg _ heq)

end Schema

namespace Engine

variable {s : Schema} {rule : TableRule} {n : Nat} {c : SqliteConnection Store} {t : StoredTable}

/-- An upsert of compatible records succeeds, whatever the size of the pieces. -/
theorem insertOrReplace_upserts (e : Engine) (h : IsKeyedTableOf s rule)
    {all records : List s.Record} (hfits : ∀ a ∈ all, ∀ b ∈ all, s.Compatible a b)
    (hts : s.StoredIn rule n c.database.tables) (hfound : c.database.tables.find? s.table = some t)
    (hrecords : ∀ a ∈ records, s.Kept a ∧ a ∈ all) (hthere : ∀ b, s.Contains rule t b → b ∈ all)
    (hrefers : s.KeepsReferences c.database.tables)
    (hroom : ((n + records.length : Nat) : Int) ≤ StoredTable.maxId) :
    ∃ d t', e.insertOrReplace s records c = .ok () d ∧
      s.StoredIn rule (n + records.length) d.database.tables ∧
      d.database.tables.find? s.table = some t' ∧ s.Upserts rule records t t' ∧
      s.KeepsReferences d.database.tables ∧
      ∀ other, sameName s.table other = false →
        d.database.tables.find? other = c.database.tables.find? other := by
  obtain ⟨ts', t', htakes, hts', hfound', hrun, hrefers', hothers⟩ :=
    hts.upserts h hfits hfound hrecords hthere hrefers hroom
  have hends := e.insertWith_ensures (s.insert true) (records.map s.toRow) c
  cases hinsert : e.insertOrReplace s records c with
  | ok x d =>
    obtain ⟨-, htakes'⟩ := hends.of_ok hinsert
    obtain rfl := htakes.eq htakes'
    exact ⟨d, t', rfl, hts', hfound', hrun, hrefers', hothers⟩
  | error err d => exact absurd (hends.of_error hinsert).2 htakes.not_stops

/-- **Upserts overwrite a table key by key.** Take a type of records with a primary key of which the
database numbers no column, a connection to a database whose table for them was made by engines,
and records whose numbers fit in signed ones and whose timestamps are in normal form. Other tables
may refer to that of the records by the columns of its key, and by no others. The table can be read,
and has one record for each key. If no two records with different keys, of those that are read and
those that are inserted, share a unique value that is not NULL, then inserting them succeeds, with
any batch size; and what is read afterwards is the old map from keys to records, overwritten by the
records in their order. The same call once more succeeds as well, and leaves all rows of all tables
as they are. The bound is that of row ids, of which each record that is sent takes one at most. -/
theorem insertOrReplace_overwrites (e : Engine) (r : RecordType) (hkey : ∃ i, r.schema.IsKey i)
    (hplain : ∀ i, ¬r.schema.IsNumbered i) (hreached : Reached r n c.database.tables)
    (hthere : (c.database.tables.find? r.table).isSome) {records : List r.schema.Record}
    (hsigned : ∀ record ∈ records, r.Signed record)
    (hnormal : ∀ record ∈ records, r.IsNormal record)
    (hrefers : r.schema.KeepsReferences c.database.tables)
    (hroom : ((n + 2 * records.length : Nat) : Int) ≤ StoredTable.maxId) :
    ∃ old, e.selectAll r.schema c = .ok old c ∧
      (old.Pairwise fun a b => ¬r.schema.SameKey a b) ∧
      ((∀ a ∈ old ++ records, ∀ b ∈ old ++ records, r.schema.Compatible a b) →
        ∃ d new, e.insertOrReplace r.schema records c = .ok () d ∧
          e.selectAll r.schema d = .ok new d ∧ r.schema.Overwritten old records new ∧
          ∃ d', e.insertOrReplace r.schema records d = .ok () d' ∧
            e.selectAll r.schema d' = .ok new d' ∧
            d'.database.tables.SameRows d.database.tables) := by
  obtain ⟨rule, htable⟩ := r.hasTable.isTableOf
  have h : IsKeyedTableOf r.schema rule := ⟨htable, r.hasTable, hplain, hkey⟩
  have hts := hreached.storedIn h
  obtain ⟨t, hfound⟩ := Option.isSome_iff_exists.mp hthere
  obtain ⟨old, hold, -, hmem, hkeys⟩ := hts.selectAll e h hfound
  refine ⟨old, hold, hkeys, fun hfits => ?_⟩
  have hrecords : ∀ a ∈ records, r.schema.Kept a ∧ a ∈ old ++ records := fun a ha =>
    ⟨r.kept (hsigned a ha) (hnormal a ha), List.mem_append_right old ha⟩
  obtain ⟨d, t', hinsert, hts', hfound', hrun, hrefers', -⟩ :=
    e.insertOrReplace_upserts h hfits hts hfound hrecords
      (fun b hb => List.mem_append_left records ((hmem b).mpr hb)) hrefers (by omega)
  obtain ⟨new, hnew, hread, hmem', hkeys'⟩ := hts'.selectAll e h hfound'
  have hover : r.schema.Overwritten old records new :=
    ⟨hkeys', fun b => by rw [hmem', hrun.contains_iff h, hmem]⟩
  -- What is there now was there, or was inserted.
  have hknown : ∀ b, r.schema.Contains rule t' b → b ∈ old ++ records := by
    intro b hb
    rcases (hover.mem_iff b).mp ((hmem' b).mpr hb) with hlast | ⟨hb, -⟩
    · exact List.mem_append_right old (Schema.mem_of_isLast hlast)
    · exact List.mem_append_left records hb
  obtain ⟨d', t'', hinsert', hts'', hfound'', hrun', -, hothers⟩ :=
    e.insertOrReplace_upserts h hfits hts' hfound' hrecords hknown hrefers' (by omega)
  have ht' := hts' t' hfound'
  have ht'' := hts'' t'' hfound''
  have hrows : t''.rows = t'.rows := hrun.rows_eq h ht' ht'' hrun'
  obtain ⟨again, hagain, hread', -⟩ := hts''.selectAll e h hfound''
  rw [hrows, hread] at hread'
  cases hread'
  refine ⟨d, new, hinsert, hnew, hover, d', hinsert', hagain, fun name => ?_⟩
  cases hname : sameName r.schema.table name with
  | true =>
    rw [← Tables.find?_congr hname, ← Tables.find?_congr hname, hfound', hfound'', Option.map_some,
      Option.map_some, hrows, ht'.sameRule, ht''.sameRule]
  | false => rw [hothers name hname]

/-- A key of two columns that comes twice, and with it a unique value that changes, the greatest
number that fits and NULL. -/
theorem insertOrReplace_overwrites_twice :
    let r : RecordType := {
      table := "stock"
      fields := [("shop", .primaryKey .text), ("item", .primaryKey (.int .int32)),
        ("code", .unique (.optional .text)), ("count", .int .uint64)]
      notReserved := by decide +kernel
      distinct := by decide +kernel
      plain := by decide +kernel
      numbering := .inl (by decide) }
    let e : Engine := ⟨⟨2⟩, rfl⟩
    let old : List r.schema.Record := [("north", ⟨1, by decide⟩, some "a", ⟨5, by decide⟩, ()),
      ("south", ⟨1, by decide⟩, none, ⟨7, by decide⟩, ())]
    let records : List r.schema.Record := [("north", ⟨1, by decide⟩, some "a", ⟨6, by decide⟩, ()),
      ("north", ⟨2, by decide⟩, none, ⟨0, by decide⟩, ()),
      ("north", ⟨1, by decide⟩, some "b", ⟨9223372036854775807, by decide⟩, ())]
    let c := ((e.write r.schema old).outcome (SqliteConnection.ofDatabase Store.empty)).2
    ∃ d new, e.insertOrReplace r.schema records c = .ok () d ∧
      e.selectAll r.schema d = .ok new d ∧ r.schema.Overwritten old records new ∧
      ∃ d', e.insertOrReplace r.schema records d = .ok () d' ∧
        e.selectAll r.schema d' = .ok new d' ∧
        d'.database.tables.SameRows d.database.tables := by
  intro r e old records c
  let rule : TableRule := ⟨"stock", [⟨"shop", .text, true⟩, ⟨"item", .integer, true⟩,
    ⟨"code", .text, false⟩, ⟨"count", .integer, true⟩], none, false, [[0, 1], [2]], []⟩
  let t : StoredTable := ⟨rule, [⟨1, [.text "north", .integer 1, .text "a", .integer 5]⟩,
    ⟨2, [.text "south", .integer 1, .null, .integer 7]⟩], 2⟩
  have hplain : ∀ i, ¬r.schema.IsNumbered i := by decide +kernel
  have htables : c.database.tables = [t] := by decide +kernel
  have hfound : c.database.tables.find? r.schema.table = some t := by
    rw [htables]
    decide +kernel
  have hmade : ofStatement (r.schema.createTable true) = .ok rule := by decide +kernel
  have hold : e.selectAll r.schema c = .ok old c :=
    e.readAll_ok (Tables.query_all hfound hmade (by decide)) (.cons rfl (.cons rfl .nil))
  have hsigned : ∀ record ∈ old ++ records, r.Signed record := by decide +kernel
  have hnormal : ∀ record ∈ old ++ records, r.IsNormal record := by decide +kernel
  have hrefers : r.schema.KeepsReferences c.database.tables := by
    rw [htables]
    intro u hu k hk
    obtain rfl := List.mem_singleton.mp hu
    cases hk
  obtain ⟨old', hold', -, hover⟩ := e.insertOrReplace_overwrites r
    ⟨⟨0, by decide⟩, by decide +kernel⟩ hplain (.worked .new e (.write old))
    (Option.isSome_iff_exists.mpr ⟨t, hfound⟩)
    (fun record hrecord => hsigned record (List.mem_append_right old hrecord))
    (fun record hrecord => hnormal record (List.mem_append_right old hrecord)) hrefers
    (by decide +kernel)
  cases hold.symm.trans hold'
  refine hover fun a ha b hb => Schema.compatible_of_cells (r.kept (hsigned a ha) (hnormal a ha))
    (r.kept (hsigned b hb) (hnormal b hb)) hplain ?_
  have hcells : ∀ a ∈ old ++ records, ∀ b ∈ old ++ records, ∀ i, r.schema.IsUnique i →
      r.schema.cell a i = r.schema.cell b i → r.schema.cell a i ≠ none →
        ∀ j, r.schema.IsKey j → r.schema.cell a j = r.schema.cell b j := by decide +kernel
  exact hcells a ha b hb

/-- **Upserts that do not overwrite.** A row of another table refers to a unique value that a record
would change: it is refused, though the records are compatible. And two timestamps that are
different but have the same text, as one has a fraction longer than a second, are taken for one
key. -/
theorem insertOrReplace_overwrites_fails :
    let accounts : RecordType := {
      table := "accounts"
      fields := [("id", .primaryKey (.int .int64)), ("email", .unique .text)]
      notReserved := by decide +kernel
      distinct := by decide +kernel
      plain := by decide +kernel
      numbering := .inl (by decide) }
    let notes : Schema := ⟨"notes", [⟨"email", _, Field.text.references ⟨"accounts", "email"⟩⟩]⟩
    let visits : RecordType := {
      table := "visits"
      fields := [("moment", .primaryKey .timestamp)]
      notReserved := by decide +kernel
      distinct := by decide +kernel
      plain := by decide +kernel
      numbering := .inl (by decide) }
    let e := Engine.default
    let new := SqliteConnection.ofDatabase Store.empty
    let old : accounts.schema.Record := (⟨1, by decide⟩, "a@x", ())
    let record : accounts.schema.Record := (⟨1, by decide⟩, "c@x", ())
    let written := ((e.write accounts.schema [old]).outcome new).2
    let made := ((createTable notes false).outcome written).2
    let c := ((e.insert notes [("a@x", ())]).outcome made).2
    let day : Date := ⟨2020, 1, 2, by decide⟩
    let a : visits.schema.Record := (⟨day, ⟨23, 56, 4, 1333333333, by decide⟩⟩, ())
    let b : visits.schema.Record := (⟨day, ⟨23, 56, 5, 333333333, by decide⟩⟩, ())
    let d := ((createTable visits.schema false).outcome new).2
    let inserted := (e.insertOrReplace visits.schema [a, b]).outcome d
    (Reached accounts 1 c.database.tables ∧ accounts.Signed record ∧ accounts.IsNormal record ∧
      e.selectAll accounts.schema c = .ok [old] c ∧ accounts.schema.Compatible old record ∧
      ((e.insertOrReplace accounts.schema [record]).outcome c).1 =
        .error (inRow 0 (insertFault "FOREIGN KEY constraint failed"))) ∧
    (Reached visits 0 d.database.tables ∧ visits.Signed a ∧ visits.Signed b ∧
      e.selectAll visits.schema d = .ok [] d ∧ visits.schema.Compatible a b ∧
      inserted.1 = .ok () ∧ e.selectAll visits.schema inserted.2 = .ok [b] inserted.2 ∧
      ¬visits.schema.Overwritten [] [a, b] [b]) := by
  intro accounts notes visits e new old record written made c day a b d inserted
  constructor
  · let rule : TableRule := ⟨"accounts", [⟨"id", .integer, true⟩, ⟨"email", .text, true⟩],
      some 0, false, [[1]], []⟩
    have hfound : c.database.tables.find? accounts.schema.table =
        some ⟨rule, [⟨1, [.integer 1, .text "a@x"]⟩], 1⟩ := by decide +kernel
    have hmade : ofStatement (accounts.schema.createTable true) = .ok rule := by decide +kernel
    have hreached : Reached accounts 1 written.database.tables :=
      .worked (c := new) .new e (.write [old])
    have hsame : accounts.schema.SameKey old record := by
      have hkey : ∀ i, accounts.schema.IsKey i → i = ⟨0, by decide⟩ := by decide +kernel
      rintro i hi
      rw [hkey i hi]
      rfl
    have hsigned : ∀ a ∈ [record], accounts.Signed a := by decide +kernel
    have hnormal : ∀ a ∈ [record], accounts.IsNormal a := by decide +kernel
    exact ⟨.elsewhere hreached (by decide +kernel), hsigned record (by simp),
      hnormal record (by simp),
      e.readAll_ok (Tables.query_all hfound hmade (by decide)) (.cons rfl .nil),
      fun _ _ _ _ => hsame, by decide +kernel⟩
  · let rule : TableRule := ⟨"visits", [⟨"moment", .text, true⟩], none, false, [[0]], []⟩
    let row : StoredRow := ⟨1, [.text "2020-01-02 23:56:05.333333333"]⟩
    have hempty : d.database.tables.find? visits.schema.table = some ⟨rule, [], 0⟩ := by
      decide +kernel
    have hfound : inserted.2.database.tables.find? visits.schema.table =
        some ⟨rule, [row], 2⟩ := by decide +kernel
    have hmade : ofStatement (visits.schema.createTable true) = .ok rule := by decide +kernel
    have htable : IsTableOf visits.schema rule := .of_made (by decide +kernel) hmade
    have hreached : Reached visits 0 d.database.tables :=
      .worked (c := new) .new e (.createTable false)
    have hsigned : ∀ record ∈ [a, b], visits.Signed record := by decide +kernel
    have hnormal : ∀ record ∈ [b], visits.IsNormal record := by decide +kernel
    have hread : visits.schema.ofStored row = .ok b :=
      htable.ofStored_plain visits.hasTable (by decide +kernel)
        (visits.kept (hsigned b (by simp)) (hnormal b (by simp)))
        ⟨by decide +kernel, rfl, by decide +kernel, by decide +kernel, by decide +kernel⟩
    have hnone : ∀ i, ¬visits.schema.IsUnique i := by decide +kernel
    have hkey : visits.schema.IsKey ⟨0, by decide⟩ := by decide +kernel
    -- The two records differ in the second.
    have hne : visits.schema.value a ⟨0, by decide⟩ ≠ visits.schema.value b ⟨0, by decide⟩ := by
      intro h
      have hsecond : (4 : Nat) = 5 := congrArg (fun t : Timestamp => t.time.second) h
      cases hsecond
    refine ⟨hreached, hsigned a (by simp), hsigned b (by simp),
      e.readAll_ok (Tables.query_all hempty hmade (by decide)) .nil,
      fun i hi => absurd hi (hnone i), by decide +kernel,
      e.readAll_ok (Tables.query_all hfound hmade (by decide)) (.cons hread .nil), fun hover => ?_⟩
    have hlast : a ∈ [b] := by
      refine (hover.mem_iff a).mpr (.inl ⟨[], [b], rfl, fun other hother hsame => ?_⟩)
      obtain rfl := List.mem_singleton.mp hother
      exact hne (hsame _ hkey).symm
    have heq : a = b := List.mem_singleton.mp hlast
    exact hne (congrArg (visits.schema.value · ⟨0, by decide⟩) heq)

end Engine

end SqlRecords
