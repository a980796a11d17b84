import Mathlib.Data.List.Nodup
import Mathlib.Data.List.Perm.Basic
import SqlRecords.Proofs.Record.Declared
import SqlRecords.Proofs.Sqlite.Connection

/-!
# Writing and reading back

Records that are loaded in bulk into a new database can be read back from it. On the way
they are cut into pieces, turned into cells, checked, bound as texts, turned into what the
columns of their table keep, stored in the order of their row ids, fetched in batches, turned
back into cells and read.

## What is proved

* `Engine.write_has`: a bulk write of records that can be stored together cannot fail, and
  their table has them then.
* `Engine.selectAll_has`: they are read back from it.
* **`Engine.selectAll_write`**: both, for all records of a type that is declared field by
  field. Timestamps come back in their normal forms, and others do not come back as they were
  (`Engine.selectAll_write_longFraction`).
-/

namespace SqlRecords

open Sqlite

namespace SqliteConnection

variable {s : Schema} {rule : TableRule}

/-! ### Rows that may be sent -/

theorem checkRange_ok : ∀ {columns : List Column} {row : Row},
    (∀ p ∈ columns.zip row, p.1.type.kind = .uint64 → ∀ text, p.2 = some text →
      exceedsSigned text = false) → checkRange columns row = .ok ()
  | [], _, _ | _ :: _, [], _ => by simp [checkRange]
  | c :: columns, none :: row, h => by
    rw [checkRange]
    exact checkRange_ok fun p hp => h p (List.mem_cons_of_mem _ hp)
  | c :: columns, some text :: row, h => by
    have hfits : (c.type.kind == .uint64 && exceedsSigned text) = false := by
      by_cases hkind : c.type.kind = .uint64
      · simp [h _ List.mem_cons_self hkind text rfl]
      · simp [hkind]
    rw [checkRange]
    simp only [hfits, Bool.false_eq_true, if_false]
    exact checkRange_ok fun p hp => h p (List.mem_cons_of_mem _ hp)

/-- A number of 64 bits with a sign does not exceed its range. -/
theorem exceedsSigned_toString (n : Int64) : exceedsSigned (toString n.toInt) = false := by
  have hread := Text.readInteger_toString n.minValue_le_toInt n.toInt_le
  simp only [exceedsSigned, hread]
  rfl

/-- The row of a record may be sent. -/
theorem checkRow_ok (hs : s.HasTable) {record : s.Record} (hrecord : s.Kept record) :
    checkRow s.insertable (s.toRow record) = .ok () := by
  rw [checkRow, if_pos (s.length_toRow hs.numbers record)]
  refine checkRange_ok fun p hp hkind text htext => ?_
  rw [s.insertable_zip_toRow hs.numbers] at hp
  obtain ⟨hmem, hsent⟩ := List.mem_filter.mp hp
  obtain ⟨k, hk, rfl⟩ := List.getElem_of_mem hmem
  obtain ⟨i, rfl, hpair⟩ := TableRule.IsTableOf.getElem_zip hk
  rw [hpair] at hsent hkind htext
  have hi : ¬s.IsNumbered i := Bool.eq_false_iff.mp ((Bool.not_eq_true' _).mp hsent)
  have hinteger : s.affinity i = .integer := by
    have hkind : (s.fields.get i).field.columnType.kind = .uint64 := hkind
    rw [Schema.affinity, hkind]
    rfl
  obtain ⟨v, hv⟩ := hrecord.keeps i hi
  have htext : s.cell record i = some text := htext
  rw [hinteger, htext] at hv
  obtain ⟨n, rfl, -⟩ := hv.idOf
  exact exceedsSigned_toString n

/-! ### The bulk write -/

/-- Records that can be stored together are sent one by one. -/
theorem sendRows_has (h : TableRule.IsTableOf s rule) (hs : s.HasTable) :
    ∀ (n : Nat) (records : List s.Record) {sent : List s.Record} {c : SqliteConnection Store},
      s.Storable (sent ++ records) → s.Has rule sent c.database.tables →
        Ensures (sendRows (insertOf s.write) n (records.map s.toRow)) c
          (fun _ d => s.Has rule (sent ++ records) d.database.tables) (fun _ _ => False)
  | _, [], sent, c, _, hc => by
    rw [List.append_nil]
    exact hc
  | n, record :: records, sent, c, hstorable, hc => by
    have hassoc : sent ++ record :: records = (sent ++ [record]) ++ records := by simp
    rw [hassoc] at hstorable ⊢
    have hfirst := hstorable.of_append
    have hrow := checkRow_ok hs (hfirst.kept record (by simp))
    obtain ⟨ts, hinsert, hts⟩ := h.insertRow_has hs hfirst hc
    have hchecked : (checkRow (insertOf s.write).columns (s.toRow record)).mapError (inRow n) =
        .ok () := by
      change (checkRow s.insertable (s.toRow record)).mapError (inRow n) = .ok ()
      rw [hrow]
      rfl
    have hstep : Store.changing (fun ts => ts.insertRow (insertOf s.write)
        ((s.toRow record).map .ofCell)) c.database = .ok { c.database with tables := ts } := by
      rw [Store.changing, hinsert]
      rfl
    rw [List.map_cons, sendRows, hchecked]
    simp only [ensures_bind, ensures_ofResult]
    refine ⟨fun _ _ => Store.ensures_onDatabase_ok hstep ?_, fun _ he => by cases he⟩
    exact sendRows_has h hs (n + 1) records hstorable hts

/-- An INSERT for the table can be prepared. -/
theorem prepareInsert_has (h : TableRule.IsTableOf s rule) (hs : s.HasTable)
    {sent : List s.Record} {c : SqliteConnection Store} (hc : s.Has rule sent c.database.tables) :
    Ensures (prepareInsert (insertOf s.write)) c
      (fun _ d => s.Has rule sent d.database.tables) (fun _ _ => False) := by
  obtain ⟨t, hts, hloaded⟩ := id hc
  have hfound : Tables.mentioned? [t] (insertOf s.write).table = some t :=
    h.find?_singleton hloaded.sameRule
  obtain ⟨insertion, hprepare, -, -⟩ := Tables.prepare_accepts rfl hs.sends hfound
    (hloaded.sameRule ▸ h.find?_insertable) (hloaded.sameRule ▸ h.foreignKeys)
  have hstep : Store.changing (fun ts => (ts.prepare (insertOf s.write)).map fun _ => ts)
      c.database = .ok c.database := by
    rw [Store.changing, hts, hprepare, ← hts]
    rfl
  unfold prepareInsert
  simp only [ensures_bind, ensures_get]
  split
  · exact hc
  · exact (ensures_bind _ _).mpr (Store.ensures_onDatabase_ok hstep hc)

/-- A bulk write that has sent some records into a new table. -/
structure Loading (s : Schema) (rule : TableRule) (sent : List s.Record)
    (c : SqliteConnection Store) : Prop where
  /-- It is in progress. -/
  active : c.writing = ⟨some (insertOf s.write)⟩
  /-- It is inside a transaction. -/
  begun : c.database.saved.isSome = true
  /-- The table has the records. -/
  has : s.Has rule sent c.database.tables

/-- A bulk write takes records that can be stored with those that it has sent. -/
theorem write_loading (h : TableRule.IsTableOf s rule) (hs : s.HasTable)
    {sent records : List s.Record} {c : SqliteConnection Store} (hc : Loading s rule sent c)
    (hstorable : s.Storable (sent ++ records)) :
    Ensures (write (records.map s.toRow)) c (fun _ d => Loading s rule (sent ++ records) d)
      (fun _ _ => False) := by
  have hsame : Ensures (insertRows (insertOf s.write) (records.map s.toRow)) c
      (fun _ d => SameView Store.saved c d) (fun _ d => SameView Store.saved c d) :=
    insertRows_sameView ((Store.prepare_leaves _).map _) (fun _ => Store.changing_leaves_saved _)
      _ c
  have hsent : Ensures (insertRows (insertOf s.write) (records.map s.toRow)) c
      (fun _ d => s.Has rule (sent ++ records) d.database.tables) (fun _ _ => False) := by
    unfold insertRows
    refine (ensures_bind _ _).mpr ((prepareInsert_has h hs hc.has).mono (fun _ d hd => ?_)
      fun _ _ he => he)
    exact sendRows_has h hs 0 records hstorable hd
  unfold write
  simp only [ensures_bind, ensures_get, ensures_ofResult, ensures_attempt, hc.active,
    WriteState.current]
  refine ⟨fun i hi => ?_, fun _ he => by cases he⟩
  cases hi
  refine (hsame.and hsent).mono (fun _ d hd => ?_) (fun _ _ hd => hd.2.elim)
  obtain ⟨hview, hhas⟩ := hd
  exact ⟨hview.writing.trans hc.active, by rw [hview.viewed]; exact hc.begun, hhas⟩

/-- A bulk write begins with a table without rows. -/
theorem startWrite_loading {c : SqliteConnection Store} (hidle : c.writing = .idle)
    (hdatabase : c.database = ⟨[⟨rule, [], 0⟩], none⟩) :
    Ensures (startWrite s.write) c (fun _ d => Loading s rule [] d) (fun _ _ => False) := by
  unfold startWrite
  simp only [ensures_bind, ensures_get, ensures_ofResult, ensures_modify, ensures_attempt, hidle,
    WriteState.start, WriteState.idle]
  refine ⟨fun writing hw => ?_, fun _ he => by cases he⟩
  cases hw
  have hbegin : Store.begin c.database = .ok ⟨[⟨rule, [], 0⟩], some [⟨rule, [], 0⟩]⟩ := by
    rw [Store.begin, hdatabase]
  apply Store.ensures_onDatabase_ok
  · exact hbegin
  · exact ⟨rfl, rfl, _, rfl, .new rule s.insertable⟩

/-- The end of a bulk write keeps its records. -/
theorem endWrite_loading {sent : List s.Record} {c : SqliteConnection Store}
    (hc : Loading s rule sent c) :
    Ensures endWrite c (fun _ d => s.Has rule sent d.database.tables) (fun _ _ => False) := by
  obtain ⟨base, hsaved⟩ := Option.isSome_iff_exists.mp hc.begun
  unfold endWrite
  simp only [ensures_bind, ensures_get, ensures_ofResult, hc.active, WriteState.finish]
  refine ⟨fun x hx => ?_, fun _ he => by cases he⟩
  cases hx
  have hcommit : Store.commit c.database = .ok { c.database with saved := none } := by
    rw [Store.commit, hsaved]
  simp only [ensures_modify]
  apply Store.ensures_onDatabase_ok
  · exact hcommit
  · exact hc.has

end SqliteConnection

namespace Engine

open SqliteConnection

variable {s : Schema} {rule : TableRule}

/-- Sending records sends those that are buffered and then the others. -/
theorem send_loading (e : Engine) (h : TableRule.IsTableOf s rule) (hs : s.HasTable) :
    ∀ (records buffered : List s.Record) {sent : List s.Record} {c : SqliteConnection Store},
      Loading s rule sent c → s.Storable (sent ++ buffered ++ records) →
        Ensures (e.send s records (buffered.map s.toRow)) c
          (fun _ d => Loading s rule (sent ++ buffered ++ records) d) (fun _ _ => False)
  | [], buffered, sent, c, hc, hstorable => by
    rw [List.append_nil] at hstorable ⊢
    unfold send
    split
    · next hempty =>
      have hnil : buffered = [] := by simpa using hempty
      rw [hnil, List.append_nil]
      exact hc
    · exact write_loading h hs hc hstorable
  | record :: records, buffered, sent, c, hc, hstorable => by
    have hbuffer : buffered.map s.toRow ++ [s.toRow record] =
        (buffered ++ [record]).map s.toRow := by simp
    have hassoc : sent ++ buffered ++ record :: records =
        sent ++ (buffered ++ [record]) ++ records := by simp
    rw [hassoc] at hstorable ⊢
    unfold send
    simp only [hbuffer]
    split
    · refine (ensures_bind _ _).mpr
        ((write_loading h hs hc hstorable.of_append).mono (fun _ d hd => ?_) fun _ _ he => he)
      have hrest := send_loading e h hs records [] hd
      simp only [List.append_nil] at hrest
      exact hrest hstorable
    · exact send_loading e h hs records (buffered ++ [record]) hc hstorable

/-- A new database makes the table of the records. -/
theorem createTable_new (h : TableRule.IsTableOf s rule) (hs : s.HasTable)
    (hreserved : Tables.isReserved s.table = false) :
    Ensures (createTable s true) (SqliteConnection.ofDatabase Store.empty)
      (fun _ d => d.writing = .idle ∧ d.database = ⟨[⟨rule, [], 0⟩], none⟩) (fun _ _ => False) := by
  have hstep : Store.changing (fun ts => ts.execute (.createTable (s.createTable true))) .empty =
      .ok ⟨[⟨rule, [], 0⟩], none⟩ := by
    change (Tables.createTable [] (s.createTable true)).map _ = _
    rw [h.createTable_empty hs hreserved]
    rfl
  exact Store.ensures_onDatabase_ok hstep ⟨rfl, rfl⟩

/-- **A bulk write of records that can be stored together succeeds** on a new database, and their
table has them then. -/
theorem write_has (e : Engine) (h : TableRule.IsTableOf s rule) (hs : s.HasTable)
    (hreserved : Tables.isReserved s.table = false) {records : List s.Record}
    (hstorable : s.Storable records) :
    Ensures (e.write s records) (SqliteConnection.ofDatabase Store.empty)
      (fun _ d => s.Has rule records d.database.tables) (fun _ _ => False) := by
  unfold write
  simp only [ensures_bind]
  refine (createTable_new h hs hreserved).mono (fun _ c₁ h₁ => ?_) (fun _ _ he => he)
  refine (startWrite_loading h₁.1 h₁.2).mono (fun _ c₂ h₂ => ?_) (fun _ _ he => he)
  refine (send_loading e h hs records [] h₂ hstorable).mono (fun _ c₃ h₃ => ?_)
    (fun _ _ he => he)
  exact endWrite_loading h₃

/-! ### Reading back -/

/-- What is found for each pair of values makes a list of its own. -/
theorem forall₂_exists {α β γ : Type} {p : α → γ → Prop} {q : β → γ → Prop} :
    ∀ {as : List α} {bs : List β}, List.Forall₂ (fun a b => ∃ c, p a c ∧ q b c) as bs →
      ∃ cs, List.Forall₂ p as cs ∧ List.Forall₂ q bs cs
  | [], [], .nil => ⟨[], .nil, .nil⟩
  | _ :: _, _ :: _, .cons ⟨c, hp, hq⟩ h => by
    obtain ⟨cs, hps, hqs⟩ := forall₂_exists h
    exact ⟨c :: cs, .cons hp hps, .cons hq hqs⟩

/-- Rows that all hold a record are read as these records. -/
theorem readAll_ok (e : Engine) {c : SqliteConnection Store} {q : Select} {rows : List StoredRow}
    {back : List s.Record}
    (hquery : c.database.tables.query q =
      .ok (rows.map fun row => .ok ((List.range s.numColumns).map row.value)))
    (hback : List.Forall₂ (fun row record => s.ofStored row = .ok record) rows back) :
    e.readAll s q c = .ok back c := by
  obtain ⟨hrecords, hconnection⟩ := e.readAll_results hquery
  have hread : rows.mapM s.ofStored = .ok back := Except.mapM_eq_ok_of_forall₂ hback
  rw [List.map_map] at hrecords
  have hsome : ((e.readAll s q).outcome c).1.toOption = some back := by
    refine hrecords.trans ((Except.mapM_toOption s.ofStored rows).trans ?_)
    rw [hread]
    rfl
  unfold Action.outcome at hsome hconnection
  cases hrun : e.readAll s q c with
  | ok result d =>
    rw [hrun] at hsome hconnection
    cases hsome
    cases hconnection
    rfl
  | error err d =>
    rw [hrun] at hsome
    cases hsome

/-- The texts of row ids that the database gives are all different. -/
theorem nodup_numbers_text {n : Nat} (hroom : (n : Int) ≤ StoredTable.maxId) :
    ((StoredTable.numbers n).map fun id => some (toString (Int64.ofInt id).toInt)).Nodup := by
  have hread : ∀ id ∈ StoredTable.numbers n,
      Text.readInteger 1 n (toString (Int64.ofInt id).toInt).toList = .ok id := by
    intro id hid
    have hbounds := StoredTable.bounds_of_mem_numbers hid
    have hmax : (StoredTable.maxId : Int) < 2 ^ 63 := by decide
    have hmin : Int64.minValue.toInt ≤ 0 := by decide
    rw [Int64.toInt_ofInt_of_le (by omega) (by omega)]
    exact Text.readInteger_toString hbounds.1 hbounds.2
  refine List.Nodup.map_on (fun id hid id' hid' hsame => ?_) (StoredTable.nodup_numbers n)
  have hid := hread id hid
  rw [Option.some.inj hsame, hread id' hid'] at hid
  exact (Except.ok.inj hid).symm

/-- **The records are read back** from a database that has them: one for each record, which has the
same values, but for those that the database gives; and these are all different. -/
theorem selectAll_has (e : Engine) (h : TableRule.IsTableOf s rule) (hs : s.HasTable)
    {records : List s.Record} (hstorable : s.Storable records) {c : SqliteConnection Store}
    (hc : s.Has rule records c.database.tables) :
    ∃ back, e.selectAll s c = .ok back c ∧ s.SameRecords records back ∧
      ∀ i, s.IsNumbered i → (∀ record ∈ back, s.cell record i ≠ none) ∧
        back.Pairwise fun a b => s.value a i ≠ s.value b i := by
  obtain ⟨t, hts, hloaded⟩ := hc
  have hfields : s.fields ≠ [] := hs.fields_ne_nil
  have hquery : c.database.tables.query s.select =
      .ok (t.rows.map fun row => .ok ((List.range s.numColumns).map row.value)) := by
    rw [hts]
    exact Tables.query_all (h.find?_singleton hloaded.sameRule) (hloaded.sameRule ▸ h.made) hfields
  obtain ⟨added, hperm, hholds⟩ := hloaded.rows
  -- Each row is read as a record, which has the values of the one that was sent for it.
  have hrows : List.Forall₂ (fun record row => ∃ back, s.SameGiven record back ∧
      s.ofStored row = .ok back ∧
      ∀ i, s.IsNumbered i → s.cell back i = some (toString (Int64.ofInt row.id).toInt))
      records added := by
    have hboth := (List.forall₂_and_left records added).mpr
      ⟨hstorable.kept, List.forall₂_map_left_iff.mp hholds⟩
    refine hboth.imp ?_
    rintro record row ⟨hkept, hrow⟩
    obtain ⟨back, hread, hsame, hid⟩ := h.ofStored hs hkept hrow
    exact ⟨back, hsame, hread, hid⟩
  obtain ⟨arranged, hsame, hread⟩ := forall₂_exists hrows
  obtain ⟨back, hback, hperm'⟩ := List.perm_comp_forall₂ hperm hread
  refine ⟨back, e.readAll_ok hquery (hback.imp fun _ _ hb => hb.1), ⟨arranged, hsame, hperm'.symm⟩,
    fun i hi => ?_⟩
  have hids := (hloaded.numbered fun cells hcells => by
    obtain ⟨record, -, rfl⟩ := List.mem_map.mp hcells
    exact h.selfNumbered hs hi record).1
  have hcells : back.map (s.cell · i) =
      (t.rows.map (·.id)).map fun id => some (toString (Int64.ofInt id).toInt) := by
    rw [← List.forall₂_eq_eq_eq, List.map_map, List.forall₂_map_left_iff,
      List.forall₂_map_right_iff]
    exact (hback.imp fun row record hrow => hrow.2 i hi).flip
  refine ⟨fun record hrecord => ?_, ?_⟩
  · have hmem := List.mem_map_of_mem (f := (s.cell · i)) hrecord
    rw [hcells] at hmem
    obtain ⟨id, -, hid⟩ := List.mem_map.mp hmem
    rw [← hid]
    exact nofun
  · have hnodup : (back.map (s.cell · i)).Nodup := by
      rw [hcells, hids, List.length_map]
      exact nodup_numbers_text hstorable.room
    refine (List.pairwise_map.mp hnodup).imp fun hne hvalue => hne ?_
    rw [Schema.cell, Schema.cell, hvalue]

/-- **Writing and reading back loses nothing.** With any batch size, a bulk write into a new
database succeeds for any records of a declared type whose numbers fit in signed ones, whose
timestamps are in normal form and of which no two share a primary key or a unique value that is not
NULL. Reading the table then gives one record for each of them, with the same values. Only a column
that the database numbers has values of its own, which are there and all different. The bound on the
number of records is that of row ids; no list in memory is longer. -/
theorem selectAll_write (e : Engine) (r : RecordType) {records : List r.schema.Record}
    (hsigned : ∀ record ∈ records, r.Signed record)
    (hnormal : ∀ record ∈ records, r.IsNormal record) (hapart : records.Pairwise r.schema.Apart)
    (hroom : (records.length : Int) ≤ StoredTable.maxId) :
    ∃ c back, e.write r.schema records (SqliteConnection.ofDatabase Store.empty) = .ok () c ∧
      e.selectAll r.schema c = .ok back c ∧ r.schema.SameRecords records back ∧
      ∀ i, r.schema.IsNumbered i → (∀ record ∈ back, r.schema.cell record i ≠ none) ∧
        back.Pairwise fun a b => r.schema.value a i ≠ r.schema.value b i := by
  have hs := r.hasTable
  obtain ⟨rule, h⟩ := hs.isTableOf
  have hstorable : r.schema.Storable records :=
    ⟨fun record hrecord => r.kept (hsigned record hrecord) (hnormal record hrecord), hapart, hroom⟩
  obtain ⟨⟨⟩, c, hwrite, hc⟩ := (e.write_has h hs r.notReserved hstorable).exists_ok
  obtain ⟨back, hread, hsame, hids⟩ := e.selectAll_has h hs hstorable hc
  exact ⟨c, back, hwrite, hread, hsame, hids⟩

/-- A column that the database numbers, the greatest number that fits, NULL twice in a unique
column, and a leap second. -/
theorem selectAll_write_numbered :
    let r : RecordType := {
      table := "pets"
      fields := [("id", .numbered (.int .int64)), ("n", .int .uint64),
        ("w", .unique (.optional .text)), ("at", .timestamp)]
      notReserved := by decide +kernel
      distinct := by decide +kernel
      plain := by decide +kernel
      numbering := .inr ⟨by decide, ⟨⟨0, by decide⟩, by decide⟩, by decide⟩ }
    let leap : Timestamp := ⟨⟨2016, 12, 31, by decide⟩, ⟨23, 59, 59, 1500000000, by decide⟩⟩
    let records : List r.schema.Record := [(none, ⟨9223372036854775807, by decide⟩, none, leap, ()),
      (some ⟨7, by decide⟩, ⟨0, by decide⟩, none, leap, ()),
      (none, ⟨5, by decide⟩, some "it's", leap, ())]
    let e := Engine.default
    ∃ c back, e.write r.schema records (SqliteConnection.ofDatabase Store.empty) = .ok () c ∧
      e.selectAll r.schema c = .ok back c ∧ r.schema.SameRecords records back ∧
      ∀ i, r.schema.IsNumbered i → (∀ record ∈ back, r.schema.cell record i ≠ none) ∧
        back.Pairwise fun a b => r.schema.value a i ≠ r.schema.value b i := by
  intro r leap records e
  have hkey : ∀ i, ¬r.schema.IsKey i := by decide +kernel
  have hunique : ∀ i, r.schema.IsUnique i → i = ⟨2, by decide⟩ := by decide +kernel
  have hapart : ∀ {a b : r.schema.Record}, r.schema.cell a ⟨2, by decide⟩ = none →
      r.schema.Apart a b := fun hnone =>
    ⟨fun ⟨i, hi⟩ => absurd hi (hkey i), fun i hi _ => hunique i hi ▸ hnone⟩
  refine e.selectAll_write r (by decide +kernel) (by decide +kernel) ?_ (by decide)
  exact .cons (fun _ _ => hapart rfl) (.cons (fun _ _ => hapart rfl) (List.pairwise_singleton _ _))

/-- **Records that are not read back.** The fraction of a second in the first record is longer than
a second, and it is sent like the second record. So that is what is read, and both of them together,
which are different, are refused as if they were the same. -/
theorem selectAll_write_longFraction :
    let r : RecordType := {
      table := "logs"
      fields := [("at", .primaryKey .timestamp)]
      notReserved := by decide +kernel
      distinct := by decide +kernel
      plain := by decide +kernel
      numbering := .inl (by decide) }
    let day : Date := ⟨2020, 1, 2, by decide⟩
    let a : r.schema.Record := (⟨day, ⟨23, 56, 4, 1333333333, by decide⟩⟩, ())
    let b : r.schema.Record := (⟨day, ⟨23, 56, 5, 333333333, by decide⟩⟩, ())
    let new := SqliteConnection.ofDatabase Store.empty
    let e := Engine.default
    let written := (e.write r.schema [a]).outcome new
    let both := (e.write r.schema [a, b]).outcome new
    r.Signed a ∧ r.Signed b ∧ r.schema.Apart a b ∧
      written.1 = .ok () ∧ e.selectAll r.schema written.2 = .ok [b] written.2 ∧
      ¬r.schema.SameRecords [a] [b] ∧
      both.1 = .error (inRow 1 (insertFault "UNIQUE constraint failed: logs.at")) := by
  intro r day a b new e written both
  let rule : TableRule := ⟨"logs", [⟨"at", .text, true⟩], none, false, [[0]], []⟩
  let row : StoredRow := ⟨1, [.text "2020-01-02 23:56:05.333333333"]⟩
  have htables : written.2.database.tables = [⟨rule, [row], 1⟩] := by decide +kernel
  have hfound : written.2.database.tables.find? r.schema.table = some ⟨rule, [row], 1⟩ := by
    rw [htables]
    decide +kernel
  have hmade : TableRule.ofStatement (r.schema.createTable true) = .ok rule := by decide +kernel
  have htable : TableRule.IsTableOf r.schema rule := .of_made (by decide +kernel) hmade
  have hrow : rule.Holds r.schema.insertable (r.schema.toRow b) row :=
    ⟨by decide +kernel, rfl, by decide +kernel, by decide +kernel, by decide +kernel⟩
  have hsigned : ∀ record ∈ [a, b], r.Signed record := by decide +kernel
  have hnormal : ∀ record ∈ [b], r.IsNormal record := by decide +kernel
  have hplain : ∀ i, ¬r.schema.IsNumbered i := by decide +kernel
  have hnone : ∀ i, ¬r.schema.IsUnique i := by decide +kernel
  have hkept : r.schema.Kept b := r.kept (hsigned b (by simp)) (hnormal b (by simp))
  have hread := htable.ofStored_plain r.hasTable hplain hkept hrow
  -- The two records differ in the second, which is a part of the key.
  have hne : r.schema.value a ⟨0, by decide⟩ ≠ r.schema.value b ⟨0, by decide⟩ := by
    intro h
    have hsecond : (4 : Nat) = 5 := congrArg (fun t : Timestamp => t.time.second) h
    cases hsecond
  refine ⟨hsigned a (by simp), hsigned b (by simp), ?_, by decide +kernel,
    e.readAll_ok (Tables.query_all hfound hmade (by decide)) (.cons hread .nil), ?_,
    by decide +kernel⟩
  · exact ⟨fun _ => ⟨⟨0, by decide⟩, by decide +kernel, hne⟩, fun i hi => absurd hi (hnone i)⟩
  · rintro ⟨arranged, hgiven, hperm⟩
    rw [List.perm_singleton] at hperm
    subst hperm
    cases hgiven with
    | cons hfirst _ => exact hne (hfirst _ (hplain _))

end Engine

end SqlRecords
