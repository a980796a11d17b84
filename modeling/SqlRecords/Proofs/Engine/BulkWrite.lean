import SqlRecords.Engine.Basic
import SqlRecords.Proofs.Sqlite.Connection
import SqlRecords.Proofs.Sqlite.Tables

/-!
# Bulk writes are all or nothing

A bulk write of records makes their table if it is not there, begins a transaction,
sends the rows piece by piece and commits. It can fail when the table is made, when
the transaction is begun, and at any row of any piece.
-/

namespace SqlRecords

open Sqlite

namespace SqliteConnection

/-! ### Sending rows -/

/-- Rows that are sent one by one are gained one by one. -/
theorem sendRows_gained {i : Insert} {name : String} (hi : i.orReplace = false)
    (ht : i.table = .named name) : ∀ (n : Nat) (rows : List Row) (c : SqliteConnection Store),
      (c.database.tables.find? name).isSome →
        Ensures (sendRows i n rows) c
          (fun _ d => Tables.Gained name i.columns rows c.database.tables d.database.tables)
          (fun _ _ => True)
  | _, [], c, hc => by
    obtain ⟨t, h⟩ := Option.isSome_iff_exists.mp hc
    exact .nil h
  | n, row :: rest, c, hc => by
    unfold sendRows
    simp only [ensures_bind, ensures_ofResult, ensures_onDatabase]
    refine ⟨fun _ _ => Store.ensures_step.mpr ⟨fun d hd => ?_, fun _ _ => trivial⟩, fun _ _ => trivial⟩
    have hg := Tables.Gained.ofInsertRow hi ht (Store.changing_ok hd).2
    obtain ⟨t, t', -, -, hfound, -⟩ := hg.table
    refine (sendRows_gained hi ht (n + 1) rest _ ?_).mono (fun _ _ h => hg.append h) (fun _ _ h => h)
    exact Option.isSome_iff_exists.mpr ⟨t', hfound⟩

/-- Inserting a bulk write's rows gains them. Whether it succeeds or not, the bulk write goes on, and
a rollback leads back to the same tables. -/
theorem insertRows_ensures (s : Schema) (rows : List Row) (c : SqliteConnection Store)
    (hc : (c.database.tables.find? s.table).isSome) :
    Ensures (insertRows (insertOf s.write) rows) c
      (fun _ d => SameView Store.saved c d ∧
        Tables.Gained s.table s.insertable rows c.database.tables d.database.tables)
      (fun _ d => SameView Store.saved c d) := by
  have hsaved : Ensures (insertRows (insertOf s.write) rows) c
      (fun _ d => SameView Store.saved c d) (fun _ d => SameView Store.saved c d) :=
    insertRows_sameView ((Store.prepare_leaves _).map _)
      (fun _ => Store.changing_leaves_saved _) rows c
  have hgained : Ensures (insertRows (insertOf s.write) rows) c
      (fun _ d => Tables.Gained s.table s.insertable rows c.database.tables d.database.tables)
      (fun _ _ => True) := by
    unfold insertRows
    refine (ensures_bind _ _).mpr ?_
    refine (prepareInsert_sameView (Store.prepare_leaves _) c).mono (fun _ d h => ?_)
      (fun _ _ _ => trivial)
    have hd : d.database = c.database := h.viewed
    rw [← hd] at hc ⊢
    exact sendRows_gained (i := insertOf s.write) rfl rfl 0 rows d hc
  exact (hsaved.and hgained).mono (fun _ _ h => h) (fun _ _ h => h.1)

/-! ### The bulk write -/

/-- A bulk write that was begun with some tables and has sent some rows. -/
structure Writing (s : Schema) (base : Tables) (rows : List Row) (c : SqliteConnection Store) :
    Prop where
  /-- It is in progress. -/
  active : c.writing = ⟨some (insertOf s.write)⟩
  /-- A rollback leads back to where it began. -/
  saved : c.database.saved = some base
  /-- The table has the rows. -/
  gained : Tables.Gained s.table s.insertable rows base c.database.tables

/-- A bulk write begins with the tables that are there, unless there is a transaction or another
one in progress; then nothing changes. -/
theorem startWrite_ensures (s : Schema) (c : SqliteConnection Store)
    (hc : (c.database.tables.find? s.table).isSome) :
    Ensures (startWrite s.write) c
      (fun _ d => c.database.saved = none ∧ Writing s c.database.tables [] d)
      (fun _ d => d.database = c.database) := by
  obtain ⟨t, ht⟩ := Option.isSome_iff_exists.mp hc
  unfold startWrite
  simp only [ensures_bind, ensures_get, ensures_ofResult, ensures_modify, ensures_attempt]
  refine ⟨fun writing hw => ?_, fun _ _ => trivial⟩
  refine (ensures_onDatabase _ _).mpr <| Store.ensures_step.mpr ⟨fun d hd => ?_, fun _ _ => rfl⟩
  unfold WriteState.start at hw
  unfold Store.begin at hd
  split at hw
  · cases hw
  · cases hw
    split at hd
    · cases hd
    · next hs =>
      cases hd
      exact ⟨hs, rfl, rfl, .nil ht⟩

/-- Rows that are sent to a bulk write are gained, or everything is as it was before the bulk write
began. -/
theorem write_ensures {s : Schema} {base : Tables} {sent : List Row} {c : SqliteConnection Store}
    (h : Writing s base sent c) (rows : List Row) :
    Ensures (write rows) c (fun _ d => Writing s base (sent ++ rows) d)
      (fun _ d => d.database = ⟨base, none⟩) := by
  obtain ⟨-, u, -, -, hu, -⟩ := h.gained.table
  have hfound : (c.database.tables.find? s.table).isSome := Option.isSome_iff_exists.mpr ⟨u, hu⟩
  unfold write
  simp only [ensures_bind, ensures_get, ensures_ofResult, ensures_attempt, h.active,
    WriteState.current]
  refine ⟨fun i hi => ?_, fun _ he => by cases he⟩
  cases hi
  refine (insertRows_ensures s rows c hfound).mono (fun _ d hd => ?_) (fun _ d hd => ?_)
  · obtain ⟨hsame, hg⟩ := hd
    exact ⟨hsame.writing.trans h.active, hsame.viewed.trans h.saved, h.gained.append hg⟩
  · simp only [abort, ensures_modify, ensures_ignore, ensures_throw]
    refine (ensures_onDatabase _ _).mpr <| Store.ensures_step.mpr ⟨fun d' hd' => ?_, fun text ht => ?_⟩
    · rw [Store.rollback, hd.viewed, h.saved] at hd'
      cases hd'
      rfl
    · rw [Store.rollback, hd.viewed, h.saved] at ht
      cases ht

/-- The end of a bulk write keeps its rows. -/
theorem endWrite_ensures {s : Schema} {base : Tables} {sent : List Row} {c : SqliteConnection Store}
    (h : Writing s base sent c) :
    Ensures endWrite c
      (fun _ d => d.database.saved = none ∧
        Tables.Gained s.table s.insertable sent base d.database.tables)
      (fun _ _ => False) := by
  unfold endWrite
  simp only [ensures_bind, ensures_get, ensures_ofResult, h.active, WriteState.finish]
  refine ⟨fun x hx => ?_, fun _ he => by cases he⟩
  cases hx
  simp only [ensures_modify]
  refine (ensures_onDatabase _ _).mpr <| Store.ensures_step.mpr ⟨fun d hd => ?_, fun text ht => ?_⟩
  · rw [Store.commit, h.saved] at hd
    cases hd
    exact ⟨rfl, h.gained⟩
  · rw [Store.commit, h.saved] at ht
    cases ht

end SqliteConnection

namespace Engine

open SqliteConnection

/-- Sending records sends the rows that are buffered and one for each record, or everything is as it
was before the bulk write began. -/
theorem send_ensures (e : Engine) {s : Schema} {base : Tables} :
    ∀ (records : List s.Record) {sent buffer : List Row} {c : SqliteConnection Store},
      Writing s base sent c →
        Ensures (e.send s records buffer) c
          (fun _ d => Writing s base (sent ++ buffer ++ records.map s.toRow) d)
          (fun _ d => d.database = ⟨base, none⟩)
  | [], sent, buffer, c, h => by
    unfold send
    simp only [List.map_nil, List.append_nil]
    split
    · next hb =>
      rw [List.isEmpty_iff.mp hb, List.append_nil]
      exact h
    · exact write_ensures h buffer
  | record :: records, sent, buffer, c, h => by
    unfold send
    have hrows : sent ++ buffer ++ (record :: records).map s.toRow =
        sent ++ (buffer ++ [s.toRow record]) ++ records.map s.toRow := by simp
    rw [hrows]
    simp only
    split
    · refine (ensures_bind _ _).mpr ((write_ensures h _).mono (fun _ d hd => ?_) (fun _ _ hd => hd))
      refine (send_ensures e records hd).mono (fun _ _ hd' => ?_) (fun _ _ hd' => hd')
      rwa [List.append_nil] at hd'
    · exact send_ensures e records h

/-- Making the table of a record type. -/
theorem createTable_ensures (s : Schema) {ifNotExists : Bool} (c : SqliteConnection Store) :
    Ensures (createTable s ifNotExists) c
      (fun _ d => SameView Store.saved c d ∧
        Tables.MadeBy (s.createTable ifNotExists) c.database.tables d.database.tables ∧
        (d.database.tables.find? s.table).isSome ∧
        d.database.tables.rowsOf s.table = c.database.tables.rowsOf s.table)
      (fun _ d => d = c) := by
  refine (ensures_onDatabase _ _).mpr <| Store.ensures_step.mpr ⟨fun d hd => ?_, fun _ _ => rfl⟩
  obtain ⟨hs, ht⟩ := Store.changing_ok hd
  exact ⟨⟨rfl, hs⟩, Tables.createTable_ok ht⟩

/-- **A bulk write is all or nothing.** From any state of the connection, with any records and any
batch size that an engine may have, it ends in one of two ways. If it succeeds, the table has the
rows it had and one more for each record, which holds the record's cells, and no other table has
changed. If it fails, the tables are what they were, but that the record's own table may be there
now, without rows. Either way a transaction that was open is open still, and leads back to the same
tables. -/
theorem write_allOrNothing (e : Engine) (s : Schema) (records : List s.Record)
    (c : SqliteConnection Store) :
    Ensures (e.write s records) c
      (fun _ d => d.database.saved = c.database.saved ∧
        (∃ t added, d.database.tables.find? s.table = some t ∧
          t.rows.Perm (c.database.tables.rowsOf s.table ++ added) ∧
          List.Forall₂ (fun record row => t.rule.Holds s.insertable (s.toRow record) row)
            records added) ∧
        ∀ other, sameName s.table other = false →
          d.database.tables.find? other = c.database.tables.find? other)
      (fun _ d => d.database.saved = c.database.saved ∧
        Tables.MadeBy (s.createTable true) c.database.tables d.database.tables) := by
  unfold write
  simp only [ensures_bind]
  refine (createTable_ensures s c).mono (fun _ c₁ h₁ => ?_) (fun _ d hd => hd ▸ ⟨rfl, .inl rfl⟩)
  obtain ⟨hsame, hmade, hfound, hrows⟩ := h₁
  refine (startWrite_ensures s c₁ hfound).mono (fun _ c₂ h₂ => ?_) (fun _ d hd => ?_)
  · obtain ⟨hidle, hw⟩ := h₂
    have hnone : c.database.saved = none := hsame.viewed ▸ hidle
    refine (send_ensures e records hw).mono (fun _ c₃ h₃ => ?_) (fun _ d hd => ?_)
    · refine (endWrite_ensures h₃).mono (fun _ d hd => ?_) (fun _ _ hd => hd.elim)
      obtain ⟨hsaved, hg⟩ := hd
      refine ⟨hsaved.trans hnone.symm, ?_, fun other ho => ?_⟩
      · obtain ⟨t, t', added, ht, ht', hr, hp, hf⟩ := hg.table
        rw [← Tables.rowsOf_of_find? ht, hrows] at hp
        refine ⟨t', added, ht', hp, ?_⟩
        rw [hr]
        exact List.forall₂_map_left_iff.mp hf
      · rw [hg.others other ho]
        exact hmade.find?_other ho
    · rw [hd]
      exact ⟨hnone.symm, hmade⟩
  · rw [hd]
    exact ⟨hsame.viewed, hmade⟩

end Engine

end SqlRecords
