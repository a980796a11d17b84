import SqlRecords.Field.Scalar
import SqlRecords.Field.Wrapper
import SqlRecords.Proofs.Engine.BulkWrite
import SqlRecords.Proofs.Sqlite.Intake
import SqlRecords.Proofs.Sqlite.StatementTexts

/-!
# Inserting and bulk writes agree

Records can be inserted into a table that is there, or loaded into it in bulk. The one sends them
in pieces, outside of a transaction; the other makes the table unless it is there, begins a
transaction, sends pieces that are cut differently and commits. Which records the database takes
is the same, as `intake` says: those before the first that is refused. They are there to stay if
they were inserted, and are rolled back if they were written and not all were taken.

Both send their rows with the same text. The dialect writes it by two functions, that for INSERT
statements and that for bulk writes.

## What is proved

* `SqliteConnection.insert_insertOf`: a bulk write sends its rows with the INSERT that its text is,
  and the database prepares it as this text says (`Tables.prepare_insertOf`).
* `SqliteConnection.write_takes`, `Engine.send_takes`: the rows of a bulk write are taken up to the
  first that is refused.
* `Engine.write_takes_all`, `Engine.write_takes_made`: a bulk write takes all rows, or leaves
  everything as it was but for the table that it makes.
* **`Engine.insert_iff_write`**: both succeed for the same records, and leave the same behind.
-/

namespace SqlRecords

open Sqlite

/-! ### One text -/

namespace SqliteConnection

/-- The text of a bulk write is that of the INSERT that its rows are sent with. -/
theorem insert_insertOf (w : Write) :
    Dialect.insert .sqlite (insertOf w) = Dialect.write .sqlite w := rfl

/-- The rows of records that are written are sent with the INSERT for records. -/
theorem insertOf_write (s : Schema) : insertOf s.write = s.insert false := rfl

end SqliteConnection

/-- The INSERT of a bulk write is prepared as the text of the bulk write says. -/
theorem Sqlite.Tables.prepare_insertOf (ts : Tables) {w : Write} (hcolumns : w.columns ≠ []) :
    ts.prepare (SqliteConnection.insertOf w) =
      ts.prepareText (Dialect.compile .sqlite (.write w)) := by
  have htext : Dialect.text .sqlite (Dialect.insert .sqlite (SqliteConnection.insertOf w)) =
      Dialect.compile .sqlite (.write w) := by
    rw [SqliteConnection.insert_insertOf]
    rfl
  rw [ts.prepare_eq_prepareText hcolumns, htext]

/-! ### Bulk writes -/

namespace SqliteConnection

/-- Nothing is going on on a connection: no bulk write and no transaction. -/
structure Idle (c : SqliteConnection Store) : Prop where
  /-- No bulk write is in progress. -/
  writing : c.writing = .idle
  /-- No transaction is open. -/
  saved : c.database.saved = none

/-- A bulk write that was begun with some tables and of which some rows were taken. -/
structure Sending (s : Schema) (base : Tables) (rows : List Row) (c : SqliteConnection Store) :
    Prop where
  /-- It is in progress. -/
  active : c.writing = ⟨some (insertOf s.write)⟩
  /-- A rollback leads back to where it began. -/
  saved : c.database.saved = some base
  /-- The rows were all taken. -/
  taken : Takes (insertOf s.write) rows base c.database.tables

variable {s : Schema} {base : Tables}

/-- A bulk write can begin if nothing is going on. If it cannot, the database is as it was. -/
theorem startWrite_sending (s : Schema) (c : SqliteConnection Store) :
    Ensures (startWrite s.write) c (fun _ d => Sending s c.database.tables [] d)
      (fun _ d => d.database = c.database ∧ ¬c.Idle) := by
  unfold startWrite
  simp only [ensures_bind, ensures_get, ensures_ofResult, ensures_modify, ensures_attempt]
  refine ⟨fun writing hw => ?_, fun e he => ?_⟩
  · refine (ensures_onDatabase _ _).mpr
      (Store.ensures_step.mpr ⟨fun d hd => ?_, fun text htext => ?_⟩)
    · unfold WriteState.start at hw
      unfold Store.begin at hd
      split at hw
      · cases hw
      · cases hw
        split at hd
        · cases hd
        · cases hd
          exact ⟨rfl, rfl, .nil _ _⟩
    · refine ⟨rfl, fun hidle => ?_⟩
      rw [Store.begin, hidle.saved] at htext
      cases htext
  · refine ⟨trivial, fun hidle => ?_⟩
    rw [hidle.writing] at he
    cases he

/-- Rows that are sent to a bulk write are all taken, or everything is as it was before the bulk
write began. -/
theorem write_takes {sent : List Row} {c : SqliteConnection Store} (h : Sending s base sent c)
    {rows : List Row} (hrows : rows ≠ []) :
    Ensures (write rows) c (fun _ d => Sending s base (sent ++ rows) d)
      (fun _ d => d.database = ⟨base, none⟩ ∧
        ∃ ts, Stops (insertOf s.write) (sent ++ rows) base ts) := by
  unfold write
  simp only [ensures_bind, ensures_get, ensures_ofResult, ensures_attempt, h.active,
    WriteState.current]
  refine ⟨fun i hi => ?_, fun _ he => by cases he⟩
  cases hi
  refine (insertRows_ensures_taken _ hrows c).mono (fun _ d hd => ?_) (fun _ d hd => ?_)
  · obtain ⟨hsame, htaken⟩ := hd
    exact ⟨hsame.writing.trans h.active, hsame.viewed.trans h.saved, h.taken.append htaken⟩
  · obtain ⟨hsame, hstops⟩ := hd
    have hsaved : d.database.saved = some base := hsame.viewed.trans h.saved
    have hrollback : Store.rollback d.database = .ok ⟨base, none⟩ := by
      rw [Store.rollback, hsaved]
    simp only [abort, ensures_modify, ensures_ignore, ensures_throw]
    apply Store.ensures_onDatabase_ok
    · exact hrollback
    · exact ⟨rfl, _, h.taken.stops hstops⟩

/-- The end of a bulk write keeps the rows that were taken. -/
theorem endWrite_takes {rows : List Row} {c : SqliteConnection Store} (h : Sending s base rows c) :
    Ensures endWrite c
      (fun _ d => d.database.saved = none ∧
        Takes (insertOf s.write) rows base d.database.tables)
      (fun _ _ => False) := by
  unfold endWrite
  simp only [ensures_bind, ensures_get, ensures_ofResult, h.active, WriteState.finish]
  refine ⟨fun x hx => ?_, fun _ he => by cases he⟩
  cases hx
  have hcommit : Store.commit c.database = .ok { c.database with saved := none } := by
    rw [Store.commit, h.saved]
  simp only [ensures_modify]
  apply Store.ensures_onDatabase_ok
  · exact hcommit
  · exact ⟨rfl, h.taken⟩

end SqliteConnection

namespace Engine

open SqliteConnection

variable {s : Schema} {base : Tables}

/-- Sending records sends the rows that are buffered and one for each record. -/
theorem send_takes (e : Engine) :
    ∀ (records : List s.Record) (buffer : List Row) {sent : List Row} {c : SqliteConnection Store},
      Sending s base sent c →
        Ensures (e.send s records buffer) c
          (fun _ d => Sending s base (sent ++ buffer ++ records.map s.toRow) d)
          (fun _ d => d.database = ⟨base, none⟩ ∧
            ∃ ts, Stops (insertOf s.write) (sent ++ buffer ++ records.map s.toRow) base ts)
  | [], buffer, sent, c, h => by
    unfold send
    simp only [List.map_nil, List.append_nil]
    split
    · next hempty =>
      rw [List.isEmpty_iff.mp hempty, List.append_nil]
      exact h
    · next hrows =>
      exact write_takes h fun hnil => hrows (List.isEmpty_iff.mpr hnil)
  | record :: records, buffer, sent, c, h => by
    unfold send
    have hrows : sent ++ buffer ++ (record :: records).map s.toRow =
        sent ++ (buffer ++ [s.toRow record]) ++ records.map s.toRow := by simp
    rw [hrows]
    simp only
    split
    · have hne : buffer ++ [s.toRow record] ≠ [] := List.concat_ne_nil _ _
      refine (ensures_bind _ _).mpr ((write_takes h hne).mono (fun _ d hd => ?_) (fun _ d hd => ?_))
      · have hrest := send_takes e records [] hd
        simp only [List.append_nil] at hrest
        exact hrest
      · obtain ⟨hback, ts, hstops⟩ := hd
        exact ⟨hback, ts, hstops.append _⟩
    · exact send_takes e records _ h

/-- **A bulk write takes all rows or leaves everything as it was**, if nothing is going on and the
table is there. -/
theorem write_takes_all (e : Engine) (records : List s.Record) {c : SqliteConnection Store}
    (hc : c.Idle) (hthere : createTable s true c = .ok () c) :
    Ensures (e.write s records) c
      (fun _ d => d.database.saved = none ∧
        Takes (s.insert false) (records.map s.toRow) c.database.tables d.database.tables)
      (fun _ d => d.database = c.database ∧
        ∃ ts, Stops (s.insert false) (records.map s.toRow) c.database.tables ts) := by
  have hmade : Ensures (createTable s true) c (fun _ d => d = c) (fun _ _ => False) := by
    rw [Ensures, hthere]
  have hback : (⟨c.database.tables, none⟩ : Store) = c.database := by
    rw [← hc.saved]
  unfold write
  simp only [ensures_bind]
  refine hmade.mono (fun _ c₁ h₁ => ?_) (fun _ _ he => he.elim)
  rw [h₁]
  refine (startWrite_sending s c).mono (fun _ c₂ h₂ => ?_) (fun _ _ he => absurd hc he.2)
  refine (send_takes e records [] h₂).mono (fun _ c₃ h₃ => ?_) (fun _ d hd => ?_)
  · rw [← insertOf_write]
    exact (endWrite_takes h₃).mono (fun _ _ hd => hd) (fun _ _ he => he.elim)
  · rw [hback, insertOf_write] at hd
    exact hd

/-- A bulk write takes all rows behind the table that it makes, or leaves nothing but this behind,
whatever is going on. -/
theorem write_takes_made (e : Engine) (s : Schema) (records : List s.Record)
    (c : SqliteConnection Store) :
    Ensures (e.write s records) c
      (fun _ d => ∃ base, Tables.MadeBy (s.createTable true) c.database.tables base ∧
        Takes (s.insert false) (records.map s.toRow) base d.database.tables)
      (fun _ d => Tables.MadeBy (s.createTable true) c.database.tables d.database.tables) := by
  unfold write
  simp only [ensures_bind]
  refine (createTable_ensures s c).mono (fun _ c₁ h₁ => ?_) (fun _ _ hd => hd ▸ .inl rfl)
  obtain ⟨-, hmade, -⟩ := h₁
  refine (startWrite_sending s c₁).mono (fun _ c₂ h₂ => ?_) (fun _ d hd => hd.1 ▸ hmade)
  refine (send_takes e records [] h₂).mono (fun _ c₃ h₃ => ?_) (fun _ d hd => hd.1 ▸ hmade)
  exact (endWrite_takes h₃).mono (fun _ _ hd => ⟨_, hmade, hd.2⟩) (fun _ _ he => he.elim)

/-! ### One and the other -/

/-- The rows of records that are inserted are taken up to the first that is refused. -/
theorem insert_takes (e : Engine) (s : Schema) (records : List s.Record)
    (c : SqliteConnection Store) :
    Ensures (e.insert s records) c
      (fun _ d => SameView Store.saved c d ∧
        Takes (s.insert false) (records.map s.toRow) c.database.tables d.database.tables)
      (fun _ d => SameView Store.saved c d ∧
        Stops (s.insert false) (records.map s.toRow) c.database.tables d.database.tables) :=
  e.insertWith_ensures (s.insert false) (records.map s.toRow) c

/-- Making a table changes nothing on one connection if it changes nothing on another one to the
same database. -/
theorem createTable_there {c c' : SqliteConnection Store} (hsame : c'.database = c.database)
    (hthere : createTable s true c = .ok () c) : createTable s true c' = .ok () c' := by
  simp only [createTable, Connection.execute, execute, onDatabase] at hthere ⊢
  rw [hsame]
  cases hstep : Database.execute (.createTable (s.createTable true)) c.database with
  | ok x database =>
    rw [hstep] at hthere
    have hdatabase : database = c.database :=
      congrArg SqliteConnection.database (EStateM.Result.ok.inj hthere).2
    rw [hdatabase, ← hsame]
  | error text database =>
    rw [hstep] at hthere
    cases hthere

/-- A table that is there is found. -/
theorem find?_of_createTable {c : SqliteConnection Store}
    (hthere : createTable s true c = .ok () c) : (c.database.tables.find? s.table).isSome := by
  obtain ⟨-, -, hfound, -⟩ := (createTable_ensures s c).of_ok hthere
  exact hfound

/-- One engine inserts some records, the other loads them in bulk, and they agree; they do not get
beyond the record of number `n`, if there is one. -/
structure Agree (e e' : Engine) (s : Schema) (records : List s.Record)
    (c c' : SqliteConnection Store) (n : Nat) : Prop where
  /-- They succeed for the same records. -/
  succeed : (∃ d, e.insert s records c = .ok () d) ↔ ∃ d, e'.write s records c' = .ok () d
  /-- If they succeed, they leave the same behind. -/
  leave : ∀ d d', e.insert s records c = .ok () d → e'.write s records c' = .ok () d' →
    d'.database = d.database
  /-- If the records cannot be inserted, the table has got a row for each of the first of them, and
  no other table has changed. -/
  gained : ∀ err d, e.insert s records c = .error err d →
    Tables.Gained s.table s.insertable ((records.take n).map s.toRow) c.database.tables
      d.database.tables
  /-- The next record is refused then. -/
  refused : ∀ err d, e.insert s records c = .error err d → ∃ h : n < records.length,
    accept (s.insert false) (s.toRow records[n]) d.database.tables = none

/-- **Inserting and bulk writes agree.** Take connections to the same database on which nothing is
going on, and a table that is there, so that making it changes nothing. Then engines of any batch
sizes succeed for the same records and leave the same behind. If they do not succeed, the records
that were inserted are those before the first that is refused, and which one that is does not
depend on the batch sizes. -/
theorem insert_iff_write (s : Schema) (records : List s.Record) {c c' : SqliteConnection Store}
    (hc : c.Idle) (hc' : c'.Idle) (hsame : c'.database = c.database)
    (hthere : createTable s true c = .ok () c) :
    ∃ n, ∀ e e' : Engine, Agree e e' s records c c' n := by
  have hthere' := createTable_there hsame hthere
  let i := s.insert false
  let rows := records.map s.toRow
  refine ⟨(intake i rows c.database.tables).1, fun e e' => ?_⟩
  have hinsert := e.insert_takes s records c
  have hwrite := e'.write_takes_all records hc' hthere'
  rw [hsame] at hwrite
  have hgained := Tables.gained_intake (i := i) rfl rfl rows (find?_of_createTable hthere)
  refine ⟨⟨?_, ?_⟩, ?_, ?_, ?_⟩
  · rintro ⟨d, hd⟩
    obtain ⟨-, htakes⟩ := hinsert.of_ok hd
    cases hrun : e'.write s records c' with
    | ok x d' => exact ⟨d', rfl⟩
    | error err d' =>
      obtain ⟨-, ts, hstops⟩ := hwrite.of_error hrun
      exact absurd hstops htakes.not_stops
  · rintro ⟨d', hd'⟩
    obtain ⟨-, htakes⟩ := hwrite.of_ok hd'
    cases hrun : e.insert s records c with
    | ok x d => exact ⟨d, rfl⟩
    | error err d =>
      obtain ⟨-, hstops⟩ := hinsert.of_error hrun
      exact absurd hstops htakes.not_stops
  · intro d d' hd hd'
    obtain ⟨hview, htakes⟩ := hinsert.of_ok hd
    obtain ⟨hnone, htakes'⟩ := hwrite.of_ok hd'
    have htables : d'.database.tables = d.database.tables := htakes'.eq htakes
    have hsaved : d.database.saved = none := hview.viewed.trans hc.saved
    calc d'.database = ⟨d'.database.tables, d'.database.saved⟩ := rfl
      _ = ⟨d.database.tables, d.database.saved⟩ := by rw [htables, hnone, hsaved]
      _ = d.database := rfl
  · intro err d hd
    obtain ⟨-, -, htables⟩ := hinsert.of_error hd
    rw [htables] at hgained
    rw [List.map_take]
    exact hgained
  · intro err d hd
    obtain ⟨-, hfewer, htables⟩ := hinsert.of_error hd
    have hrefused := accept_getElem_intake i rows c.database.tables hfewer
    rw [htables, List.getElem_map] at hrefused
    exact ⟨by simpa using hfewer, hrefused⟩

/-- The second of three records has a key that is there already. The first of them is inserted by
one engine, while the other one writes none. -/
theorem insert_iff_write_refused :
    let s : Schema := ⟨"t", [⟨"a", _, (Field.int .int64).primaryKey⟩]⟩
    let rule : TableRule := ⟨"t", [⟨"a", .integer, true⟩], some 0, false, [], []⟩
    let c : SqliteConnection Store := .ofDatabase ⟨[⟨rule, [⟨7, [.integer 7]⟩], 7⟩], none⟩
    let records : List s.Record := [(⟨5, by decide⟩, ()), (⟨7, by decide⟩, ()), (⟨9, by decide⟩, ())]
    ∃ n, ∀ e e' : Engine, Agree e e' s records c c n := by
  intro s rule c records
  have hidle : c.Idle := ⟨rfl, rfl⟩
  have hstep : Store.changing (fun ts => ts.execute (.createTable (s.createTable true)))
      c.database = .ok c.database := by decide +kernel
  have hthere : createTable s true c = .ok () c := by
    simp only [createTable, Connection.execute, execute, onDatabase, Database.execute, Store.step,
      hstep]
  exact insert_iff_write s records hidle hidle rfl hthere

end Engine

end SqlRecords
