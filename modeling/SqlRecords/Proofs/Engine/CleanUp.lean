import SqlRecords.Engine.Basic
import SqlRecords.Field.Scalar
import SqlRecords.Proofs.Sqlite.Connection

/-!
# What a failed bulk write leaves open

Every command that a bulk write sends may fail: the one that makes the table, the one that
begins the transaction, each row, and the one that commits. `Logged δ` is a database that
writes down the commands sent to it and passes them on to a database of type `δ`. Nothing is
asked of that one, so its commands may succeed and fail in any pattern.

Rows that fail are followed by a ROLLBACK. A COMMIT that fails is not: the bulk write is
over for the connection by then, and nobody rolls its transaction back. A database that is
busy keeps the transaction open, and the next bulk write cannot begin its own.

## What is proved

* `SqliteConnection.startWrite_brackets`, `SqliteConnection.write_brackets`,
  `SqliteConnection.endWrite_brackets`: the commands of a bulk write besides its rows.
* **`Engine.write_rollsBack`**: a failed bulk write whose transaction was begun has sent a
  ROLLBACK behind it, unless it was COMMIT that failed.
* `Engine.write_commitFailed`: the transaction that a failed COMMIT leaves open is in the
  way of the next bulk write.
-/

namespace SqlRecords

namespace Sqlite

variable {δ α : Type}

/-! ### Databases that write down their commands -/

/-- A command sent to a database. -/
inductive Command where
  | begin
  | commit
  | rollback
  | execute (s : Statement)
  | executeText (sql : String)
  | prepare (i : Insert)
  | insertRow (i : Insert) (row : Row)
  | query (q : Select)

/-- The command is part of inserting rows. -/
def Command.isRow : Command → Bool
  | .prepare _ | .insertRow _ _ => true
  | _ => false

/-- The command rolls a transaction back. -/
def Command.isRollback : Command → Bool
  | .rollback => true
  | _ => false

/-- A command that was sent, and whether it succeeded. -/
structure Sent where
  /-- The command. -/
  command : Command
  /-- It succeeded. -/
  succeeded : Bool

/-- A database and the commands sent to it, the first one first. -/
structure Logged (δ : Type) where
  /-- The database. -/
  database : δ
  /-- The commands. -/
  log : List Sent

namespace Logged

/-- Sends a command to the database and writes it down. -/
def send (command : Command) (step : Step δ α) : Step (Logged δ) α := fun d =>
  match step d.database with
  | .ok a database => .ok a ⟨database, d.log ++ [⟨command, true⟩]⟩
  | .error text database => .error text ⟨database, d.log ++ [⟨command, false⟩]⟩

instance [Database δ] : Database (Logged δ) where
  begin := send .begin Database.begin
  commit := send .commit Database.commit
  rollback := send .rollback Database.rollback
  execute s := send (.execute s) (Database.execute s)
  executeText sql := send (.executeText sql) (Database.executeText sql)
  prepare i := send (.prepare i) (Database.prepare i)
  insertRow i row := send (.insertRow i row) (Database.insertRow i row)
  query q := send (.query q) (Database.query q)

/-- A command that is sent ends as it does on the database, and is written down. -/
theorem ensures_send {command : Command} {step : Step δ α} {d : Logged δ}
    {ok : α → Logged δ → Prop} {error : String → Logged δ → Prop} :
    Ensures (send command step) d ok error ↔
      Ensures step d.database (fun a database => ok a ⟨database, d.log ++ [⟨command, true⟩]⟩)
        (fun text database => error text ⟨database, d.log ++ [⟨command, false⟩]⟩) := by
  simp only [Ensures, send]
  cases step d.database <;> rfl

/-- The commands around the rows that were inserted. -/
def brackets (d : Logged δ) : List Sent := d.log.filter fun sent => !sent.command.isRow

/-- A command is written down whatever its outcome. -/
theorem send_brackets {command : Command} (h : command.isRow = false) (step : Step δ α)
    (d : Logged δ) :
    Ensures (send command step) d
      (fun _ d' => d'.brackets = d.brackets ++ [⟨command, true⟩])
      (fun _ d' => d'.brackets = d.brackets ++ [⟨command, false⟩]) := by
  simp only [Ensures, send]
  cases step d.database <;> simp [brackets, h]

/-- Inserting rows leaves the other commands alone. -/
theorem send_leaves_brackets (command : Command) (h : command.isRow = true) (step : Step δ α) :
    SqliteConnection.Leaves brackets (send command step) := fun d => by
  simp only [Ensures, send]
  cases step d.database <;> simp [brackets, h]

end Logged

end Sqlite

open Sqlite

variable {δ : Type}

/-! ### The calls of a bulk write -/

namespace SqliteConnection

/-- A call that sends a command other than a row's. -/
theorem ensures_sent {α : Type} (command : Command) (h : command.isRow = false)
    (fault : String → Error) (step : Step δ α) (c : SqliteConnection (Logged δ)) :
    Ensures (onDatabase fault (Logged.send command step)) c
      (fun _ d => d.writing = c.writing ∧
        d.database.brackets = c.database.brackets ++ [⟨command, true⟩])
      (fun _ d => d.writing = c.writing ∧
        d.database.brackets = c.database.brackets ++ [⟨command, false⟩]) :=
  (ensures_onDatabase _ _).mpr ((Logged.send_brackets h step c.database).mono
    (fun _ _ hd => ⟨rfl, hd⟩) (fun _ _ hd => ⟨rfl, hd⟩))

variable [Database δ]

/-- A bulk write is given up if its transaction cannot be begun. -/
theorem startWrite_brackets (w : Write) (c : SqliteConnection (Logged δ)) :
    Ensures (startWrite w) c
      (fun _ d => d.writing = ⟨some (insertOf w)⟩ ∧
        d.database.brackets = c.database.brackets ++ [⟨.begin, true⟩])
      (fun _ d => d.database.brackets = c.database.brackets ∨
        d.database.brackets = c.database.brackets ++ [⟨.begin, false⟩]) := by
  unfold startWrite
  simp only [ensures_bind, ensures_get, ensures_ofResult, ensures_modify, ensures_attempt]
  refine ⟨fun writing hw => ?_, fun _ _ => by simp⟩
  have hstarted : writing = ⟨some (insertOf w)⟩ := by
    unfold WriteState.start at hw
    split at hw
    · cases hw
    · cases hw
      rfl
  refine (ensures_sent .begin rfl _ _ _).mono (fun _ d hd => ?_) (fun _ d hd => ?_)
  · exact ⟨hd.1.trans hstarted, hd.2⟩
  · exact .inr hd.2

/-- A bulk write whose rows fail is given up, and a ROLLBACK is sent. -/
theorem write_brackets {i : Insert} {c : SqliteConnection (Logged δ)}
    (hc : c.writing = ⟨some i⟩) (rows : List Row) :
    Ensures (write rows) c
      (fun _ d => d.writing = ⟨some i⟩ ∧ d.database.brackets = c.database.brackets)
      (fun _ d => d.writing = .idle ∧
        ∃ ok, d.database.brackets = c.database.brackets ++ [⟨.rollback, ok⟩]) := by
  unfold write
  simp only [ensures_bind, ensures_get, ensures_ofResult, ensures_attempt, hc, WriteState.current]
  refine ⟨fun i' hi => ?_, fun _ he => by cases he⟩
  cases hi
  have hrows := insertRows_sameView (i := i) (Logged.send_leaves_brackets _ rfl _)
    (fun row => Logged.send_leaves_brackets (.insertRow i row) rfl _) rows c
  refine hrows.mono (fun _ d hd => ⟨hd.writing.trans hc, hd.viewed⟩) (fun _ d hd => ?_)
  simp only [abort, ensures_modify, ensures_ignore, ensures_throw]
  refine (ensures_sent .rollback rfl _ _ _).mono (fun _ d' hd' => ?_)
    (fun _ d' hd' => ?_)
  · exact ⟨hd'.1, true, hd'.2.trans (congrArg (· ++ _) hd.viewed)⟩
  · exact ⟨hd'.1, false, hd'.2.trans (congrArg (· ++ _) hd.viewed)⟩

/-- The bulk write is over when COMMIT is sent, which is the last command even if it fails. -/
theorem endWrite_brackets {i : Insert} {c : SqliteConnection (Logged δ)}
    (hc : c.writing = ⟨some i⟩) :
    Ensures endWrite c
      (fun _ d => d.writing = .idle ∧
        d.database.brackets = c.database.brackets ++ [⟨.commit, true⟩])
      (fun _ d => d.writing = .idle ∧
        d.database.brackets = c.database.brackets ++ [⟨.commit, false⟩]) := by
  unfold endWrite
  simp only [ensures_bind, ensures_get, ensures_ofResult, hc, WriteState.finish]
  refine ⟨fun x hx => ?_, fun _ he => by cases he⟩
  cases hx
  exact ensures_sent .commit rfl _ _ _

end SqliteConnection

/-! ### The whole bulk write -/

namespace Engine

open SqliteConnection

variable [Database δ]

/-- Sending records goes on with the bulk write, or gives it up and rolls it back. -/
theorem send_brackets (e : Engine) {s : Schema} {i : Insert} :
    ∀ (records : List s.Record) {buffer : List Row} {c : SqliteConnection (Logged δ)},
      c.writing = ⟨some i⟩ →
        Ensures (e.send s records buffer) c
          (fun _ d => d.writing = ⟨some i⟩ ∧ d.database.brackets = c.database.brackets)
          (fun _ d => d.writing = .idle ∧
            ∃ ok, d.database.brackets = c.database.brackets ++ [⟨.rollback, ok⟩])
  | [], buffer, c, hc => by
    unfold send
    split
    · exact ⟨hc, rfl⟩
    · exact SqliteConnection.write_brackets hc buffer
  | record :: records, buffer, c, hc => by
    unfold send
    simp only
    split
    · refine (ensures_bind _ _).mpr ((SqliteConnection.write_brackets hc _).mono
        (fun _ d hd => ?_) (fun _ _ hd => hd))
      rw [← hd.2]
      exact send_brackets e records hd.1
    · exact send_brackets e records hc

/-- **A bulk write and its transaction.** Whatever commands of the database fail, a bulk write
that succeeds has begun a transaction and committed it. One that fails after BEGIN succeeded is over
for the connection, and the last command behind BEGIN, but for the rows, is a ROLLBACK; or it is a
COMMIT that failed, and no ROLLBACK is sent behind it. -/
theorem write_rollsBack (e : Engine) (s : Schema) (records : List s.Record)
    (c : SqliteConnection (Logged δ)) :
    Ensures (e.write s records) c
      (fun _ d => d.writing = .idle ∧ ∃ sent, d.database.brackets =
        c.database.brackets ++ sent ++ [⟨.begin, true⟩, ⟨.commit, true⟩])
      (fun _ d => ∃ sent, d.database.brackets = c.database.brackets ++ sent ∧
        (⟨.begin, true⟩ ∈ sent → d.writing = .idle ∧
          ∃ before last, sent = before ++ [⟨.begin, true⟩, last] ∧
            (last.command = .rollback ∨ last = ⟨.commit, false⟩))) := by
  let created : Sent := ⟨.execute (.createTable (s.createTable true)), true⟩
  unfold write
  simp only [ensures_bind]
  refine (ensures_sent created.command rfl _ _ _).mono (fun _ c₁ h₁ => ?_)
    (fun _ d hd => ⟨_, hd.2, by simp⟩)
  refine (startWrite_brackets s.write c₁).mono (fun _ c₂ h₂ => ?_) (fun _ d hd => ?_)
  · have hbegun : c₂.database.brackets = c.database.brackets ++ [created, ⟨.begin, true⟩] := by
      rw [h₂.2, h₁.2, List.append_assoc]
      rfl
    refine (e.send_brackets records h₂.1).mono (fun _ c₃ h₃ => ?_) (fun _ d hd => ?_)
    · refine (endWrite_brackets h₃.1).mono (fun _ d hd => ⟨hd.1, [created], ?_⟩)
        (fun _ d hd => ⟨[created, ⟨.begin, true⟩, ⟨.commit, false⟩], ?_, fun _ => ⟨hd.1, ?_⟩⟩)
      · simp [hd.2, h₃.2, hbegun]
      · simp [hd.2, h₃.2, hbegun]
      · exact ⟨[created], ⟨.commit, false⟩, rfl, .inr rfl⟩
    · obtain ⟨hover, ok, hrolled⟩ := hd
      refine ⟨[created, ⟨.begin, true⟩, ⟨.rollback, ok⟩], ?_, fun _ => ⟨hover, ?_⟩⟩
      · simp [hrolled, hbegun]
      · exact ⟨[created], ⟨.rollback, ok⟩, rfl, .inl rfl⟩
  · rcases hd with hd | hd
    · exact ⟨[created], hd.trans h₁.2, by simp [created]⟩
    · exact ⟨[created, ⟨.begin, false⟩], by simp [hd, h₁.2, created], by simp [created]⟩

/-! ### A COMMIT that fails -/

/-- A database in memory that is too busy to commit. The transaction stays open. -/
structure Busy where
  /-- The database. -/
  store : Store

namespace Busy

/-- A step of the database in memory. -/
def step {α : Type} (step : Step Store α) : Step Busy α := fun d =>
  match step d.store with
  | .ok a store => .ok a ⟨store⟩
  | .error text store => .error text ⟨store⟩

instance : Database Busy where
  begin := step Database.begin
  commit := fun d => .error "database is locked" d
  rollback := step Database.rollback
  execute s := step (Database.execute s)
  executeText sql := step (Database.executeText sql)
  prepare i := step (Database.prepare i)
  insertRow i row := step (Database.insertRow i row)
  query q := step (Database.query q)

end Busy

/-- **A transaction that is left open.** COMMIT fails behind the rows, no ROLLBACK is sent, and the
next bulk write fails because there is a transaction already. -/
theorem write_commitFailed :
    let s : Schema := ⟨"t", [⟨"a", _, Field.int .int64⟩]⟩
    let c : SqliteConnection (Logged Busy) := .ofDatabase ⟨⟨.empty⟩, []⟩
    let source {α : Type} (r : Result α) : Option String :=
      match r with
      | .error e => e.source
      | .ok _ => none
    let first := (Engine.default.write s [(⟨7, by decide⟩, ())]).outcome c
    let next := (Engine.default.write s []).outcome first.2
    source first.1 = some "database is locked" ∧
      first.2.database.log.any (·.command.isRollback) = false ∧
        source next.1 = some "cannot start a transaction within a transaction" := by
  decide +kernel

end Engine

end SqlRecords
