import SqlRecords.Proofs.Engine.CleanUp
import SqlRecords.Proofs.Engine.RecordIter
import SqlRecords.Session.Transaction

/-!
# Transactions are all or nothing

Inside a `Transaction` any `Work` of an engine can be done: making and dropping tables,
inserting, loading in bulk, changing, deleting and reading. A bulk load is the only one of
these that has a transaction of its own to begin, commit and roll back. It gives itself up
when it cannot begin it, without a ROLLBACK, so it leaves the outer transaction alone.

`ScopeLaws` is all that is taken of the database: BEGIN fails inside a transaction, ROLLBACK
leads back to what was there at BEGIN, and statements neither end the transaction nor move
what it leads back to, whether or not they fail. The database is `Logged`, so that it can be
told which commands about transactions it was sent.

## What is proved

* `Engine.Work.stays`: no work inside a transaction sends a command that begins or ends one,
  nor moves what a rollback leads back to.
* `Transaction.OpenOn.carryOut`: nor do any works, one after the other.
* **`Transaction.carryOut_allOrNothing`**: whatever is done inside a transaction and whatever
  of it fails, the contents are those at BEGIN if it is dropped, and those before the commit if
  it is committed.
-/

namespace SqlRecords

open Sqlite SqliteConnection

variable {δ τ : Type}

/-! ### Databases -/

/-- What a database keeps for a transaction: `contents` are the tables with their rows, and `saved`
those that a rollback leads back to, if there is a transaction. -/
structure ScopeLaws [Database δ] (contents : δ → τ) (saved : δ → Option τ) : Prop where
  /-- A transaction begins outside of one alone, with the contents that are there. -/
  begin : ∀ d : δ, Ensures Database.begin d
    (fun _ d' => saved d = none ∧ contents d' = contents d ∧ saved d' = some (contents d))
    (fun _ d' => contents d' = contents d ∧ saved d' = saved d)
  /-- A commit keeps the contents. If it fails, the transaction goes on. -/
  commit : ∀ d : δ, Ensures Database.commit d
    (fun _ d' => contents d' = contents d ∧ saved d' = none)
    (fun _ d' => contents d' = contents d ∧ saved d' = saved d)
  /-- A rollback leads back. -/
  rollback : ∀ (d : δ) (base : τ), saved d = some base →
    Ensures Database.rollback d (fun _ d' => contents d' = base ∧ saved d' = none)
      (fun _ _ => False)
  /-- No statement ends the transaction. -/
  execute : ∀ s, Leaves saved (Database.execute s)
  /-- Preparing an INSERT does not either. -/
  prepare : ∀ i, Leaves saved (Database.prepare i)
  /-- Nor does a row. -/
  insertRow : ∀ i row, Leaves saved (Database.insertRow i row)
  /-- Nor a query. -/
  query : ∀ q, Leaves saved (Database.query q)

/-- A database in memory saves its tables. -/
theorem Sqlite.Store.scopeLaws : ScopeLaws Store.tables Store.saved where
  begin s := by
    refine Store.ensures_step.mpr ?_
    cases h : s.saved <;> simp [Store.begin, h]
  commit s := by
    refine Store.ensures_step.mpr ?_
    cases h : s.saved <;> simp [Store.commit, h]
  rollback s base h := by
    refine Store.ensures_step.mpr ?_
    simp [Store.rollback, h]
  execute _ := Store.changing_leaves_saved _
  prepare _ := (Store.prepare_leaves _).map Store.saved
  insertRow _ _ := Store.changing_leaves_saved _
  query _ := (Store.query_leaves _).map Store.saved

/-! ### Commands about transactions -/

namespace Sqlite

/-- The command begins or ends a transaction. -/
def Command.isTurn : Command → Bool
  | .begin | .commit | .rollback => true
  | _ => false

/-- The command began a transaction, or was to end one. A BEGIN that failed changes nothing. -/
def Sent.isTurn (s : Sent) : Bool :=
  match s.command with
  | .begin => s.succeeded
  | command => command.isTurn

/-- The commands that began a transaction or were to end one. -/
def Logged.turns (d : Logged δ) : List Sent := d.log.filter Sent.isTurn

theorem Logged.turns_send {sent : Sent} (h : sent.isTurn = true) (database : δ) (d : Logged δ) :
    (⟨database, d.log ++ [sent]⟩ : Logged δ).turns = d.turns ++ [sent] := by
  simp [turns, h]

/-- What is seen of a transaction from inside: what a rollback leads back to, and the commands about
transactions that were sent. -/
def Logged.outer (saved : δ → Option τ) (d : Logged δ) : Option τ × List Sent :=
  (saved d.database, d.turns)

/-- A command that is not about transactions leaves them alone. -/
theorem Logged.send_leaves_outer {α : Type} {saved : δ → Option τ} {command : Command}
    (hc : command.isTurn = false) {step : Step δ α} (h : Leaves saved step) :
    Leaves (Logged.outer saved) (Logged.send command step) := by
  have hkept : ∀ ok, Sent.isTurn ⟨command, ok⟩ = false := fun ok => by
    cases command <;> first | rfl | cases hc
  refine fun d => Logged.ensures_send.mpr
    ((h d.database).mono (fun _ d' hd => ?_) (fun _ d' hd => ?_))
  · simp [Logged.outer, Logged.turns, hkept, hd]
  · simp [Logged.outer, Logged.turns, hkept, hd]

end Sqlite

/-! ### What is done inside -/

namespace Engine

/-- Something that an engine does. -/
inductive Work where
  /-- Makes the table of a record. -/
  | createTable (s : Schema) (ifNotExists : Bool)
  /-- Drops the table of a record. -/
  | dropTable (s : Schema) (ifExists : Bool)
  /-- Inserts records. -/
  | insert (s : Schema) (records : List s.Record)
  /-- Inserts records, overwriting rows that are there already. -/
  | insertOrReplace (s : Schema) (records : List s.Record)
  /-- Loads records in bulk. -/
  | write (s : Schema) (records : List s.Record)
  /-- Updates rows. -/
  | update (u : Update)
  /-- Deletes rows. -/
  | deleteFrom (d : DeleteFrom)
  /-- Reads all records of a query. -/
  | readAll (s : Schema) (q : Select)

/-- Work as an action. The records that are read are dropped. -/
def Work.action {σ κ : Type} [Connection σ κ] (e : Engine) : Work → Action σ Unit
  | .createTable s ifNotExists => Engine.createTable s ifNotExists
  | .dropTable s ifExists => Engine.dropTable s ifExists
  | .insert s records => e.insert s records
  | .insertOrReplace s records => e.insertOrReplace s records
  | .write s records => e.write s records
  | .update u => Engine.update u
  | .deleteFrom d => Engine.deleteFrom d
  | .readAll s q => do let _ ← e.readAll s q

variable {β : Type} {view : δ → β}

/-- Pieces are inserted one by one. -/
theorem insertWith_sameView [Database δ] (e : Engine) {i : Insert}
    (hp : Leaves view (Database.prepare (δ := δ) i))
    (hr : ∀ row, Leaves view (Database.insertRow (δ := δ) i row)) (rows : List Row)
    (c : SqliteConnection δ) :
    Ensures (e.insertWith i rows) c (fun _ d => SameView view c d)
      (fun _ d => SameView view c d) := by
  unfold insertWith
  induction chunks e.batchSize rows generalizing c with
  | nil => exact .refl c
  | cons piece rest ih =>
    refine (ensures_bind (insertRows i piece) _).mpr
      ((insertRows_sameView hp hr piece c).mono (fun _ d hd => ?_) (fun _ _ hd => hd))
    exact (ih d).mono (fun _ _ hd' => hd.trans hd') (fun _ _ hd' => hd.trans hd')

/-- A reading gives the connection back as the query left it. -/
theorem readAll_sameView [Database δ] (e : Engine) {s : Schema} {q : Select}
    (h : Leaves view (Database.query (δ := δ) q)) (c : SqliteConnection δ) :
    Ensures (e.readAll s q) c (fun _ d => SameView view c d) (fun _ d => SameView view c d) := by
  let fault := queryFault (Dialect.text .sqlite (Dialect.select .sqlite q))
  have hquery : Ensures (onDatabase fault (Database.query q)) c (fun _ d => SameView view c d)
      (fun _ d => SameView view c d) := ensures_sameView h c
  unfold Ensures at hquery ⊢
  simp only [readAll, readIter, Connection.query, SqliteConnection.query]
  cases hopen : onDatabase fault (Database.query q) c with
  | error err d =>
    rw [hopen] at hquery
    exact hquery
  | ok results d =>
    rw [hopen] at hquery
    have hkept : (RecordIter.ofCursor ⟨d, results, false⟩ e.batchSize :
        RecordIter s (SqliteCursor δ)).collect.2.cursor.connection = d :=
      (RecordIter.collect_spec rfl e.batchSize_pos).2
    simp only [Except.map]
    generalize (RecordIter.ofCursor _ _ : RecordIter s (SqliteCursor δ)).collect = collected at hkept
    obtain ⟨outcome, after⟩ := collected
    have hback : SameView view c after.cursor.connection := hkept ▸ hquery
    cases outcome <;> exact hback

variable [Database δ] {contents : δ → τ} {saved : δ → Option τ}

/-- A bulk write cannot begin its own transaction inside another one, and gives itself up. -/
theorem startWrite_inside (laws : ScopeLaws contents saved) {c : SqliteConnection (Logged δ)}
    (hc : saved c.database.database ≠ none) (w : Write) :
    Ensures (SqliteConnection.startWrite w) c (fun _ _ => False)
      (fun _ d => SameView (Logged.outer saved) c d) := by
  unfold SqliteConnection.startWrite
  simp only [ensures_bind, ensures_get, ensures_ofResult, ensures_modify, ensures_attempt,
    beginTransaction, ensures_onDatabase]
  refine ⟨fun writing hw => ?_, fun _ _ => .refl c⟩
  refine Logged.ensures_send.mpr ((laws.begin c.database.database).mono (fun _ d hd => hc hd.1)
    fun _ d hd => ?_)
  unfold WriteState.start at hw
  split at hw
  · cases hw
  · next hidle =>
    simp only [abort, ensures_modify, ensures_throw]
    exact ⟨congrArg WriteState.mk hidle.symm, by
      simp [Logged.outer, Logged.turns, Sent.isTurn, hd.2]⟩

/-- **No work ends the transaction that it is done in**, and none moves what that leads back to. -/
theorem Work.stays (laws : ScopeLaws contents saved) (e : Engine) (w : Work)
    {c : SqliteConnection (Logged δ)} (hc : saved c.database.database ≠ none) :
    Ensures (w.action e) c (fun _ d => SameView (Logged.outer saved) c d)
      (fun _ d => SameView (Logged.outer saved) c d) := by
  have hexecute (s : Statement) (c : SqliteConnection (Logged δ)) :
      Ensures (SqliteConnection.execute s) c (fun _ d => SameView (Logged.outer saved) c d)
        (fun _ d => SameView (Logged.outer saved) c d) :=
    ensures_sameView (Logged.send_leaves_outer rfl (laws.execute s)) c
  have hrow (i : Insert) (row : Row) :
      Leaves (Logged.outer saved) (Database.insertRow (δ := Logged δ) i row) :=
    Logged.send_leaves_outer rfl (laws.insertRow i row)
  have hinsert (i : Insert) (rows : List Row) :=
    e.insertWith_sameView (Logged.send_leaves_outer rfl (laws.prepare i)) (hrow i) rows c
  cases w with
  | createTable s ifNotExists => exact hexecute _ c
  | dropTable s ifExists => exact hexecute _ c
  | insert s records => exact hinsert _ _
  | insertOrReplace s records => exact hinsert _ _
  | write s records =>
    simp only [action, Engine.write, ensures_bind]
    refine (hexecute _ c).mono (fun _ c₁ h₁ => ?_) (fun _ _ hd => hd)
    have hc₁ : saved c₁.database.database ≠ none := by
      rwa [show saved c₁.database.database = _ from congrArg Prod.fst h₁.viewed]
    exact (startWrite_inside laws hc₁ _).mono (fun _ _ hd => hd.elim) (fun _ _ hd => h₁.trans hd)
  | update u => exact hexecute _ c
  | deleteFrom d => exact hexecute _ c
  | readAll s q =>
    simp only [action, ensures_bind]
    exact e.readAll_sameView (Logged.send_leaves_outer rfl (laws.query q)) c

end Engine

/-! ### The whole transaction -/

namespace Transaction

/-- Does some works, one after the other, each with its own engine and whichever of them fail. -/
def carryOut {σ κ : Type} [Connection σ κ] (t : Transaction σ)
    (works : List (Engine × Engine.Work)) : Transaction σ :=
  works.foldl (fun t work => ((onConnection (work.2.action work.1)).outcome t).2) t

/-- The transaction that was begun on a connection as it was is open, and nothing else was sent
about transactions since. -/
structure OpenOn (contents : δ → τ) (saved : δ → Option τ) (c : SqliteConnection (Logged δ))
    (t : Transaction (SqliteConnection (Logged δ))) : Prop where
  /-- It is open. -/
  isOpen : t.isOpen = true
  /-- A rollback leads back to the contents that were there. -/
  leadsBack : saved t.connection.database.database = some (contents c.database.database)
  /-- It was begun, and that is all. -/
  turns : t.connection.database.turns = c.database.turns ++ [⟨.begin, true⟩]
  /-- The bulk write in progress is what it was. -/
  writing : t.connection.writing = c.writing

variable [Database δ] {contents : δ → τ} {saved : δ → Option τ} {c : SqliteConnection (Logged δ)}
  {t : Transaction (SqliteConnection (Logged δ))}

theorem OpenOn.of_begin (laws : ScopeLaws contents saved) (h : begin c = .ok t) :
    OpenOn contents saved c t := by
  have hbegin : Ensures beginTransaction (ofConnection c) (fun _ t => OpenOn contents saved c t)
      (fun _ _ => True) := by
    simp only [beginTransaction, ofConnection, onConnection, ensures_bind, ensures_get,
      Bool.false_eq_true, if_false, ensures_onPart, ensures_modify]
    refine (ensures_onDatabase _ _).mpr <| Logged.ensures_send.mpr <|
      (laws.begin c.database.database).mono (fun _ d hd => ?_) (fun _ _ _ => trivial)
    exact ⟨rfl, hd.2.2, Logged.turns_send rfl _ _, rfl⟩
  unfold Ensures at hbegin
  unfold begin at h
  split at h
  · next hok =>
    cases h
    rw [hok] at hbegin
    exact hbegin
  · cases h

/-- No work ends the transaction. -/
theorem OpenOn.work (laws : ScopeLaws contents saved) (h : OpenOn contents saved c t) (e : Engine)
    (w : Engine.Work) : OpenOn contents saved c ((onConnection (w.action e)).outcome t).2 := by
  have hsame {d : SqliteConnection (Logged δ)} (hd : SameView (Logged.outer saved) t.connection d) :
      OpenOn contents saved c ⟨d, t.isOpen⟩ :=
    ⟨h.isOpen, (congrArg Prod.fst hd.viewed).trans h.leadsBack,
      (congrArg Prod.snd hd.viewed).trans h.turns, hd.writing.trans h.writing⟩
  refine Ensures.state ((ensures_onPart _ _ _).mpr ?_)
  exact (w.stays laws e (by simp [h.leadsBack])).mono (fun _ _ hd => hsame hd)
    (fun _ _ hd => hsame hd)

theorem OpenOn.carryOut (laws : ScopeLaws contents saved) (h : OpenOn contents saved c t)
    (works : List (Engine × Engine.Work)) : OpenOn contents saved c (t.carryOut works) := by
  induction works generalizing t with
  | nil => exact h
  | cons work rest ih => exact ih (h.work laws work.1 work.2)

/-- Outside of a transaction, a connection has some contents and has sent some commands about
transactions. -/
structure Settled (contents : δ → τ) (saved : δ → Option τ) (base : τ) (turns : List Sent)
    (c : SqliteConnection (Logged δ)) : Prop where
  /-- The contents. -/
  holds : contents c.database.database = base
  /-- There is no transaction. -/
  outside : saved c.database.database = none
  /-- The commands. -/
  turns : c.database.turns = turns

/-- An open transaction that is dropped leads back to what was saved. -/
theorem drop_settled (laws : ScopeLaws contents saved) {base : τ} (hopen : t.isOpen = true)
    (hsaved : saved t.connection.database.database = some base) :
    Settled contents saved base (t.connection.database.turns ++ [⟨.rollback, true⟩]) t.drop := by
  have hrollback : Ensures (SqliteConnection.rollback (δ := Logged δ)) t.connection
      (fun _ d => Settled contents saved base
        (t.connection.database.turns ++ [⟨.rollback, true⟩]) d) (fun _ _ => False) := by
    refine (ensures_onDatabase _ _).mpr <| Logged.ensures_send.mpr <|
      (laws.rollback _ base hsaved).mono (fun _ d hd => ?_) (fun _ _ hd => hd)
    exact ⟨hd.1, hd.2, Logged.turns_send rfl _ _⟩
  rw [drop, if_pos hopen]
  exact (hrollback.mono (fun _ _ hd => hd) (fun _ _ hd => hd.elim)).state

/-- A transaction that is committed keeps its contents. One whose commit fails goes on. -/
theorem commit_ensures (laws : ScopeLaws contents saved) (hopen : t.isOpen = true) :
    Ensures commit t
      (fun _ v => v.isOpen = false ∧
        Settled contents saved (contents t.connection.database.database)
          (t.connection.database.turns ++ [⟨.commit, true⟩]) v.connection)
      (fun _ v => v.isOpen = true ∧
        saved v.connection.database.database = saved t.connection.database.database ∧
        v.connection.database.turns = t.connection.database.turns ++ [⟨.commit, false⟩]) := by
  simp only [commit, hopen, onConnection, ensures_bind, ensures_get, if_true, ensures_onPart,
    ensures_modify]
  refine (ensures_onDatabase _ _).mpr <| Logged.ensures_send.mpr <|
    (laws.commit _).mono (fun _ d hd => ?_) (fun _ d hd => ?_)
  · exact ⟨trivial, hd.1, hd.2, Logged.turns_send rfl _ _⟩
  · exact ⟨trivial, hd.2, Logged.turns_send rfl _ _⟩

/-- **A transaction is all or nothing.** Begin one on any connection and do any work inside it, of
which anything may fail. It is open then, and no other transaction was begun and none ended since.
If it is dropped, the contents are those that were there when it was begun. If it is committed,
they are those that were seen inside just before; if the commit fails, it can still be dropped. -/
theorem carryOut_allOrNothing (laws : ScopeLaws contents saved) (h : begin c = .ok t)
    (works : List (Engine × Engine.Work)) :
    let u := t.carryOut works
    let before := contents c.database.database
    OpenOn contents saved c u ∧
    Settled contents saved before (c.database.turns ++ [⟨.begin, true⟩, ⟨.rollback, true⟩])
      u.drop ∧
    Ensures commit u
      (fun _ v => Settled contents saved (contents u.connection.database.database)
        (c.database.turns ++ [⟨.begin, true⟩, ⟨.commit, true⟩]) v.drop)
      (fun _ v => Settled contents saved before
        (c.database.turns ++ [⟨.begin, true⟩, ⟨.commit, false⟩, ⟨.rollback, true⟩]) v.drop) := by
  intro u before
  have hopen : OpenOn contents saved c u := (OpenOn.of_begin laws h).carryOut laws works
  refine ⟨hopen, ?_, (commit_ensures laws hopen.isOpen).mono (fun _ v hv => ?_) fun _ v hv => ?_⟩
  · have hdrop := drop_settled laws hopen.isOpen hopen.leadsBack
    rwa [hopen.turns, List.append_assoc] at hdrop
  · obtain ⟨hclosed, hsettled⟩ := hv
    rw [drop, hclosed]
    rwa [hopen.turns, List.append_assoc] at hsettled
  · obtain ⟨hstill, hsaved, hturns⟩ := hv
    have hdrop := drop_settled laws hstill (hsaved.trans hopen.leadsBack)
    rwa [hturns, hopen.turns, List.append_assoc, List.append_assoc] at hdrop

/-- A bulk write inside a transaction fails after it made its table, and so does nothing else; with
the rows that are inserted then, the table is gone when the transaction is dropped. -/
theorem carryOut_allOrNothing_nested :
    let s : Schema := ⟨"t", [⟨"a", _, Field.int .int64⟩]⟩
    let c : SqliteConnection (Logged Store) := .ofDatabase ⟨.empty, []⟩
    let works : List (Engine × Engine.Work) :=
      [(.default, .write s [(⟨7, by decide⟩, ())]), (.default, .insert s [(⟨8, by decide⟩, ())])]
    ∃ t, begin c = .ok t ∧
      ((t.carryOut works).connection.database.database.tables.map (·.rows.length)) = [1] ∧
      (t.carryOut works).drop.database.database.tables = [] := by
  intro s c works
  refine ⟨⟨(SqliteConnection.beginTransaction.outcome c).2, true⟩, rfl, ?_, ?_⟩
  · decide +kernel
  · exact (carryOut_allOrNothing Sqlite.Store.scopeLaws (c := c) rfl works).2.1.holds

end Transaction

end SqlRecords
