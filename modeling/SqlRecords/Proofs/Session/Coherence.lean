import SqlRecords.Proofs.Sqlite.Connection
import SqlRecords.Session.Transaction

/-!
# Transactions and bulk writes share one transaction of the database

A connection can be held by a `Transaction`, which begins and ends transactions of the
database, and it can have a bulk write in progress, which has a transaction of its own
as well. The database has one at most. Both keep a flag that says whether they have
it: the `Transaction` in `isOpen`, the connection in `writing`.

A `Session` is a connection with all that hold it: transactions one inside the other,
of which the innermost can be used, and maybe a cursor, which has the connection to
itself until it is closed. A `Move` is a call that the holder can make. Begin, commit
and rollback are called through a `Transaction` alone, never on the connection. A move
that cannot be made in a session leaves it as it is.

## What is proved

`Coherent` says that the flags tell the truth: the database is inside a transaction if
and only if a held `Transaction` is open or a bulk write is in progress, and these are
not both the case. `run_coherent` says that this holds at any time, whatever moves were
made and whichever of them failed. Of the database it takes what `TransactionLaws`
lists, and nothing else.
-/

namespace SqlRecords

open Sqlite SqliteConnection

/-! ### Databases -/

/-- A step ends the transaction of the database, and fails if there is none. -/
def Ends {δ : Type} (inside : δ → Bool) (step : Step δ Unit) : Prop :=
  ∀ d, Ensures step d (fun _ d' => inside d = true ∧ inside d' = false)
    (fun _ d' => inside d = false ∧ inside d' = false)

/-- What a database does to its transaction. -/
structure TransactionLaws {δ : Type} [Database δ] (inside : δ → Bool) : Prop where
  /-- A transaction begins outside of one, and only there. -/
  begin : ∀ d : δ, Ensures Database.begin d (fun _ d' => inside d = false ∧ inside d' = true)
    (fun _ d' => inside d = true ∧ inside d' = true)
  /-- It can be committed. -/
  commit : Ends inside Database.commit
  /-- It can be rolled back. -/
  rollback : Ends inside Database.rollback
  /-- No statement begins or ends one. -/
  execute : ∀ s, Leaves inside (Database.execute s)
  /-- Preparing an INSERT does not either. -/
  prepare : ∀ i, Leaves inside (Database.prepare i)
  /-- Nor does a row. -/
  insertRow : ∀ i row, Leaves inside (Database.insertRow i row)
  /-- Nor a query. -/
  query : ∀ q, Leaves inside (Database.query q)

/-- A database in memory is inside a transaction if it has tables to go back to. -/
theorem Sqlite.Store.transactionLaws : TransactionLaws fun s : Store => s.saved.isSome where
  begin s := by
    refine Store.ensures_step.mpr ?_
    cases h : s.saved <;> simp [Store.begin, h]
  commit s := by
    refine Store.ensures_step.mpr ?_
    cases h : s.saved <;> simp [Store.commit, h]
  rollback s := by
    refine Store.ensures_step.mpr ?_
    cases h : s.saved <;> simp [Store.rollback, h]
  execute _ := (Store.changing_leaves_saved _).map _
  prepare _ := (Store.prepare_leaves _).map fun s => s.saved.isSome
  insertRow _ _ := (Store.changing_leaves_saved _).map _
  query _ := (Store.query_leaves _).map fun s => s.saved.isSome

/-! ### Sessions -/

/-- A connection at hand, or the cursor that has it. -/
inductive Hand (δ : Type) where
  /-- The connection. -/
  | connection (c : SqliteConnection δ)
  /-- A cursor. -/
  | cursor (k : SqliteCursor δ)

/-- The connection, whoever has it. -/
def Hand.theConnection {δ : Type} : Hand δ → SqliteConnection δ
  | .connection c => c
  | .cursor k => k.connection

/-- A connection with all that hold it. -/
structure Session (δ : Type) where
  /-- The connection, or the cursor that has it. -/
  hand : Hand δ
  /-- For each `Transaction` that holds the connection whether it is open, the innermost first. -/
  holds : List Bool

namespace Session

/-- A call of the connection that neither begins nor ends a transaction by itself. -/
inductive Call where
  /-- Begins a bulk write. -/
  | startWrite (w : Write)
  /-- Sends rows to it. -/
  | write (rows : List Row)
  /-- Ends it. -/
  | endWrite
  /-- Inserts rows. -/
  | insert (i : Insert) (rows : List Row)
  /-- Executes a statement. -/
  | execute (s : Statement)

/-- A call of a `Transaction`. -/
inductive Request where
  /-- Begins a transaction. -/
  | begin
  /-- Commits it. -/
  | commit
  /-- Rolls it back. -/
  | rollback

/-- What the holder of a session can do. -/
inductive Move where
  /-- Holds the connection with a `Transaction`, without a transaction of the database. -/
  | hold
  /-- Holds it and begins a transaction. -/
  | begin
  /-- Asks something of the innermost `Transaction`. -/
  | ask (r : Request)
  /-- Drops the innermost `Transaction`. -/
  | drop
  /-- Calls the connection. -/
  | call (a : Call)
  /-- Opens a query. -/
  | query (q : Select)
  /-- Fetches a batch from the cursor. -/
  | fetch (size : Nat)
  /-- Closes the cursor. -/
  | close

variable {δ : Type}

/-- A connection that nobody holds. -/
def ofConnection (c : SqliteConnection δ) : Session δ := ⟨.connection c, []⟩

/-- A connection held by a `Transaction`, and by others around it. -/
def held (t : Transaction (SqliteConnection δ)) (outer : List Bool) : Session δ :=
  ⟨.connection t.connection, t.isOpen :: outer⟩

/-- The flags tell where the database is. -/
structure Coherent (inside : δ → Bool) (s : Session δ) : Prop where
  /-- It is inside a transaction if a `Transaction` is open or there is a bulk write, and only then. -/
  inside_iff : inside s.hand.theConnection.database = true ↔
    true ∈ s.holds ∨ s.hand.theConnection.writing.isActive = true
  /-- Not both are the case. -/
  apart : ¬(true ∈ s.holds ∧ s.hand.theConnection.writing.isActive = true)

/-! ### What happens -/

section Moves

variable [Database δ]

/-- A call as an action. -/
def Call.action : Call → Action (SqliteConnection δ) Unit
  | .startWrite w => SqliteConnection.startWrite w
  | .write rows => SqliteConnection.write rows
  | .endWrite => SqliteConnection.endWrite
  | .insert i rows => SqliteConnection.insertRows i rows
  | .execute s => SqliteConnection.execute s

/-- A request as an action. -/
def Request.action : Request → Action (Transaction (SqliteConnection δ)) Unit
  | .begin => Transaction.beginTransaction
  | .commit => Transaction.commit
  | .rollback => Transaction.rollback

/-- What a move makes of a connection at hand. -/
def onConnection (c : SqliteConnection δ) (holds : List Bool) : Move → Session δ
  | .hold => held (.ofConnection c) holds
  | .begin =>
    match Transaction.begin c with
    | .ok t => held t holds
    | .error (_, c) => ⟨.connection c, holds⟩
  | .ask r =>
    match holds with
    | [] => ⟨.connection c, []⟩
    | isOpen :: outer => held (r.action.outcome ⟨c, isOpen⟩).2 outer
  | .drop =>
    match holds with
    | [] => ⟨.connection c, []⟩
    | isOpen :: outer => ⟨.connection (Transaction.drop ⟨c, isOpen⟩), outer⟩
  | .call a => ⟨.connection (a.action.outcome c).2, holds⟩
  | .query q =>
    match Connection.query q c with
    | .ok k => ⟨.cursor k, holds⟩
    | .error (_, c) => ⟨.connection c, holds⟩
  | .fetch _ | .close => ⟨.connection c, holds⟩

/-- What a move makes of a cursor. -/
def onCursor (k : SqliteCursor δ) (holds : List Bool) : Move → Session δ
  | .fetch size => ⟨.cursor ((Cursor.fetch size).outcome k).2, holds⟩
  | .close => ⟨.connection (Connection.close k), holds⟩
  | _ => ⟨.cursor k, holds⟩

/-- Makes a move. -/
def step (s : Session δ) (m : Move) : Session δ :=
  match s.hand with
  | .connection c => onConnection c s.holds m
  | .cursor k => onCursor k s.holds m

/-- Makes moves, one after the other. -/
def run (s : Session δ) (moves : List Move) : Session δ := moves.foldl step s

end Moves

/-! ### What is counted -/

/-- So many transactions are open as the database is inside of, which is one or none: `n` of those
that hold the connection, and that of the bulk write. -/
def Balanced (inside : δ → Bool) (n : Nat) (c : SqliteConnection δ) : Prop :=
  n + c.writing.isActive.toNat = (inside c.database).toNat

variable {inside : δ → Bool} {n : Nat} {c : SqliteConnection δ}

theorem Balanced.of_sameView {d : SqliteConnection δ} (h : Balanced inside n c)
    (hs : SameView inside c d) : Balanced inside n d := by
  unfold Balanced
  rw [hs.writing, hs.viewed]
  exact h

/-- Without a bulk write, the holders have the transaction. -/
theorem balanced_of_idle (hc : c.writing.isActive = false) :
    Balanced inside n c ↔ n = (inside c.database).toNat := by
  rw [Balanced, hc]
  rfl

/-- A bulk write has the transaction for itself. -/
theorem balanced_of_active (hc : c.writing.isActive = true) :
    Balanced inside n c ↔ n = 0 ∧ inside c.database = true := by
  rw [Balanced, hc]
  cases inside c.database <;> simp

/-- An open holder has the transaction for itself. -/
theorem balanced_succ :
    Balanced inside (n + 1) c ↔
      n = 0 ∧ c.writing.isActive = false ∧ inside c.database = true := by
  rw [Balanced]
  cases c.writing.isActive <;> cases inside c.database <;> simp

/-- Outside of a transaction nobody has one. -/
theorem balanced_of_outside (hc : inside c.database = false) :
    Balanced inside n c ↔ n = 0 ∧ c.writing.isActive = false := by
  rw [Balanced, hc]
  cases c.writing.isActive <;> simp

/-- Inside a transaction, the step that ends it succeeds. -/
theorem ensures_ends {fault : String → Error} {step : Step δ Unit} (h : Ends inside step)
    (hc : inside c.database = true) :
    Ensures (onDatabase fault step) c
      (fun _ d => d.writing = c.writing ∧ inside d.database = false) (fun _ _ => False) := by
  refine (ensures_onDatabase _ _).mpr ((h c.database).mono (fun _ d hd => ⟨rfl, hd.2⟩) ?_)
  intro _ d hd
  rw [hc] at hd
  cases hd.1

/-- An open holder that ends its transaction is a holder less. -/
theorem ends_balanced {fault : String → Error} {step : Step δ Unit} (h : Ends inside step)
    (hc : Balanced inside (n + 1) c) :
    Ensures (onDatabase fault step) c (fun _ d => Balanced inside n d) (fun _ _ => False) := by
  obtain ⟨hn, hw, hi⟩ := balanced_succ.mp hc
  refine (ensures_ends h hi).mono (fun _ d hd => ?_) (fun _ _ hd => hd)
  rw [balanced_of_outside hd.2, hd.1]
  exact ⟨hn, hw⟩

/-- In a session so many `Transaction`s are open as there are transactions to have. -/
def IsBalanced (inside : δ → Bool) (s : Session δ) : Prop :=
  Balanced inside (s.holds.count true) s.hand.theConnection

theorem isBalanced_held {t : Transaction (SqliteConnection δ)} {outer : List Bool} :
    IsBalanced inside (held t outer) ↔
      Balanced inside (outer.count true + t.isOpen.toNat) t.connection := by
  rw [IsBalanced, held, List.count_cons]
  cases t.isOpen <;> rfl

/-- What is counted tells what the flags say. -/
theorem IsBalanced.coherent {s : Session δ} (h : IsBalanced inside s) : Coherent inside s := by
  have hcount : true ∈ s.holds ↔ s.holds.count true ≠ 0 := by
    rw [← List.count_pos_iff, Nat.pos_iff_ne_zero]
  unfold IsBalanced Balanced at h
  constructor
  · rw [hcount]
    cases hi : inside s.hand.theConnection.database <;>
      cases hw : s.hand.theConnection.writing.isActive <;> simp_all
  · rw [hcount]
    cases hi : inside s.hand.theConnection.database <;>
      cases hw : s.hand.theConnection.writing.isActive <;> simp_all

/-- A cursor that fetches leaves its connection alone. -/
theorem connection_fetch (size : Nat) (k : SqliteCursor δ) :
    ((Cursor.fetch size).outcome k).2.connection = k.connection := by
  simp only [Cursor.fetch, Action.outcome, SqliteCursor.fetch]
  split
  · next h =>
    split at h
    · cases h
      rfl
    · split at h
      · cases h
        rfl
      · cases h
  · next h =>
    split at h
    · cases h
    · split at h
      · cases h
      · cases h
        rfl

/-! ### What a call does to the flags -/

variable [Database δ]

/-- A call neither opens nor closes a transaction that holds the connection. -/
theorem call_balanced (laws : TransactionLaws inside) (a : Call) (h : Balanced inside n c) :
    Ensures a.action c (fun _ d => Balanced inside n d) (fun _ d => Balanced inside n d) := by
  cases a with
  | startWrite w =>
    simp only [Call.action, SqliteConnection.startWrite, ensures_bind, ensures_get, ensures_ofResult,
      ensures_modify, ensures_attempt, beginTransaction, ensures_onDatabase]
    refine ⟨fun writing hw => ?_, fun _ _ => h⟩
    unfold WriteState.start at hw
    split at hw
    · cases hw
    · next hidle =>
      cases hw
      rw [balanced_of_idle (by rw [WriteState.isActive, hidle]; rfl)] at h
      refine (laws.begin c.database).mono (fun _ d hd => ?_) (fun _ d hd => ?_)
      · rw [hd.1] at h
        exact (balanced_of_active rfl).mpr ⟨h, hd.2⟩
      · -- a holder has the transaction
        rw [hd.1, ← hd.2] at h
        exact (balanced_of_idle rfl).mpr h
  | write rows =>
    simp only [Call.action, SqliteConnection.write, ensures_bind, ensures_get, ensures_ofResult,
      ensures_attempt]
    refine ⟨fun i hi => ?_, fun _ _ => h⟩
    refine (insertRows_sameView (laws.prepare i) (laws.insertRow i) rows c).mono
      (fun _ _ hs => h.of_sameView hs) (fun _ d hs => ?_)
    unfold WriteState.current at hi
    split at hi
    · next hactive =>
      obtain ⟨hn, hi⟩ := (balanced_of_active
        (by rw [hs.writing, WriteState.isActive, hactive]; rfl)).mp (h.of_sameView hs)
      simp only [abort, ensures_modify, ensures_ignore, ensures_throw]
      refine Ensures.mono (ensures_ends laws.rollback (by exact hi)) (fun _ d' hd' => ?_)
        (fun _ _ hd' => hd'.elim)
      rw [balanced_of_outside hd'.2, hd'.1]
      exact ⟨hn, rfl⟩
    · cases hi
  | endWrite =>
    simp only [Call.action, SqliteConnection.endWrite, ensures_bind, ensures_get, ensures_ofResult]
    refine ⟨fun x hx => ?_, fun _ _ => h⟩
    unfold WriteState.finish at hx
    split at hx
    · next hactive =>
      cases hx
      obtain ⟨hn, hi⟩ :=
        (balanced_of_active (by rw [WriteState.isActive, hactive]; rfl)).mp h
      simp only [ensures_modify]
      refine Ensures.mono (ensures_ends laws.commit (by exact hi)) (fun _ d hd => ?_)
        (fun _ _ hd => hd.elim)
      rw [balanced_of_outside hd.2, hd.1]
      exact ⟨hn, rfl⟩
    · cases hx
  | insert i rows =>
    exact (insertRows_sameView (laws.prepare i) (laws.insertRow i) rows c).mono
      (fun _ _ hs => h.of_sameView hs) (fun _ _ hs => h.of_sameView hs)
  | execute s =>
    exact (ensures_sameView (laws.execute s) c).mono
      (fun _ _ hs => h.of_sameView hs) (fun _ _ hs => h.of_sameView hs)

/-- What a `Transaction` is asked changes its flag along with the database. -/
theorem request_balanced (laws : TransactionLaws inside) (r : Request)
    {t : Transaction (SqliteConnection δ)} (h : Balanced inside (n + t.isOpen.toNat) t.connection) :
    Ensures r.action t (fun _ u => Balanced inside (n + u.isOpen.toNat) u.connection)
      (fun _ u => Balanced inside (n + u.isOpen.toNat) u.connection) := by
  obtain ⟨c, isOpen⟩ := t
  cases r with
  | begin =>
    simp only [Request.action, Transaction.beginTransaction, ensures_bind, ensures_get]
    split
    · exact h
    · next hopen =>
      obtain rfl : isOpen = false := by simpa using hopen
      simp only [Transaction.onConnection, ensures_bind, ensures_onPart,
        Connection.beginTransaction, beginTransaction, ensures_onDatabase, ensures_modify]
      refine (laws.begin c.database).mono (fun _ d hd => ?_) (fun _ d hd => ?_)
      · obtain ⟨hn, hw⟩ := (balanced_of_outside hd.1).mp h
        exact balanced_succ.mpr ⟨hn, hw, hd.2⟩
      · exact h.of_sameView ⟨rfl, hd.2.trans hd.1.symm⟩
  | commit =>
    simp only [Request.action, Transaction.commit, ensures_bind, ensures_get]
    split
    · next hopen =>
      obtain rfl : isOpen = true := hopen
      simp only [Transaction.onConnection, ensures_bind, ensures_onPart, ensures_modify]
      exact (ends_balanced laws.commit h).mono (fun _ _ hd => hd) (fun _ _ hd => hd.elim)
    · exact h
  | rollback =>
    simp only [Request.action, Transaction.rollback, ensures_bind, ensures_get]
    split
    · next hopen =>
      obtain rfl : isOpen = true := hopen
      simp only [Transaction.onConnection, ensures_bind, ensures_onPart, ensures_modify]
      exact (ends_balanced laws.rollback h).mono (fun _ _ hd => hd) (fun _ _ hd => hd.elim)
    · exact h

/-- A `Transaction` that is dropped has no transaction any more. -/
theorem drop_balanced (laws : TransactionLaws inside) {t : Transaction (SqliteConnection δ)}
    (h : Balanced inside (n + t.isOpen.toNat) t.connection) : Balanced inside n t.drop := by
  obtain ⟨c, isOpen⟩ := t
  cases isOpen with
  | false => exact h
  | true =>
    have hr : Ensures (SqliteConnection.rollback (δ := δ)) c (fun _ d => Balanced inside n d)
        (fun _ d => Balanced inside n d) :=
      (ends_balanced laws.rollback h).mono (fun _ _ hd => hd) (fun _ _ hd => hd.elim)
    exact hr.state

/-! ### Every move -/

/-- No move with the connection at hand lets the flags and the database drift apart. -/
theorem onConnection_balanced (laws : TransactionLaws inside) {holds : List Bool}
    (h : Balanced inside (holds.count true) c) (m : Move) :
    IsBalanced inside (onConnection c holds m) := by
  cases m with
  | hold => exact isBalanced_held.mpr h
  | begin =>
    have hb := request_balanced laws .begin (t := .ofConnection c) h
    unfold Ensures at hb
    simp only [onConnection, Transaction.begin]
    cases ht : (Transaction.beginTransaction (Transaction.ofConnection c) :
        EStateM.Result Error (Transaction (SqliteConnection δ)) Unit) with
    | ok x t =>
      simp only [Request.action, ht] at hb
      exact isBalanced_held.mpr hb
    | error e t =>
      simp only [Request.action, ht] at hb
      exact drop_balanced laws hb
  | ask r =>
    cases holds with
    | nil => exact h
    | cons isOpen outer =>
      have ht : IsBalanced inside (held ⟨c, isOpen⟩ outer) := h
      exact isBalanced_held.mpr (request_balanced laws r (isBalanced_held.mp ht)).state
  | drop =>
    cases holds with
    | nil => exact h
    | cons isOpen outer =>
      have ht : IsBalanced inside (held ⟨c, isOpen⟩ outer) := h
      exact drop_balanced laws (isBalanced_held.mp ht)
  | call a => exact (call_balanced laws a h).state
  | query q =>
    have hq : Ensures (onDatabase (queryFault (Dialect.text .sqlite (Dialect.select .sqlite q)))
        (Database.query q)) c (fun _ d => SameView inside c d) (fun _ d => SameView inside c d) :=
      ensures_sameView (laws.query q) c
    unfold Ensures at hq
    simp only [onConnection, Connection.query, SqliteConnection.query]
    cases hr : onDatabase (queryFault (Dialect.text .sqlite (Dialect.select .sqlite q)))
        (Database.query q) c with
    | ok results d =>
      rw [hr] at hq
      exact h.of_sameView hq
    | error e d =>
      rw [hr] at hq
      exact h.of_sameView hq
  | fetch _ => exact h
  | close => exact h

theorem step_balanced (laws : TransactionLaws inside) {s : Session δ} (h : IsBalanced inside s)
    (m : Move) : IsBalanced inside (s.step m) := by
  obtain ⟨hand, holds⟩ := s
  cases hand with
  | connection c => exact onConnection_balanced laws h m
  | cursor k =>
    cases m with
    | fetch size =>
      unfold IsBalanced at h ⊢
      simp only [step, onCursor, Hand.theConnection, connection_fetch]
      exact h
    | _ => exact h

/-- **The flags tell the truth at any time.** Whatever moves were made on a connection that nobody
held, that had no bulk write in progress and was outside of a transaction, and whichever of them
failed: the database is inside a transaction if and only if a held `Transaction` is open or a bulk
write is in progress, and never are both. -/
theorem run_coherent (laws : TransactionLaws inside) (hi : inside c.database = false)
    (hw : c.writing.isActive = false) (moves : List Move) :
    Coherent inside ((ofConnection c).run moves) := by
  have start : IsBalanced inside (ofConnection c) := (balanced_of_outside hi).mpr ⟨rfl, hw⟩
  suffices ∀ s : Session δ, IsBalanced inside s → IsBalanced inside (s.run moves) from
    (this _ start).coherent
  intro s hs
  induction moves generalizing s with
  | nil => exact hs
  | cons m rest ih => exact ih (s.step m) (step_balanced laws hs m)

/-- A `Transaction` inside another one cannot begin while that is open, nor can a bulk write. -/
theorem run_coherent_nested :
    let s := (ofConnection (.ofDatabase Store.empty)).run
      [.begin, .begin, .hold, .ask .begin, .call (.startWrite ⟨.named "t", []⟩), .drop]
    Coherent (fun d : Store => d.saved.isSome) s ∧ s.holds = [true] :=
  ⟨run_coherent Store.transactionLaws rfl rfl _, rfl⟩

end Session

end SqlRecords
