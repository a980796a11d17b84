import SqlRecords.Engine.Basic
import SqlRecords.Proofs.Sqlite.Connection
import SqlRecords.Proofs.Sqlite.Tables

/-!
# Rows are taken up to the first that is refused

However rows get to a database in memory, each of them is either taken or refused, and the first
that is refused ends it. `intake` says what comes of some rows then: how many of them are taken, and
what the tables are. It knows nothing of pieces, transactions and prepared statements.

`Takes` and `Stops` are the two ways it can end. Rows that are sent in pieces take one of them
like rows that are sent all at once (`Takes.append`, `Takes.stops`, `Stops.append`).

## What is proved

* `SqliteConnection.sendRows_ensures`, `SqliteConnection.insertRows_ensures_taken`: rows that are
  sent end as `intake` says.
* `Engine.insertWith_ensures`: so do rows that are inserted piece by piece, whatever the size of
  the pieces.
* `Tables.gained_intake`: a plain INSERT gains the rows that are taken.
-/

namespace SqlRecords

open Sqlite

namespace SqliteConnection

/-! ### Taking rows -/

/-- The tables with one row more, unless the row is refused: before it is sent, or by the
database. -/
def accept (i : Insert) (row : Row) (ts : Tables) : Option Tables :=
  match checkRow i.columns row with
  | .ok () => (ts.insertRow i (row.map .ofCell)).toOption
  | .error _ => none

/-- Rows are taken one after the other, up to the first that is refused: how many of them are taken,
and the tables then. -/
def intake (i : Insert) : List Row → Tables → Nat × Tables
  | [], ts => (0, ts)
  | row :: rest, ts =>
    match accept i row ts with
    | some ts' => ((intake i rest ts').1 + 1, (intake i rest ts').2)
    | none => (0, ts)

variable {i : Insert} {row : Row} {rows more : List Row} {ts ts' ts'' : Tables}

theorem accept_eq_some_iff : accept i row ts = some ts' ↔
    checkRow i.columns row = .ok () ∧ ts.insertRow i (row.map .ofCell) = .ok ts' := by
  unfold accept
  cases checkRow i.columns row with
  | error e => simp
  | ok x => cases ts.insertRow i (row.map .ofCell) <;> simp [Except.toOption]

theorem intake_cons_of_some (h : accept i row ts = some ts') (rest : List Row) :
    intake i (row :: rest) ts = ((intake i rest ts').1 + 1, (intake i rest ts').2) := by
  rw [intake, h]

theorem intake_cons_of_none (h : accept i row ts = none) (rest : List Row) :
    intake i (row :: rest) ts = (0, ts) := by
  rw [intake, h]

/-- All rows are taken. -/
def Takes (i : Insert) (rows : List Row) (ts ts' : Tables) : Prop :=
  intake i rows ts = (rows.length, ts')

/-- Some row is refused, and those before it are taken. -/
def Stops (i : Insert) (rows : List Row) (ts ts' : Tables) : Prop :=
  (intake i rows ts).1 < rows.length ∧ (intake i rows ts).2 = ts'

theorem Takes.nil (i : Insert) (ts : Tables) : Takes i [] ts ts := rfl

/-- The first row is taken. -/
theorem Takes.cons (h : accept i row ts = some ts') (hrest : Takes i rows ts' ts'') :
    Takes i (row :: rows) ts ts'' := by
  unfold Takes at hrest ⊢
  rw [intake_cons_of_some h, hrest, List.length_cons]

/-- The first row is refused. -/
theorem Stops.first (h : accept i row ts = none) (rest : List Row) :
    Stops i (row :: rest) ts ts := by
  unfold Stops
  rw [intake_cons_of_none h]
  exact ⟨Nat.succ_pos _, rfl⟩

/-- The first row is taken, and a later one is refused. -/
theorem Stops.cons (h : accept i row ts = some ts') (hrest : Stops i rows ts' ts'') :
    Stops i (row :: rows) ts ts'' := by
  unfold Stops at hrest ⊢
  rw [intake_cons_of_some h]
  exact ⟨Nat.succ_lt_succ hrest.1, hrest.2⟩

/-- More rows have their turn if those before them are all taken. -/
theorem intake_append (i : Insert) (more : List Row) : ∀ (rows : List Row) (ts : Tables),
    intake i (rows ++ more) ts =
      if (intake i rows ts).1 = rows.length then
        (rows.length + (intake i more (intake i rows ts).2).1,
          (intake i more (intake i rows ts).2).2)
      else intake i rows ts
  | [], ts => by simp [intake]
  | row :: rest, ts => by
    cases h : accept i row ts with
    | none =>
      rw [List.cons_append, intake_cons_of_none h, intake_cons_of_none h]
      rfl
    | some ts' =>
      rw [List.cons_append, intake_cons_of_some h, intake_cons_of_some h,
        intake_append i more rest ts']
      simp only [List.length_cons, Nat.add_right_cancel_iff]
      split
      · simp only [Nat.add_right_comm]
      · rfl

/-- More rows are taken behind others. -/
theorem Takes.append (h : Takes i rows ts ts') (hmore : Takes i more ts' ts'') :
    Takes i (rows ++ more) ts ts'' := by
  unfold Takes at h hmore ⊢
  rw [intake_append, h, if_pos rfl, hmore, List.length_append]

/-- A row is refused behind others that are taken. -/
theorem Takes.stops (h : Takes i rows ts ts') (hmore : Stops i more ts' ts'') :
    Stops i (rows ++ more) ts ts'' := by
  unfold Takes at h
  unfold Stops at hmore ⊢
  rw [intake_append, h, if_pos rfl, List.length_append]
  exact ⟨Nat.add_lt_add_left hmore.1 _, hmore.2⟩

/-- Nothing comes behind a row that is refused. -/
theorem Stops.append (h : Stops i rows ts ts') (more : List Row) :
    Stops i (rows ++ more) ts ts' := by
  unfold Stops at h ⊢
  rw [intake_append, if_neg (Nat.ne_of_lt h.1), List.length_append]
  exact ⟨Nat.lt_add_right _ h.1, h.2⟩

/-- The tables behind rows that are all taken are given by the rows. -/
theorem Takes.eq (h : Takes i rows ts ts') (h' : Takes i rows ts ts'') : ts' = ts'' :=
  congrArg Prod.snd (Eq.trans (Eq.symm h) h')

/-- Rows cannot end both ways. -/
theorem Takes.not_stops (h : Takes i rows ts ts') : ¬Stops i rows ts ts'' := by
  intro hstops
  unfold Stops at hstops
  rw [show intake i rows ts = _ from h] at hstops
  exact Nat.lt_irrefl _ hstops.1

/-- The row behind those that are taken is refused. -/
theorem accept_getElem_intake (i : Insert) : ∀ (rows : List Row) (ts : Tables)
    (h : (intake i rows ts).1 < rows.length),
    accept i (rows[(intake i rows ts).1]) (intake i rows ts).2 = none
  | [], ts, h => absurd h (Nat.not_lt_zero _)
  | row :: rest, ts, h => by
    cases hrow : accept i row ts with
    | none =>
      simp only [intake_cons_of_none hrow]
      exact hrow
    | some ts' =>
      simp only [intake_cons_of_some hrow] at h ⊢
      exact accept_getElem_intake i rest ts' (Nat.lt_of_succ_lt_succ h)

end SqliteConnection

namespace Sqlite.Tables

open SqliteConnection

/-- **A plain INSERT gains the rows that are taken.** -/
theorem gained_intake {i : Insert} {name : String} (hi : i.orReplace = false)
    (ht : i.table = .named name) : ∀ (rows : List Row) {ts : Tables}, (ts.find? name).isSome →
      Gained name i.columns (rows.take (intake i rows ts).1) ts (intake i rows ts).2
  | [], ts, hfound => by
    obtain ⟨t, h⟩ := Option.isSome_iff_exists.mp hfound
    exact .nil h
  | row :: rest, ts, hfound => by
    cases hrow : accept i row ts with
    | none =>
      obtain ⟨t, h⟩ := Option.isSome_iff_exists.mp hfound
      rw [intake_cons_of_none hrow]
      exact .nil h
    | some ts' =>
      have hfirst := Gained.ofInsertRow hi ht (accept_eq_some_iff.mp hrow).2
      obtain ⟨t, t', -, -, hfound', -⟩ := hfirst.table
      have hrest := gained_intake hi ht rest (Option.isSome_iff_exists.mpr ⟨t', hfound'⟩)
      rw [intake_cons_of_some hrow, List.take_succ_cons]
      exact hfirst.append hrest

end Sqlite.Tables

namespace SqliteConnection

/-! ### Sending rows -/

/-- The rows that are sent are taken up to the first that is refused. -/
theorem sendRows_ensures (i : Insert) : ∀ (n : Nat) (rows : List Row) (c : SqliteConnection Store),
    Ensures (sendRows i n rows) c
      (fun _ d => Takes i rows c.database.tables d.database.tables)
      (fun _ d => Stops i rows c.database.tables d.database.tables)
  | _, [], c => .nil i _
  | n, row :: rest, c => by
    unfold sendRows
    simp only [ensures_bind, ensures_ofResult, ensures_onDatabase]
    refine ⟨fun _ hchecked => ?_, fun e hrefused => ?_⟩
    · have hcheck : checkRow i.columns row = .ok () := by
        cases h : checkRow i.columns row with
        | ok x => rfl
        | error e =>
          rw [h] at hchecked
          cases hchecked
      refine Store.ensures_step.mpr ⟨fun d hd => ?_, fun text htext => ?_⟩
      · have haccept := accept_eq_some_iff.mpr ⟨hcheck, (Store.changing_ok hd).2⟩
        refine (sendRows_ensures i (n + 1) rest _).mono (fun _ d' h => ?_) (fun _ d' h => ?_)
        · exact .cons haccept h
        · exact .cons haccept h
      · refine .first ?_ rest
        cases h : accept i row c.database.tables with
        | none => rfl
        | some ts =>
          rw [Store.changing, (accept_eq_some_iff.mp h).2] at htext
          cases htext
    · refine .first ?_ rest
      cases h : checkRow i.columns row with
      | ok x =>
        rw [h] at hrefused
        cases hrefused
      | error e => rw [accept, h]

/-- No row is taken by an INSERT that cannot be prepared. -/
theorem accept_eq_none_of_prepare {i : Insert} {ts : Tables} {text : String}
    (h : ts.prepare i = .error text) (row : Row) : accept i row ts = none := by
  have hinsert : ts.insertRow i (row.map .ofCell) = .error text := by
    rw [Tables.insertRow, h]
    rfl
  unfold accept
  rw [hinsert]
  split <;> rfl

/-- Preparing an INSERT changes nothing in the database, and fails only if the INSERT cannot be
looked up. -/
theorem prepareInsert_ensures (i : Insert) (c : SqliteConnection Store) :
    Ensures (prepareInsert i) c (fun _ d => d.database = c.database)
      (fun _ d => d.database = c.database ∧
        ∃ text, c.database.tables.prepare i = .error text) := by
  unfold prepareInsert
  simp only [ensures_bind, ensures_get]
  split
  · exact rfl
  · refine (ensures_bind _ _).mpr ((ensures_onDatabase _ _).mpr (Store.ensures_step.mpr
      ⟨fun d hd => ?_, fun text htext => ?_⟩))
    · obtain ⟨ts, hts, rfl⟩ := Except.map_eq_ok_iff.mp hd
      obtain ⟨-, -, rfl⟩ := Except.map_eq_ok_iff.mp hts
      exact rfl
    · refine ⟨rfl, ?_⟩
      cases h : c.database.tables.prepare i with
      | ok found =>
        rw [Store.changing, h] at htext
        cases htext
      | error text => exact ⟨text, rfl⟩

/-- The rows that are inserted are taken up to the first that is refused. The bulk write in
progress, and the tables that a rollback leads back to, stay as they are. -/
theorem insertRows_ensures_taken (i : Insert) {rows : List Row} (hrows : rows ≠ [])
    (c : SqliteConnection Store) :
    Ensures (insertRows i rows) c
      (fun _ d => SameView Store.saved c d ∧
        Takes i rows c.database.tables d.database.tables)
      (fun _ d => SameView Store.saved c d ∧
        Stops i rows c.database.tables d.database.tables) := by
  have hsaved : Ensures (insertRows i rows) c
      (fun _ d => SameView Store.saved c d) (fun _ d => SameView Store.saved c d) :=
    insertRows_sameView ((Store.prepare_leaves _).map _)
      (fun _ => Store.changing_leaves_saved _) rows c
  have htaken : Ensures (insertRows i rows) c
      (fun _ d => Takes i rows c.database.tables d.database.tables)
      (fun _ d => Stops i rows c.database.tables d.database.tables) := by
    unfold insertRows
    refine (ensures_bind _ _).mpr
      ((prepareInsert_ensures i c).mono (fun _ d hd => ?_) (fun _ d hd => ?_))
    · rw [← hd]
      exact sendRows_ensures i 0 rows d
    · obtain ⟨hsame, text, htext⟩ := hd
      obtain ⟨row, rest, rfl⟩ := List.exists_cons_of_ne_nil hrows
      rw [hsame]
      exact .first (accept_eq_none_of_prepare htext row) rest
  exact hsaved.and htaken

end SqliteConnection

namespace Engine

open SqliteConnection

/-! ### Pieces -/

/-- The pieces of a list make the list. -/
theorem chunks_flatten {α : Type} (size : Nat) (xs : List α) : (chunks size xs).flatten = xs := by
  fun_induction chunks size xs with
  | case1 => rfl
  | case2 a rest ih => rw [List.flatten_cons, ih, List.cons_append, List.take_append_drop]

theorem ne_nil_of_mem_chunks {α : Type} {size : Nat} {xs piece : List α}
    (h : piece ∈ chunks size xs) : piece ≠ [] := by
  fun_induction chunks size xs with
  | case1 => cases h
  | case2 a rest ih =>
    rcases List.mem_cons.mp h with rfl | h
    · exact List.cons_ne_nil _ _
    · exact ih h

/-- Pieces are inserted one by one, up to the first row that is refused. -/
theorem pieces_ensures (i : Insert) : ∀ (pieces : List (List Row)), (∀ piece ∈ pieces, piece ≠ []) →
    ∀ c : SqliteConnection Store, Ensures (pieces.forM (Connection.insert i)) c
      (fun _ d => SameView Store.saved c d ∧
        Takes i pieces.flatten c.database.tables d.database.tables)
      (fun _ d => SameView Store.saved c d ∧
        Stops i pieces.flatten c.database.tables d.database.tables)
  | [], _, c => ⟨.refl c, .nil i _⟩
  | piece :: rest, hpieces, c => by
    have hfirst := insertRows_ensures_taken i (hpieces piece List.mem_cons_self) c
    have hrest := fun d => pieces_ensures i rest
      (fun piece hpiece => hpieces piece (List.mem_cons_of_mem _ hpiece)) d
    refine (ensures_bind (insertRows i piece) _).mpr
      (hfirst.mono (fun _ d hd => ?_) (fun _ d hd => ⟨hd.1, hd.2.append _⟩))
    refine (hrest d).mono (fun _ d' hd' => ?_) (fun _ d' hd' => ?_)
    · exact ⟨hd.1.trans hd'.1, hd.2.append hd'.2⟩
    · exact ⟨hd.1.trans hd'.1, hd.2.stops hd'.2⟩

/-- **The rows that are inserted are taken up to the first that is refused**, whatever the size of
the pieces that they are inserted in. -/
theorem insertWith_ensures (e : Engine) (i : Insert) (rows : List Row)
    (c : SqliteConnection Store) :
    Ensures (e.insertWith i rows) c
      (fun _ d => SameView Store.saved c d ∧ Takes i rows c.database.tables d.database.tables)
      (fun _ d => SameView Store.saved c d ∧ Stops i rows c.database.tables d.database.tables) := by
  have h := pieces_ensures i (chunks e.batchSize rows) (fun _ => ne_nil_of_mem_chunks) c
  rwa [chunks_flatten] at h

end Engine

end SqlRecords
