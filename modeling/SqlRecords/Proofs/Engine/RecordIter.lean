import Mathlib.Data.List.Basic
import SqlRecords.Engine.RecordIter
import SqlRecords.Proofs.Result
import SqlRecords.Sqlite.Connection

/-!
# Collecting the records of a query

A `RecordIter` on a SQLite cursor holds rows that were fetched and not given yet, and its
cursor holds results that were not fetched yet. What it has still to give
(`RecordIter.items`) is a record, or an error in its place, for each of them. How many of
them a fetch takes at a time does not show in the items; it only decides how early an
error ends the iteration.

## What is proved

* `SqliteCursor.nextBatch_ok`, `SqliteCursor.nextBatch_error`: a batch moves results from
  the cursor to the buffer, and fails if one of the results it takes is a failure.
* `RecordIter.next_spec`: a step gives the first item and leaves the others.
* **`RecordIter.collect_spec`**: collecting gives all items if all are records, and fails
  if one is not. The connection is left as it is.
-/

namespace SqlRecords

open Sqlite

variable {δ : Type}

/-! ### Batches -/

namespace SqliteCursor

/-- A batch that is fetched and the results behind it are the results that were there. An empty
batch comes at the end alone. -/
theorem nextBatch_ok : ∀ {size : Nat} {results rest : Results} {rows : List Row} {atEnd : Bool},
    nextBatch size results = .ok (rows, rest, atEnd) →
      results.map rowOf = rows.map Except.ok ++ rest.map rowOf ∧ (atEnd = true → rest = []) ∧
        (rows = [] → 0 < size → atEnd = true)
  | 0, results, rest, rows, atEnd, h => by
    cases h
    simp
  | size + 1, [], rest, rows, atEnd, h => by
    cases h
    simp
  | size + 1, result :: results, rest, rows, atEnd, h => by
    simp only [nextBatch, Except.bind_eq_ok_iff, Except.pure_eq_ok_iff] at h
    obtain ⟨row, hrow, ⟨rows', rest', atEnd'⟩, hbatch, heq⟩ := h
    cases heq
    obtain ⟨hmap, hend, -⟩ := nextBatch_ok hbatch
    exact ⟨by simp [hrow, hmap], hend, by simp⟩

/-- A batch that fails has a failure among the results. -/
theorem nextBatch_error : ∀ {size : Nat} {results : Results} {e : Error},
    nextBatch size results = .error e → .error e ∈ results.map rowOf
  | 0, results, e, h => by cases h
  | size + 1, [], e, h => by cases h
  | size + 1, result :: results, e, h => by
    rw [nextBatch] at h
    cases hrow : rowOf result with
    | error f =>
      rw [hrow] at h
      cases h
      simp [hrow]
    | ok row =>
      cases hbatch : nextBatch size results with
      | error f =>
        rw [hrow, hbatch] at h
        cases h
        exact List.mem_cons_of_mem _ (nextBatch_error hbatch)
      | ok batch =>
        rw [hrow, hbatch] at h
        cases h

end SqliteCursor

/-! ### Steps of the iteration -/

namespace RecordIter

variable {s : Schema}

/-- What an iteration has still to give: for each row a record, or an error in its place. -/
def items (it : RecordIter s (SqliteCursor δ)) : List (Result s.Record) :=
  it.batch.map s.fromRow ++
    if it.cursor.done then []
    else it.cursor.results.map fun result => SqliteCursor.rowOf result >>= s.fromRow

/-- The iteration goes on, a batch at a time, on the same connection as another one. -/
structure Continues (it it' : RecordIter s (SqliteCursor δ)) : Prop where
  /-- There may be more items. -/
  going : it'.ended = false
  /-- As many rows are fetched at a time. -/
  batchSize : it'.batchSize = it.batchSize
  /-- The connection is the same. -/
  connection : it'.cursor.connection = it.cursor.connection

/-- What a step gives is the first of the items; the others are left. -/
def Gives (it : RecordIter s (SqliteCursor δ)) :
    Pull s.Record × RecordIter s (SqliteCursor δ) → Prop
  | (.item (.ok record), it') => it.items = .ok record :: it'.items ∧ it.Continues it'
  | (.item (.error _), it') =>
    it.items.mapM Except.toOption = none ∧ it'.cursor.connection = it.cursor.connection
  | (.finished, it') => it.items = [] ∧ it'.cursor.connection = it.cursor.connection
  | (.pending, _) => False

/-- What a step gives can be told from an iteration with the same items on the same connection. -/
theorem Gives.of_items {it it' : RecordIter s (SqliteCursor δ)}
    {step : Pull s.Record × RecordIter s (SqliteCursor δ)} (hitems : it.items = it'.items)
    (hsize : it'.batchSize = it.batchSize)
    (hconnection : it'.cursor.connection = it.cursor.connection) (h : it'.Gives step) :
    it.Gives step := by
  obtain ⟨pull, after⟩ := step
  match pull with
  | .item (.ok record) =>
    obtain ⟨hfirst, hgoing, hafter, hconn⟩ := h
    exact ⟨hitems.trans hfirst, hgoing, hafter.trans hsize, hconn.trans hconnection⟩
  | .item (.error e) => exact ⟨by rw [hitems]; exact h.1, h.2.trans hconnection⟩
  | .finished => exact ⟨hitems.trans h.1, h.2.trans hconnection⟩
  | .pending => exact h

variable {it : RecordIter s (SqliteCursor δ)}

/-- A row in the buffer is given without a fetch. -/
theorem nextWithin_buffered (fetches : Nat) {row : Row} {rest : List Row}
    (hgoing : it.ended = false) (hbatch : it.batch = row :: rest) :
    it.Gives (it.nextWithin fetches) := by
  have hitems : it.items =
      s.fromRow row :: ({ it with batch := rest, ended := false } : RecordIter s _).items := by
    simp [items, hbatch]
  rw [nextWithin.eq_def, hgoing, hbatch]
  simp only [Bool.false_eq_true, if_false]
  cases hrow : s.fromRow row with
  | ok record => exact ⟨by rw [hitems, hrow], rfl, rfl, rfl⟩
  | error e =>
    refine ⟨Except.mapM_toOption_eq_none (e := e) ?_, rfl⟩
    rw [hitems, hrow]
    exact List.mem_cons_self

/-- Nothing is given when the buffer is empty and the cursor has come to its end. -/
theorem nextWithin_done (fetches : Nat) (hgoing : it.ended = false) (hbatch : it.batch = [])
    (hdone : it.cursor.done = true) : it.Gives (it.nextWithin fetches) := by
  have hitems : it.items = [] := by simp [items, hbatch, hdone]
  have hcursor : Cursor.isDone it.cursor = true := hdone
  rw [nextWithin.eq_def, hgoing, hbatch]
  simp only [hcursor, Bool.false_eq_true, if_false, if_true]
  exact ⟨hitems, rfl⟩

/-- **A step** gives the first of the items. One fetch is enough, for a batch is empty at the end
alone. -/
theorem next_spec (hgoing : it.ended = false) (hsize : 0 < it.batchSize) : it.Gives it.next := by
  have hfetches : Cursor.remaining it.cursor = 2 * it.cursor.results.length + 1 + 1 := rfl
  cases hbatch : it.batch with
  | cons row rest => exact nextWithin_buffered _ hgoing hbatch
  | nil =>
    by_cases hdone : it.cursor.done = true
    · exact nextWithin_done _ hgoing hbatch hdone
    · have hcursor : Cursor.isDone it.cursor = false := Bool.eq_false_iff.mpr hdone
      have hitems : it.items =
          (it.cursor.results.map SqliteCursor.rowOf).map (· >>= s.fromRow) := by
        simp [items, hbatch, hdone]
      rw [next, hfetches, nextWithin.eq_def, hgoing, hbatch]
      simp only [hcursor, Bool.false_eq_true, if_false]
      have hfetch : Cursor.fetch it.batchSize it.cursor =
          SqliteCursor.fetch it.batchSize it.cursor := rfl
      rw [hfetch, SqliteCursor.fetch, if_neg hdone]
      cases hnext : SqliteCursor.nextBatch it.batchSize it.cursor.results with
      | error e =>
        refine ⟨Except.mapM_toOption_eq_none (e := e) ?_, rfl⟩
        rw [hitems]
        exact List.mem_map.mpr ⟨.error e, SqliteCursor.nextBatch_error hnext, rfl⟩
      | ok fetched =>
        obtain ⟨rows, results, atEnd⟩ := fetched
        obtain ⟨hmap, hend, hempty⟩ := SqliteCursor.nextBatch_ok hnext
        have hmoved : it.items =
            (⟨⟨it.cursor.connection, results, atEnd⟩, it.batchSize, rows, false⟩ :
              RecordIter s (SqliteCursor δ)).items := by
          have hrows : (rows.map Except.ok).map (· >>= s.fromRow) = rows.map s.fromRow := by
            rw [List.map_map]
            rfl
          rw [hitems, hmap, List.map_append, hrows, List.map_map]
          cases atEnd with
          | false => rfl
          | true => simp [items, hend rfl]
        refine Gives.of_items hmoved rfl rfl ?_
        cases rows with
        | nil => exact nextWithin_done _ rfl rfl (hempty rfl hsize)
        | cons row rows => exact nextWithin_buffered _ rfl rfl

/-! ### The whole iteration -/

/-- As many steps as there are items, and one more, give them all. -/
theorem collectWithin_spec : ∀ {steps : Nat} {it : RecordIter s (SqliteCursor δ)},
    it.ended = false → 0 < it.batchSize → it.items.length < steps →
      (it.collectWithin steps).1.toOption = it.items.mapM Except.toOption ∧
        (it.collectWithin steps).2.cursor.connection = it.cursor.connection
  | 0, it, _, _, hsteps => absurd hsteps (Nat.not_lt_zero _)
  | steps + 1, it, hgoing, hsize, hsteps => by
    have hgives := next_spec hgoing hsize
    rw [collectWithin]
    obtain ⟨pull, it', hnext⟩ : ∃ pull it', it.next = (pull, it') := ⟨_, _, rfl⟩
    rw [hnext] at hgives ⊢
    match pull with
    | .item (.ok record) =>
      obtain ⟨hitems, hgoing', hsize', hconnection⟩ := hgives
      have hfewer : it'.items.length < steps := by
        rw [hitems, List.length_cons] at hsteps
        omega
      obtain ⟨hrecords, hsame⟩ := collectWithin_spec hgoing' (hsize' ▸ hsize) hfewer
      rw [hitems, List.mapM_cons, ← hrecords]
      cases hrest : it'.collectWithin steps with
      | mk result after =>
        rw [hrest] at hsame
        have hkept : after.cursor.connection = it.cursor.connection := hsame.trans hconnection
        cases result with
        | ok records => simp [hrest, Except.toOption, hkept]
        | error e => simp [hrest, Except.toOption, hkept]
    | .item (.error e) => exact ⟨hgives.1.symm, hgives.2⟩
    | .finished =>
      obtain ⟨hitems, hsame⟩ := hgives
      rw [hitems]
      exact ⟨rfl, hsame⟩
    | .pending => exact hgives.elim

/-- **Collecting** gives all the items if they are records, and fails if one of them is not. -/
theorem collect_spec (hgoing : it.ended = false) (hsize : 0 < it.batchSize) :
    it.collect.1.toOption = it.items.mapM Except.toOption ∧
      it.collect.2.cursor.connection = it.cursor.connection := by
  refine collectWithin_spec hgoing hsize ?_
  have hremaining : Cursor.remaining it.cursor = 2 * it.cursor.results.length + 2 := rfl
  rw [hremaining, items, List.length_append, List.length_map]
  split
  · rw [List.length_nil]
    omega
  · rw [List.length_map]
    omega

end RecordIter

end SqlRecords
