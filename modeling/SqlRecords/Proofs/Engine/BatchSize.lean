import SqlRecords.Proofs.Engine.RecordIter
import SqlRecords.Proofs.Engine.Streaming

/-!
# What the batch size of a reading changes

Rows are fetched from a SQLite cursor in batches. A result that is no row (the database
failed to give it, it holds a blob, or a text that is not UTF-8) fails the whole batch
that it is fetched in, and nothing comes after it. The rows in front of it in the same
batch are lost, so how many items a reading gives before the failure depends on where the
batches begin. A row that is no record costs its own place alone.

`given size results` says exactly what a reading gives, and `lead` what it could give at
best: the rows before the first failure.

## What is proved

* `SqliteCursor.nextBatch_eq`: what a fetch gives, in terms of `lead`.
* `RecordIter.next_leaves`: a step gives the first of the items to give and leaves the others.
* `Engine.readIter_pulls`, `Engine.readAll_given`: the items of a reading, asked for one by
  one and collected.
* **`Engine.readings_of_batchSizes`**: two batch sizes give the same items if and only if no
  result fails, or the batches of the first failure begin at the same row.
* `Engine.readAll_two_batchSizes`: an error that depends on the batch size.
-/

namespace SqlRecords

open Sqlite

variable {δ : Type}

/-! ### Rows in front of a failure -/

namespace SqliteCursor

/-- The rows before the first failure, and the failure if there is one. -/
def lead : Results → List Row × Option Error
  | [] => ([], none)
  | result :: rest =>
    match rowOf result with
    | .ok row => (row :: (lead rest).1, (lead rest).2)
    | .error e => ([], some e)

/-- The row that the batch with the first failure begins at. -/
def start (size : Nat) (results : Results) : Nat :=
  (lead results).1.length - (lead results).1.length % size

/-- The rows that are fetched in batches before the batch with the first failure, and that failure.
Without one, all rows are fetched. -/
def given (size : Nat) (results : Results) : List (Result Row) :=
  match (lead results).2 with
  | none => (lead results).1.map .ok
  | some e => ((lead results).1.take (start size results)).map .ok ++ [.error e]

/-- A fetch gives as many rows as it is asked for if there are so many before the first failure. If
not, it gives the failure, or comes to the end. -/
theorem nextBatch_eq : ∀ (size : Nat) (results : Results),
    nextBatch size results =
      if size ≤ (lead results).1.length then
        .ok ((lead results).1.take size, results.drop size, false)
      else
        match (lead results).2 with
        | some e => .error e
        | none => .ok ((lead results).1, [], true)
  | 0, results => by simp [nextBatch]
  | size + 1, [] => by simp [nextBatch, lead]
  | size + 1, result :: rest => by
    rw [nextBatch, lead]
    cases hrow : rowOf result with
    | error e => simp [bind, Except.bind]
    | ok row =>
      rw [nextBatch_eq size rest]
      by_cases hsize : size ≤ (lead rest).1.length
      · simp [hsize, bind, Except.bind, pure, Except.pure]
      · cases hfail : (lead rest).2 <;> simp [hsize, bind, Except.bind, pure, Except.pure]

/-- Behind rows that were fetched stand the others. -/
theorem lead_drop : ∀ {size : Nat} {results : Results}, size ≤ (lead results).1.length →
    lead (results.drop size) = ((lead results).1.drop size, (lead results).2)
  | 0, results, _ => by simp
  | size + 1, [], h => by simp [lead] at h
  | size + 1, result :: rest, h => by
    rw [lead] at h ⊢
    cases hrow : rowOf result with
    | error e => simp [hrow] at h
    | ok row =>
      simp only [hrow, List.length_cons, Nat.add_le_add_iff_right] at h
      simpa using lead_drop h

/-- The first failure stands behind a batch that was fetched, and so does the beginning of its own
batch. -/
theorem start_of_le {size : Nat} {results : Results} (h : size ≤ (lead results).1.length) :
    start size results = size + start size (results.drop size) := by
  have hmod : (lead results).1.length % size ≤ (lead results).1.length - size := by
    rw [Nat.mod_eq_sub_mod h]
    exact Nat.mod_le _ _
  rw [start, start, lead_drop h, List.length_drop, ← Nat.mod_eq_sub_mod h]
  omega

/-- The first batch begins at the first row. -/
theorem start_of_lt {size : Nat} {results : Results} (h : (lead results).1.length < size) :
    start size results = 0 := by
  rw [start, Nat.mod_eq_of_lt h, Nat.sub_self]

/-- A whole batch in front of what is given behind it. -/
theorem given_of_le {size : Nat} {results : Results} (h : size ≤ (lead results).1.length) :
    given size results =
      ((lead results).1.take size).map .ok ++ given size (results.drop size) := by
  rw [given, given, lead_drop h, start_of_le h]
  cases (lead results).2 with
  | none => simp only [← List.map_append, List.take_append_drop]
  | some e => simp only [List.take_add, List.map_append, List.append_assoc]

/-- There are no more rows than results. -/
theorem length_lead_le : ∀ results : Results, (lead results).1.length ≤ results.length
  | [] => Nat.le_refl _
  | result :: rest => by
    rw [lead]
    cases rowOf result with
    | error e => exact Nat.zero_le _
    | ok row => simpa using length_lead_le rest

/-- All rows before the batch with the failure are given, and the failure. -/
theorem length_given {size : Nat} {results : Results} {e : Error}
    (h : (lead results).2 = some e) : (given size results).length = start size results + 1 := by
  rw [given, h]
  simp [start]

/-- There are no more rows and failures than results, and the end. -/
theorem length_given_le (size : Nat) (results : Results) :
    (given size results).length ≤ results.length + 1 := by
  have hrows := length_lead_le results
  cases h : (lead results).2 with
  | none =>
    rw [given, h]
    simpa using Nat.le_succ_of_le hrows
  | some e =>
    rw [length_given h, start]
    omega

/-- Without a failure all rows are given. -/
theorem given_of_none {size : Nat} {results : Results} (h : (lead results).2 = none) :
    given size results = (lead results).1.map .ok := by
  rw [given, h]

/-- A failure in the first batch is all that is given. -/
theorem given_of_failure {size : Nat} {results : Results} {e : Error}
    (h : (lead results).1.length < size) (hfailure : (lead results).2 = some e) :
    given size results = [.error e] := by
  rw [given, hfailure, start_of_lt h]
  rfl

end SqliteCursor

/-! ### Steps of a reading -/

namespace RecordIter

variable {s : Schema}

/-- The items that a reading has still to give, one for each row that is buffered or will be
fetched, with the failure behind them. -/
def toGive (it : RecordIter s (SqliteCursor δ)) : List (Result s.Record) :=
  if it.ended then []
  else it.batch.map s.fromRow ++
    if it.cursor.done then []
    else (SqliteCursor.given it.batchSize it.cursor.results).map (· >>= s.fromRow)

/-- What the first of some items comes out as. -/
def first : List (Result s.Record) → Pull s.Record
  | [] => .finished
  | item :: _ => .item item

/-- A step gives the first of these items and leaves the others, to be fetched as many at a time. -/
structure Leaves (items : List (Result s.Record)) (size : Nat)
    (step : Pull s.Record × RecordIter s (SqliteCursor δ)) : Prop where
  /-- The first item is given. -/
  gives : step.1 = first items
  /-- The others are left. -/
  leaves : step.2.toGive = items.tail
  /-- As many rows are fetched at a time. -/
  batchSize : step.2.batchSize = size

variable {it : RecordIter s (SqliteCursor δ)}

/-- A row in the buffer needs no fetch, and neither does the end. -/
theorem nextWithin_leaves (fetches : Nat) (h : it.batch = [] → it.cursor.done = true) :
    Leaves it.toGive it.batchSize (it.nextWithin fetches) := by
  rw [nextWithin.eq_def, toGive]
  by_cases hended : it.ended = true
  · simp only [hended, if_true]
    exact ⟨rfl, by simp [toGive, hended], rfl⟩
  cases hbatch : it.batch with
  | cons row rest =>
    simp only [hended, List.map_cons, List.cons_append]
    exact ⟨rfl, by simp [toGive], rfl⟩
  | nil =>
    have hdone : Cursor.isDone it.cursor = true := h hbatch
    have hdone' : it.cursor.done = true := hdone
    simp only [hended, hdone, hdone', if_true, List.map_nil, List.append_nil]
    exact ⟨rfl, by simp [toGive], rfl⟩

/-- **A step** gives the first of the items and leaves the others. One fetch is enough, for a batch
is empty at the end alone. -/
theorem next_leaves (hsize : 0 < it.batchSize) : Leaves it.toGive it.batchSize it.next := by
  have hfetches : Cursor.remaining it.cursor = 2 * it.cursor.results.length + 1 + 1 := rfl
  by_cases hbuffered : it.batch = [] → it.cursor.done = true
  · exact nextWithin_leaves _ hbuffered
  obtain ⟨hbatch, hdone⟩ : it.batch = [] ∧ it.cursor.done = false := by simpa using hbuffered
  by_cases hended : it.ended = true
  · rw [next, nextWithin.eq_def, toGive]
    simp only [hended, if_true]
    exact ⟨rfl, by simp [toGive, hended], rfl⟩
  have hcursor : Cursor.isDone it.cursor = false := hdone
  have hfetch : Cursor.fetch it.batchSize it.cursor =
      SqliteCursor.fetch it.batchSize it.cursor := rfl
  rw [next, hfetches, nextWithin.eq_def, toGive]
  simp only [hended, hbatch, hdone, hcursor, hfetch, SqliteCursor.fetch, Bool.false_eq_true,
    if_false, SqliteCursor.nextBatch_eq, List.map_nil, List.nil_append]
  by_cases hfull : it.batchSize ≤ (SqliteCursor.lead it.cursor.results).1.length
  · -- A whole batch holds a row, which is the first of the items.
    have hrow : (SqliteCursor.lead it.cursor.results).1.take it.batchSize ≠ [] := by
      rw [← List.length_pos_iff, List.length_take, Nat.min_eq_left hfull]
      exact hsize
    have hmoved : (SqliteCursor.given it.batchSize it.cursor.results).map (· >>= s.fromRow) =
        (⟨⟨it.cursor.connection, it.cursor.results.drop it.batchSize, false⟩, it.batchSize,
          (SqliteCursor.lead it.cursor.results).1.take it.batchSize, false⟩ :
            RecordIter s (SqliteCursor δ)).toGive := by
      rw [SqliteCursor.given_of_le hfull, List.map_append, List.map_map]
      rfl
    rw [if_pos hfull, hmoved]
    exact nextWithin_leaves _ fun h => absurd h hrow
  · rw [if_neg hfull]
    cases hfailure : (SqliteCursor.lead it.cursor.results).2 with
    | some e =>
      rw [SqliteCursor.given_of_failure (Nat.not_le.mp hfull) hfailure]
      exact ⟨rfl, rfl, rfl⟩
    | none =>
      have hmoved : (SqliteCursor.given it.batchSize it.cursor.results).map (· >>= s.fromRow) =
          (⟨⟨it.cursor.connection, [], true⟩, it.batchSize,
            (SqliteCursor.lead it.cursor.results).1, false⟩ :
              RecordIter s (SqliteCursor δ)).toGive := by
        rw [SqliteCursor.given_of_none hfailure, List.map_map]
        exact (List.append_nil _).symm
      rw [hmoved]
      exact nextWithin_leaves _ fun _ => rfl

/-! ### Readings -/

/-- What so many steps of a reading give. -/
def pulls : Nat → RecordIter s (SqliteCursor δ) → List (Pull s.Record)
  | 0, _ => []
  | steps + 1, it => it.next.1 :: pulls steps it.next.2

/-- **The items of a reading**: they are given one by one, and then the end, as often as it is
asked for. -/
theorem pulls_eq : ∀ {steps : Nat} {it : RecordIter s (SqliteCursor δ)}, 0 < it.batchSize →
    it.pulls steps =
      (it.toGive.map Pull.item ++ List.replicate steps Pull.finished).take steps
  | 0, _, _ => rfl
  | steps + 1, it, hsize => by
    obtain ⟨hgives, hleaves, hbatchSize⟩ := next_leaves hsize
    rw [pulls, pulls_eq (hbatchSize ▸ hsize), hgives, hleaves]
    cases it.toGive with
    | nil => simp [first, List.replicate_succ]
    | cons item items =>
      have hend : (items.map Pull.item ++ List.replicate steps Pull.finished).take steps =
          (items.map Pull.item ++ List.replicate (steps + 1) Pull.finished).take steps := by
        rw [List.replicate_succ', ← List.append_assoc]
        exact (List.take_append_of_le_length (by simp)).symm
      simp only [first, List.tail_cons, List.map_cons, List.cons_append, List.take_succ_cons, hend]

/-- Step by step, the items to give are given. -/
theorem yields_toGive (hsize : 0 < it.batchSize) : it.Yields it.toGive := by
  generalize hitems : it.toGive = items
  induction items generalizing it with
  | nil =>
    have hnext : it.next = (.finished, it.next.2) := by
      rw [Prod.ext_iff, (next_leaves hsize).gives, hitems]
      exact ⟨rfl, rfl⟩
    exact .finished hnext (ended_of_finished hnext)
  | cons item rest ih =>
    obtain ⟨hgives, hleaves, hbatchSize⟩ := next_leaves hsize
    rw [hitems] at hgives hleaves
    exact .item (Prod.ext hgives rfl) (ih (hbatchSize ▸ hsize) hleaves)

end RecordIter

/-! ### Two batch sizes -/

namespace Engine

variable [Database δ] {s : Schema} {q : Select} {c connection : SqliteConnection δ}
  {results : Results}

/-- The reading that a query opens. -/
theorem readIter_opened (e : Engine)
    (hopen : SqliteConnection.query q c = .ok ⟨connection, results, false⟩) :
    e.readIter s q c = .ok (.ofCursor ⟨connection, results, false⟩ e.batchSize) := by
  rw [readIter, show Connection.query q c = _ from hopen]
  rfl

/-- Reading all records collects the reading that the query opens. -/
theorem readAll_opened (e : Engine)
    (hopen : SqliteConnection.query q c = .ok ⟨connection, results, false⟩) :
    ((e.readAll s q).outcome c).1 =
      (.ofCursor ⟨connection, results, false⟩ e.batchSize :
        RecordIter s (SqliteCursor δ)).collect.1 := by
  simp only [Action.outcome, readAll, e.readIter_opened hopen]
  generalize (RecordIter.ofCursor _ _ : RecordIter s (SqliteCursor δ)).collect = collected
  obtain ⟨outcome, after⟩ := collected
  cases outcome <;> rfl

/-- The items that a reading gives, asked for one by one, and the end behind them. -/
theorem readIter_pulls (e : Engine)
    (hopen : SqliteConnection.query q c = .ok ⟨connection, results, false⟩) (steps : Nat) :
    (e.readIter s q c).map (·.pulls steps) =
      .ok ((((SqliteCursor.given e.batchSize results).map (· >>= s.fromRow)).map Pull.item ++
        List.replicate steps Pull.finished).take steps) := by
  rw [e.readIter_opened hopen, Except.map, RecordIter.pulls_eq e.batchSize_pos]
  simp [RecordIter.toGive, RecordIter.ofCursor]

/-- Collecting gives the records, or the first of the items that is an error. -/
theorem readAll_given (e : Engine)
    (hopen : SqliteConnection.query q c = .ok ⟨connection, results, false⟩) :
    ((e.readAll s q).outcome c).1 =
      ((SqliteCursor.given e.batchSize results).map (· >>= s.fromRow)).mapM id := by
  rw [e.readAll_opened hopen, RecordIter.collect,
    RecordIter.collectWithin_of_yields (RecordIter.yields_toGive e.batchSize_pos)]
  · simp [RecordIter.toGive, RecordIter.ofCursor]
  · have hremaining : Cursor.remaining (⟨connection, results, false⟩ : SqliteCursor δ) =
        2 * results.length + 2 := rfl
    have hlength := SqliteCursor.length_given_le e.batchSize results
    simp only [RecordIter.toGive, RecordIter.ofCursor, Bool.false_eq_true, if_false,
      List.map_nil, List.nil_append, List.length_map, List.length_nil, hremaining]
    omega

/-- The items in front of the end can be told from what enough steps give. -/
theorem eq_of_pulls {α : Type} {items items' : List (Result α)} {steps : Nat}
    (hlength : items.length ≤ steps) (hlength' : items'.length ≤ steps)
    (h : (items.map Pull.item ++ List.replicate steps Pull.finished).take steps =
      (items'.map Pull.item ++ List.replicate steps Pull.finished).take steps) :
    items = items' := by
  let item? : Pull α → Option (Result α)
    | .item r => some r
    | _ => none
  have htold {l : List (Result α)} (hl : l.length ≤ steps) :
      ((l.map Pull.item ++ List.replicate steps Pull.finished).take steps).filterMap item? = l := by
    rw [List.take_append, List.take_of_length_le (by simpa using hl)]
    simp [item?, List.filterMap_map]
  rw [← htold hlength, h, htold hlength']

/-- **When the batch size does not matter.** Two batch sizes give the same items, asked for one by
one, if and only if no result fails, or the batch with the first failure begins at the same row.
Whether all records can be collected does not depend on the batch size. -/
theorem readings_of_batchSizes (e₁ e₂ : Engine)
    (hopen : SqliteConnection.query q c = .ok ⟨connection, results, false⟩) :
    ((∀ steps, (e₁.readIter s q c).map (·.pulls steps) = (e₂.readIter s q c).map (·.pulls steps)) ↔
      (SqliteCursor.lead results).2 = none ∨
        SqliteCursor.start e₁.batchSize results = SqliteCursor.start e₂.batchSize results) ∧
      ((e₁.readAll s q).outcome c).1.toOption = ((e₂.readAll s q).outcome c).1.toOption := by
  refine ⟨⟨fun h => ?_, ?_⟩, ?_⟩
  · cases hfailure : (SqliteCursor.lead results).2 with
    | none => exact .inl rfl
    | some e =>
      let items (e : Engine) := (SqliteCursor.given e.batchSize results).map (· >>= s.fromRow)
      have hitems : items e₁ = items e₂ := by
        have hsteps := h ((items e₁).length + (items e₂).length)
        rw [readIter_pulls _ hopen, readIter_pulls _ hopen] at hsteps
        exact eq_of_pulls (Nat.le_add_right _ _) (Nat.le_add_left _ _) (Except.ok.inj hsteps)
      have hlength := congrArg List.length hitems
      simp only [items, List.length_map, SqliteCursor.length_given hfailure,
        Nat.add_right_cancel_iff] at hlength
      exact .inr hlength
  · rintro (hnone | hstart) steps
    · rw [readIter_pulls _ hopen, readIter_pulls _ hopen, SqliteCursor.given_of_none hnone,
        SqliteCursor.given_of_none hnone]
    · rw [readIter_pulls _ hopen, readIter_pulls _ hopen, SqliteCursor.given,
        SqliteCursor.given, hstart]
  · rw [e₁.readAll_opened hopen, e₂.readAll_opened hopen, (RecordIter.collect_spec rfl _).1,
      (RecordIter.collect_spec rfl _).1]
    · rfl
    · exact e₂.batchSize_pos
    · exact e₁.batchSize_pos

/-- A blob in the fourth row: batches of two and of three rows do not begin at the same row. -/
theorem readings_of_two_and_three :
    let s : Schema := ⟨"t", [⟨"a", _, Field.text⟩]⟩
    let rows : List (List Stored) := [[.text "x"], [.text "y"], [.text "z"], [.blob [0]]]
    let c : SqliteConnection Store := .ofDatabase ⟨[.untyped "t" ["a"] rows], none⟩
    let twos : Engine := ⟨⟨2⟩, rfl⟩
    let threes : Engine := ⟨⟨3⟩, rfl⟩
    ¬∀ steps, (twos.readIter s s.select c).map (·.pulls steps) =
      (threes.readIter s s.select c).map (·.pulls steps) := by
  intro s rows c twos threes
  have hquery : c.database.tables.query s.select = .ok (rows.map .ok) := by decide +kernel
  have hopen : SqliteConnection.query s.select c = .ok ⟨c, rows.map .ok, false⟩ := by
    simp only [SqliteConnection.query, SqliteConnection.onDatabase, Database.query, hquery]
  rw [(twos.readings_of_batchSizes (s := s) threes hopen).1]
  decide +kernel

/-- **An error that depends on the batch size.** Row by row, the text that is no number is the
error; in a batch with the row behind it, the blob is, although a later row holds it. -/
theorem readAll_two_batchSizes :
    let s : Schema := ⟨"t", [⟨"a", _, Field.int .int64⟩]⟩
    let rows : List (List Stored) := [[.text "x"], [.blob [0]]]
    let c : SqliteConnection Store := .ofDatabase ⟨[.untyped "t" ["a"] rows], none⟩
    let failure (e : Engine) : Option String :=
      match (e.readAll s s.select).outcome c with
      | (.error e, _) => some e.message
      | (.ok _, _) => none
    failure ⟨⟨1⟩, rfl⟩ = some "Failed to parse cell" ∧
      failure ⟨⟨2⟩, rfl⟩ = some "Unsupported BLOB value" := by
  decide +kernel

end Engine

end SqlRecords
