import Mathlib.Algebra.GroupWithZero.Nat
import SqlRecords.Proofs.Engine.BatchSize
import SqlRecords.Proofs.Sqlite.Worker

/-!
# Fetching the rows of a query

If every result of a query is a row, a cursor gives the rows from the front, as many at a time as
it is asked for, and never fails. Whether it has come to the end it can only tell by looking for a
row that is not there. So it does not say so behind a last batch that fits exactly, nor behind an
empty one that was asked for, but behind the first fetch that asks for more rows than are left.

## What is proved

* `SqliteCursor.HasLeft.fetch`: what a fetch gives, what it leaves, and when it comes to the end.
* `SqliteCursor.HasLeft.fetches`: so do any number of fetches, whose sizes add up.
* `SqliteCursor.lt_sum_iff`: some fetch asks for more rows than are left if and only if all of them
  together do.
* **`SqliteCursor.fetches_inOrder`**: each row is given once, and the end is reported exactly,
  however the cursor and its worker take turns.
-/

namespace SqlRecords

open Sqlite

variable {δ : Type}

namespace SqliteCursor

/-! ### Results that are rows -/

/-- If all results are rows, nothing fails. -/
theorem lead_eq_of_rows : ∀ {results : Results} {rows : List Row},
    results.map rowOf = rows.map .ok → lead results = (rows, none)
  | [], [], _ => rfl
  | result :: results, row :: rows, h => by
    obtain ⟨hrow, hrest⟩ := List.cons.inj h
    rw [lead, hrow, lead_eq_of_rows hrest]

/-- The results that a cursor has left are these rows; there are none if it has come to its end. -/
structure HasLeft (c : SqliteCursor δ) (rows : List Row) : Prop where
  /-- Each result is a row. -/
  results : c.results.map rowOf = rows.map .ok
  /-- Behind the end there are none. -/
  atEnd : c.done = true → rows = []

variable {c : SqliteCursor δ} {rows : List Row}

/-- **A fetch** gives the first rows and leaves the others. It comes to the end if it asks for more
rows than are left. -/
theorem HasLeft.fetch (h : c.HasLeft rows) (size : Nat) :
    ∃ after, SqliteCursor.fetch size c = .ok (rows.take size) after ∧
      after.HasLeft (rows.drop size) ∧
      (after.done = true ↔ c.done = true ∨ rows.length < size) := by
  unfold SqliteCursor.fetch
  by_cases hdone : c.done = true
  · have hrows := h.atEnd hdone
    refine ⟨c, ?_, ?_, iff_of_true hdone (.inl hdone)⟩
    · rw [if_pos hdone, hrows, List.take_nil]
    · rw [hrows, List.drop_nil, ← hrows]
      exact h
  · rw [if_neg hdone, nextBatch_eq, lead_eq_of_rows h.results]
    by_cases hsize : size ≤ rows.length
    · refine ⟨{ c with results := c.results.drop size, done := false }, ?_, ⟨?_, nofun⟩, ?_⟩
      · simp only [hsize, if_true]
      · simp only [List.map_drop, h.results]
      · exact iff_of_false nofun (not_or.mpr ⟨hdone, Nat.not_lt.mpr hsize⟩)
    · have hshort : rows.length ≤ size := Nat.le_of_not_le hsize
      refine ⟨{ c with results := [], done := true }, ?_, ⟨?_, fun _ => ?_⟩, ?_⟩
      · simp only [hsize, if_false, List.take_of_length_le hshort]
      · simp only [List.drop_of_length_le hshort, List.map_nil]
      · exact List.drop_of_length_le hshort
      · exact iff_of_true rfl (.inr (Nat.not_le.mp hsize))

/-! ### Fetches one after the other -/

/-- Batches of these sizes, cut from the front of some rows. -/
def batchesOf : List Row → List Nat → List (List Row)
  | _, [] => []
  | rows, size :: sizes => rows.take size :: batchesOf (rows.drop size) sizes

theorem flatten_batchesOf : ∀ (rows : List Row) (sizes : List Nat),
    (batchesOf rows sizes).flatten = rows.take sizes.sum
  | _, [] => by rw [batchesOf, List.flatten_nil, List.sum_nil, List.take_zero]
  | rows, size :: sizes => by
    rw [batchesOf, List.flatten_cons, flatten_batchesOf, List.sum_cons, List.take_add]

/-- No batch has more rows than were asked for. -/
theorem batchesOf_bounded : ∀ (rows : List Row) (sizes : List Nat),
    List.Forall₂ (fun batch size => batch.length ≤ size) (batchesOf rows sizes) sizes
  | _, [] => .nil
  | rows, size :: sizes => .cons (List.length_take_le size rows) (batchesOf_bounded _ sizes)

/-- **Any number of fetches** give the first rows, cut into batches, and leave the others. They come
to the end if they ask for more rows than there are. -/
theorem HasLeft.fetches (h : c.HasLeft rows) (sizes : List Nat) :
    ∃ after, sizes.mapM SqliteCursor.fetch c = .ok (batchesOf rows sizes) after ∧
      after.HasLeft (rows.drop sizes.sum) ∧
      (after.done = true ↔ c.done = true ∨ rows.length < sizes.sum) := by
  induction sizes generalizing c rows with
  | nil => exact ⟨c, rfl, by simpa using h, by simp⟩
  | cons size sizes ih =>
    obtain ⟨mid, hfirst, hleft, hend⟩ := h.fetch size
    obtain ⟨after, hrest, hleft', hend'⟩ := ih hleft
    refine ⟨after, mapM_cons_eq_ok_iff.mpr ⟨_, _, _, hfirst, hrest, rfl⟩, ?_, ?_⟩
    · rw [List.sum_cons, ← List.drop_drop]
      exact hleft'
    · rw [hend', hend, or_assoc, List.length_drop, List.sum_cons]
      refine or_congr_right ?_
      omega

/-- Some fetch asks for more rows than are left when its turn comes if and only if all fetches
together ask for more rows than there are. -/
theorem lt_sum_iff {n : Nat} {sizes : List Nat} : n < sizes.sum ↔
    ∃ earlier size later, sizes = earlier ++ size :: later ∧ n - earlier.sum < size := by
  constructor
  · intro h
    induction sizes generalizing n with
    | nil => exact absurd h (Nat.not_lt_zero n)
    | cons size sizes ih =>
      by_cases hsize : n < size
      · exact ⟨[], size, sizes, rfl, hsize⟩
      · rw [List.sum_cons] at h
        obtain ⟨earlier, size', later, rfl, hlater⟩ := ih (n := n - size) (by omega)
        refine ⟨size :: earlier, size', later, rfl, ?_⟩
        rwa [List.sum_cons, ← Nat.sub_sub]
  · rintro ⟨earlier, size, later, rfl, h⟩
    rw [List.sum_append, List.sum_cons]
    omega

/-! ### The whole cursor -/

/-- Behind the end, fetches give nothing and change nothing. -/
theorem mapM_fetch_of_done {c : SqliteCursor δ} (hdone : c.done = true) : ∀ sizes : List Nat,
    sizes.mapM fetch c = .ok (sizes.map fun _ => []) c
  | [] => rfl
  | size :: sizes =>
    have hfirst : fetch size c = .ok [] c := if_pos hdone
    mapM_cons_eq_ok_iff.mpr ⟨_, _, _, hfirst, mapM_fetch_of_done hdone sizes, rfl⟩

/-- A query that was opened has not come to its end. -/
theorem done_of_query [Database δ] {q : Select} {c : SqliteConnection δ} {cursor : SqliteCursor δ}
    (hopen : SqliteConnection.query q c = .ok cursor) : cursor.done = false := by
  simp only [SqliteConnection.query] at hopen
  split at hopen
  · cases hopen
    rfl
  · cases hopen

/-- **A cursor gives each row once, in order, and reports its end exactly.** If all results of a
query are rows, any sequence of fetches succeeds. No batch has more rows than were asked for, and
all of them together are the first rows, as many as were asked for in all, or all there are. The
cursor has come to its end if and only if one of the fetches asked for more rows than those before
it had left, and then any more fetches give nothing. The fetches end so however the cursor and its
worker take turns. -/
theorem fetches_inOrder [Database δ] {q : Select} {c : SqliteConnection δ}
    {cursor : SqliteCursor δ} {rows : List Row} (hopen : SqliteConnection.query q c = .ok cursor)
    (hrows : cursor.results.map rowOf = rows.map .ok) (sizes : List Nat) :
    ∃ batches after, sizes.mapM fetch cursor = .ok batches after ∧
      batches.flatten = rows.take sizes.sum ∧
      List.Forall₂ (fun batch size => batch.length ≤ size) batches sizes ∧
      (after.done = true ↔ ∃ earlier size later, sizes = earlier ++ size :: later ∧
        (rows.drop earlier.sum).length < size) ∧
      (after.done = true → ∀ more : List Nat,
        more.mapM fetch after = .ok (more.map fun _ => []) after) ∧
      ∀ call, ∃ t, Serves (cursor.sides call) sizes (batches.map .ok) t ∧ t.done = after.done := by
  have hgoing : ¬cursor.done = true := Bool.eq_false_iff.mp (done_of_query hopen)
  have hleft : cursor.HasLeft rows := ⟨hrows, fun h => absurd h hgoing⟩
  obtain ⟨after, hrun, -, hend⟩ := hleft.fetches sizes
  refine ⟨batchesOf rows sizes, after, hrun, flatten_batchesOf rows sizes,
    batchesOf_bounded rows sizes, ?_, mapM_fetch_of_done, serves_of_mapM hrun⟩
  rw [hend, or_iff_right hgoing, lt_sum_iff]
  simp only [List.length_drop]

/-- Five rows that a batch of two, an empty one and one of three fit exactly, and a fetch behind
them that finds no row. -/
theorem fetches_inOrder_exactFit :
    let s : Schema := ⟨"t", [⟨"a", _, Field.text⟩]⟩
    let values : List (List Stored) := ["p", "q", "r", "s", "t"].map fun x => [.text x]
    let rows : List Row := ["p", "q", "r", "s", "t"].map fun x => [some x]
    let c : SqliteConnection Store := .ofDatabase ⟨[.untyped "t" ["a"] values], none⟩
    ∃ cursor, SqliteConnection.query s.select c = .ok cursor ∧
      cursor.results.map rowOf = rows.map .ok ∧
      (∃ batches after, [2, 0, 3].mapM fetch cursor = .ok batches after ∧
        batches.flatten = rows ∧ after.done = false) ∧
      ∃ batches after, [2, 0, 3, 1].mapM fetch cursor = .ok batches after ∧
        batches.flatten = rows ∧ after.done = true := by
  intro s values rows c
  have hquery : c.database.tables.query s.select = .ok (values.map .ok) := by decide +kernel
  have hopen : SqliteConnection.query s.select c = .ok ⟨c, values.map .ok, false⟩ := by
    simp only [SqliteConnection.query, SqliteConnection.onDatabase, Database.query, hquery]
  have hrows : (values.map .ok).map rowOf = rows.map .ok := by decide +kernel
  refine ⟨_, hopen, hrows, ?_, ?_⟩
  · obtain ⟨batches, after, hrun, hflat, -, hend, -⟩ := fetches_inOrder hopen hrows [2, 0, 3]
    have hfits : ¬rows.length < [2, 0, 3].sum := by decide
    simp only [List.length_drop, ← lt_sum_iff] at hend
    exact ⟨batches, after, hrun, hflat, Bool.eq_false_iff.mpr (mt hend.mp hfits)⟩
  · obtain ⟨batches, after, hrun, hflat, -, hend, -⟩ := fetches_inOrder hopen hrows [2, 0, 3, 1]
    exact ⟨batches, after, hrun, hflat, hend.mpr ⟨[2, 0, 3], 1, [], rfl, by decide⟩⟩

end SqliteCursor

end SqlRecords
