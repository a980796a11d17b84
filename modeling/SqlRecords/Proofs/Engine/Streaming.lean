import SqlRecords.Connection.Scripted
import SqlRecords.Engine.Basic
import SqlRecords.Field.Scalar

/-!
# Reading one by one and reading all

A cursor answers one fetch after the other: with a batch of any size, with or without
having come to its end behind it, or with a failure. A list of these `Outcome`s is all
that a reading sees of a cursor, and `Plays` says that a cursor behaves like that. What can
be read is the rows up to the first end or failure (`Outcome.readout`); how they fall into
batches does not matter.

`RecordIter.Yields` says what an iteration gives, whatever its cursor is. A fetch may give
no rows and go on, so a step may need many fetches; it has enough of them as long as the
cursor does not announce less than it gives.

## What is proved

* `RecordIter.next_fetched`: a step that has to fetch is a step on what was fetched.
* `RecordIter.yields_of_plays`: an iteration gives a record, or an error in its place, for
  each row of the readout, then its failure if there is one, and then the end.
* `ScriptedCursor.plays`: a scripted connection plays any script of batches and failures.
* **`Engine.read_plays`**: reading one by one gives the items of the readout, and reading
  all gives their records, or the first error among them.
-/

namespace SqlRecords

/-! ### What a cursor does -/

/-- What a fetch comes to. -/
inductive Outcome where
  /-- Rows, and whether the cursor has come to its end with them. -/
  | batch (rows : List Row) (atEnd : Bool)
  /-- A failure. -/
  | failure (e : Error)

/-- What can be read: rows, and a failure behind them if there is one. -/
structure Readout where
  /-- The rows. -/
  rows : List Row
  /-- The failure. -/
  failure : Option Error

/-- The items of a readout: for each row a record, or an error in its place, and then the
failure. -/
def Readout.items (r : Readout) (s : Schema) : List (Result s.Record) :=
  r.rows.map s.fromRow ++ r.failure.toList.map .error

namespace Outcome

/-- What can be read goes up to the first end, whose rows are read, or to the first failure. Without
either it ends with the last batch. -/
def readout : List Outcome → Readout
  | [] => ⟨[], none⟩
  | .batch rows true :: _ => ⟨rows, none⟩
  | .batch rows false :: rest => ⟨rows ++ (readout rest).rows, (readout rest).failure⟩
  | .failure e :: _ => ⟨[], some e⟩

/-- How much is read: fetches and rows. -/
def cost : List Outcome → Nat
  | [] => 0
  | .batch rows true :: _ => rows.length + 1
  | .batch rows false :: rest => rows.length + 1 + cost rest
  | .failure _ :: _ => 1

theorem length_items_le (s : Schema) : ∀ script : List Outcome,
    ((readout script).items s).length ≤ cost script
  | [] => Nat.le_refl _
  | .batch rows true :: _ => by simp [readout, Readout.items, cost]
  | .batch rows false :: rest => by
    have hrest := length_items_le s rest
    simp only [Readout.items, readout, cost, List.length_append, List.length_map] at hrest ⊢
    omega
  | .failure _ :: _ => Nat.le_refl _

end Outcome

open Outcome

/-- A cursor answers the fetches of so many rows with these outcomes. Behind the last batch it is
at its end, and it never announces less than there is to read. -/
inductive Plays {κ : Type} [Cursor κ] (size : Nat) : List Outcome → κ → Prop where
  | nil {k : κ} : Cursor.isDone k = true → Plays size [] k
  | last {rows : List Row} {rest : List Outcome} {k k' : κ} :
      Cursor.isDone k = false → cost (.batch rows true :: rest) ≤ Cursor.remaining k →
      Cursor.fetch size k = .ok rows k' → Cursor.isDone k' = true →
      Plays size (.batch rows true :: rest) k
  | batch {rows : List Row} {rest : List Outcome} {k k' : κ} :
      Cursor.isDone k = false → cost (.batch rows false :: rest) ≤ Cursor.remaining k →
      Cursor.fetch size k = .ok rows k' → Plays size rest k' →
      Plays size (.batch rows false :: rest) k
  | failure {e : Error} {rest : List Outcome} {k k' : κ} :
      Cursor.isDone k = false → cost (.failure e :: rest) ≤ Cursor.remaining k →
      Cursor.fetch size k = .error e k' → Plays size (.failure e :: rest) k

/-- A cursor announces what there is to read. -/
theorem Plays.announced {κ : Type} [Cursor κ] {size : Nat} {script : List Outcome} {k : κ}
    (h : Plays size script k) : cost script ≤ Cursor.remaining k := by
  cases h with
  | nil => exact Nat.zero_le _
  | last _ hcost => exact hcost
  | batch _ hcost => exact hcost
  | failure _ hcost => exact hcost

/-! ### Steps -/

namespace RecordIter

variable {s : Schema} {κ : Type} [Cursor κ] {it it' : RecordIter s κ} {k k' : κ} {size : Nat}
  {script : List Outcome}

theorem nextWithin_ended (fetches : Nat) (h : it.ended = true) :
    it.nextWithin fetches = (.finished, it) := by
  rw [nextWithin.eq_def, if_pos h]

/-- A row that is buffered is given without a fetch. -/
theorem nextWithin_row (fetches : Nat) (row : Row) (rest : List Row) :
    (⟨k, size, row :: rest, false⟩ : RecordIter s κ).nextWithin fetches =
      (.item (s.fromRow row), ⟨k, size, rest, false⟩) := by
  rw [nextWithin.eq_def]
  rfl

/-- So is the end. -/
theorem nextWithin_end (fetches : Nat) (h : Cursor.isDone k = true) :
    (⟨k, size, [], false⟩ : RecordIter s κ).nextWithin fetches =
      (.finished, ⟨k, size, [], true⟩) := by
  rw [nextWithin.eq_def]
  simp only [Bool.false_eq_true, if_false, h, if_true]

/-- Otherwise a batch is fetched, if a fetch is allowed. -/
theorem nextWithin_fetch {fetches : Nat} (hfetches : 0 < fetches) (h : Cursor.isDone k = false) :
    (⟨k, size, [], false⟩ : RecordIter s κ).nextWithin fetches =
      match Cursor.fetch size k with
      | .ok rows k' => (⟨k', size, rows, false⟩ : RecordIter s κ).nextWithin (fetches - 1)
      | .error e k' => (.item (.error e), ⟨k', size, [], true⟩) := by
  obtain ⟨fetches, rfl⟩ : ∃ n, fetches = n + 1 := Nat.exists_eq_add_of_le' hfetches
  rw [nextWithin.eq_def]
  simp only [Bool.false_eq_true, if_false, h]
  cases Cursor.fetch size k <;> rfl

/-- How many fetches are allowed does not matter for rows that were fetched if it does not without
them. -/
theorem nextWithin_fetched {m n : Nat} (rows : List Row)
    (h : (ofCursor k size : RecordIter s κ).nextWithin m = (ofCursor k size).nextWithin n) :
    (⟨k, size, rows, false⟩ : RecordIter s κ).nextWithin m =
      (⟨k, size, rows, false⟩ : RecordIter s κ).nextWithin n := by
  cases rows with
  | nil => exact h
  | cons row rest => rw [nextWithin_row, nextWithin_row]

/-- It does not matter as long as there are as many as can be used. -/
theorem nextWithin_congr (h : Plays size script k) :
    ∀ {m n : Nat}, cost script ≤ m → cost script ≤ n →
      (ofCursor k size : RecordIter s κ).nextWithin m = (ofCursor k size).nextWithin n := by
  induction h with
  | nil hdone =>
    intro m n _ _
    rw [ofCursor, nextWithin_end m hdone, nextWithin_end n hdone]
  | last hgoing _ hfetch hdone =>
    intro m n hm hn
    rw [cost] at hm hn
    rw [ofCursor, nextWithin_fetch (by omega) hgoing, nextWithin_fetch (by omega) hgoing, hfetch]
    refine nextWithin_fetched _ ?_
    rw [ofCursor, nextWithin_end _ hdone, nextWithin_end _ hdone]
  | batch hgoing _ hfetch _ ih =>
    intro m n hm hn
    rw [cost] at hm hn
    rw [ofCursor, nextWithin_fetch (by omega) hgoing, nextWithin_fetch (by omega) hgoing, hfetch]
    exact nextWithin_fetched _ (ih (by omega) (by omega))
  | failure hgoing _ hfetch =>
    intro m n hm hn
    rw [cost] at hm hn
    rw [ofCursor, nextWithin_fetch (by omega) hgoing, nextWithin_fetch (by omega) hgoing, hfetch]

/-- **A step that has to fetch** is a step on what was fetched. -/
theorem next_fetched {rows : List Row} (hgoing : Cursor.isDone k = false)
    (hfetch : Cursor.fetch size k = .ok rows k') (hrest : Plays size script k')
    (hcost : cost script < Cursor.remaining k) :
    (ofCursor k size : RecordIter s κ).next = (⟨k', size, rows, false⟩ : RecordIter s κ).next := by
  have hfetches : (ofCursor k size : RecordIter s κ).next =
      (⟨k', size, rows, false⟩ : RecordIter s κ).nextWithin (Cursor.remaining k - 1) := by
    rw [next, ofCursor, nextWithin_fetch (by simp only; omega) hgoing, hfetch]
  rw [hfetches, next]
  exact nextWithin_fetched rows (nextWithin_congr hrest (by omega) hrest.announced)

/-! ### The whole iteration -/

/-- The iteration gives these items, one step after the other, and then the end. -/
inductive Yields : RecordIter s κ → List (Result s.Record) → Prop where
  | finished {it it' : RecordIter s κ} :
      it.next = (.finished, it') → it'.ended = true → Yields it []
  | item {it it' : RecordIter s κ} {item : Result s.Record} {items : List (Result s.Record)} :
      it.next = (.item item, it') → Yields it' items → Yields it (item :: items)

/-- The end comes again and again. -/
theorem yields_of_ended (h : it.ended = true) : it.Yields [] :=
  .finished (nextWithin_ended _ h) h

/-- An iteration that gives the end has ended. -/
theorem ended_of_finished {fetches : Nat} (h : it.nextWithin fetches = (.finished, it')) :
    it'.ended = true := by
  fun_induction nextWithin fetches it with
  | case1 fetches it hended =>
    cases h
    exact hended
  | case2 => cases h
  | case3 =>
    cases h
    rfl
  | case4 => cases h
  | case5 it _ _ _ fetches rows k' _ ih => exact ih h
  | case6 => cases h

/-- What an iteration gives can be told from its first step. -/
theorem Yields.congr {items : List (Result s.Record)} (h : it'.Yields items)
    (hnext : it.next = it'.next) : it.Yields items := by
  cases h with
  | finished hfirst hended => exact .finished (hnext.trans hfirst) hended
  | item hfirst hrest => exact .item (hnext.trans hfirst) hrest

/-- Rows that are buffered are given before what is to be fetched. -/
theorem Yields.buffered {items : List (Result s.Record)}
    (h : (ofCursor k size : RecordIter s κ).Yields items) : ∀ rows : List Row,
      (⟨k, size, rows, false⟩ : RecordIter s κ).Yields (rows.map s.fromRow ++ items)
  | [] => h
  | row :: rest => .item (nextWithin_row _ row rest) (h.buffered rest)

/-- **An iteration gives the items of the readout.** -/
theorem yields_of_plays (h : Plays size script k) :
    (ofCursor k size : RecordIter s κ).Yields ((readout script).items s) := by
  induction h with
  | nil hdone => exact .finished (nextWithin_end _ hdone) rfl
  | @last rows rest k k' hgoing hcost hfetch hdone =>
    rw [cost] at hcost
    have hend : Plays size [] k' := .nil hdone
    have hrest : (ofCursor k' size : RecordIter s κ).Yields [] :=
      .finished (nextWithin_end _ hdone) rfl
    exact (hrest.buffered rows).congr (next_fetched hgoing hfetch hend (Nat.zero_lt_of_lt hcost))
  | @batch rows rest k k' hgoing hcost hfetch hplays ih =>
    rw [cost] at hcost
    have hitems : (readout (.batch rows false :: rest)).items s =
        rows.map s.fromRow ++ (readout rest).items s := by simp [readout, Readout.items]
    rw [hitems]
    exact (ih.buffered rows).congr (next_fetched hgoing hfetch hplays (by omega))
  | @failure e rest k k' hgoing hcost hfetch =>
    have hnext : (ofCursor k size : RecordIter s κ).next =
        (.item (.error e), ⟨k', size, [], true⟩) := by
      rw [next, ofCursor, nextWithin_fetch hcost hgoing, hfetch]
    exact .item hnext (yields_of_ended rfl)

/-- Collecting gives the records of the items, or the first error among them. -/
theorem collectWithin_of_yields {items : List (Result s.Record)} (h : it.Yields items) :
    ∀ steps : Nat, items.length < steps → (it.collectWithin steps).1 = items.mapM id := by
  induction h with
  | finished hnext _ =>
    intro steps hsteps
    obtain ⟨steps, rfl⟩ : ∃ n, steps = n + 1 := Nat.exists_eq_add_of_le' hsteps
    rw [collectWithin, hnext]
    rfl
  | @item it it' item items hnext _ ih =>
    intro steps hsteps
    rw [List.length_cons] at hsteps
    obtain ⟨steps, rfl⟩ : ∃ n, steps = n + 1 := Nat.exists_eq_add_of_le' (by omega)
    rw [collectWithin, hnext]
    cases item with
    | error e => rfl
    | ok record =>
      rw [List.mapM_cons, ← ih steps (by omega)]
      obtain ⟨outcome, it'', hcollect⟩ :
          ∃ outcome it'', it'.collectWithin steps = (outcome, it'') := ⟨_, _, rfl⟩
      cases outcome <;> simp [hcollect, bind, Except.bind, pure, Except.pure]

end RecordIter

/-! ### Scripts -/

/-- The outcomes of a script's batches and failures. The last batch comes with the end. -/
def Outcome.ofScript : List (Except String (List Row)) → List Outcome
  | [] => []
  | .ok rows :: rest => .batch rows rest.isEmpty :: ofScript rest
  | .error message :: rest => .failure ((Error.new message).withKind .driver) :: ofScript rest

/-- What a batch or a failure costs. -/
def Outcome.weight : Except String (List Row) → Nat
  | .ok rows => rows.length + 1
  | .error _ => 1

theorem Outcome.add_cost_le : ∀ (batches : List (Except String (List Row))) (n : Nat),
    n + cost (ofScript batches) ≤ batches.foldl (fun n b => n + weight b) n
  | [], n => Nat.le_refl n
  | .ok rows :: rest, n => by
    have hrest := add_cost_le rest (n + (rows.length + 1))
    rw [ofScript, List.foldl_cons, weight]
    cases rest.isEmpty with
    | true => exact Nat.le_trans (Nat.le_add_right _ _) hrest
    | false =>
      rw [cost]
      omega
  | .error message :: rest, n =>
    Nat.le_trans (Nat.le_add_right (n + 1) _) (add_cost_le rest (n + 1))

/-- A scripted cursor announces enough. -/
theorem Outcome.cost_ofScript_le (batches : List (Except String (List Row))) :
    cost (ofScript batches) ≤ (Script.batches batches).size := by
  have hsize : (Script.batches batches).size = batches.foldl (fun n b => n + weight b) 0 := by
    rw [Script.size]
    congr 1
    funext n b
    cases b <;> rfl
  rw [hsize, ← Nat.zero_add (cost _)]
  exact add_cost_le batches 0

/-- **A scripted connection plays its script**, whatever batches and failures that has. -/
theorem ScriptedCursor.plays (size : Nat) : ∀ (batches : List (Except String (List Row)))
    (c : Scripted),
      Plays size (ofScript batches) (⟨c, .batches batches, batches.isEmpty⟩ : ScriptedCursor)
  | [], _ => .nil rfl
  | [.ok rows], _ => .last rfl (Nat.le_succ_of_le (cost_ofScript_le [.ok rows])) rfl rfl
  | .ok rows :: b :: rest, _ =>
    .batch rfl (Nat.le_succ_of_le (cost_ofScript_le (.ok rows :: b :: rest))) rfl
      (plays size (b :: rest) _)
  | .error message :: rest, _ =>
    .failure rfl (Nat.le_succ_of_le (cost_ofScript_le (.error message :: rest))) rfl

/-! ### The engine -/

namespace Engine

variable {σ κ : Type} [Connection σ κ]

/-- **Reading one by one and reading all agree.** Whatever cursor a query opens, an iteration gives
for each row up to the first end or failure a record, or an error in its place, then the failure if
there is one, and then the end. Reading all gives the records if there is no error, and the first
error otherwise. Only the rows and the failure matter, and not how the rows fall into batches. -/
theorem read_plays (e : Engine) (s : Schema) (q : Select) {c : σ} {k : κ} {script : List Outcome}
    (hopen : Connection.query q c = .ok k) (hplays : Plays e.batchSize script k) :
    (∃ it, e.readIter s q c = .ok it ∧ it.Yields ((readout script).items s)) ∧
      ((e.readAll s q).outcome c).1 = ((readout script).items s).mapM id := by
  have hit : e.readIter s q c = .ok (.ofCursor k e.batchSize) := by
    rw [readIter, hopen]
    rfl
  have hyields := RecordIter.yields_of_plays (s := s) hplays
  refine ⟨⟨_, hit, hyields⟩, ?_⟩
  have hcollect : (RecordIter.ofCursor k e.batchSize : RecordIter s κ).collect.1 =
      ((readout script).items s).mapM id := by
    refine RecordIter.collectWithin_of_yields hyields _ ?_
    have hfits := Nat.le_trans (length_items_le s script) hplays.announced
    exact Nat.lt_succ_of_le (Nat.le_add_left_of_le hfits)
  rw [← hcollect]
  simp only [Action.outcome, readAll, hit]
  generalize (RecordIter.ofCursor k e.batchSize : RecordIter s κ).collect = collected
  obtain ⟨outcome, after⟩ := collected
  cases outcome <;> rfl

/-- A row that is no record does not end the iteration, and a failed fetch does. -/
theorem read_plays_interrupted :
    let s : Schema := ⟨"t", [⟨"a", _, Field.int .int64⟩]⟩
    let batches : List (Except String (List Row)) :=
      [.ok [], .ok [[some "7"], [some "x"], [some "8"]], .error "gone", .ok [[some "9"]]]
    let c : Scripted := { Scripted.ofDialect .sqlite with script := .batches batches }
    let items := (readout (ofScript batches)).items s
    (∃ it, Engine.default.readIter s s.select c = .ok it ∧ it.Yields items) ∧
      ((Engine.default.readAll s s.select).outcome c).1 = items.mapM id ∧
      items.map (·.isOk) = [true, false, true, false] := by
  intro s batches c items
  have hread := Engine.default.read_plays s s.select (c := c) rfl (ScriptedCursor.plays _ batches _)
  exact ⟨hread.1, hread.2, by decide +kernel⟩

end Engine

end SqlRecords
