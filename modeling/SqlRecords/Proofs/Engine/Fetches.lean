import SqlRecords.Proofs.Engine.BatchSize

/-!
# When an iteration fetches

An iteration over records asks its cursor for a batch only when it has to. `Traced s κ` is a cursor
together with what has happened in an iteration over it (`Event`): each fetch, with what the cursor
said about its end before, and what each step gave. Nothing is known of the cursor. It may give
batches of any size, empty ones among them, say at any time that it has come to its end, fail, and
go on after a failure.

A step on a cursor that gives empty batches for ever does not end. `RecordIter.calls` therefore
lists how many fetches each step is allowed; a step that has used them up (`Pull.pending`) is not
over, and the next entry goes on with it. A list of allowances is a history of any number of steps,
the last of which may still be going on.

## What is proved

* `RecordIter.call_path`, `RecordIter.run_path`: what happens in one step and in any number of them
  goes along the steps of an automaton, `Phase.Step`.
* `RecordIter.nextWithin_plain`, `RecordIter.run_plain`: writing down what happens changes nothing.
* `Path.ahead`: on such a path all items that were fetched have been given, but for those buffered.
* `RecordIter.buffered_items`: what is buffered is given, one item a step.
* `RecordIter.next_ends`: a step on a SQLite cursor ends.
* **`RecordIter.run_contract`**: when an iteration fetches, what it does behind its end, what its
  hints are worth, and that it goes on.
-/

namespace SqlRecords

open Sqlite

/-! ### What happens in an iteration -/

/-- Something that happens in an iteration. -/
inductive Event (s : Schema) where
  /-- Rows are fetched from a cursor, which may have been `atEnd`, or cannot be fetched. -/
  | fetched (atEnd : Bool) (rows : Result (List Row))
  /-- A step ends and gives something. -/
  | gave (pull : Pull s.Record)

/-- A cursor and what has happened in an iteration over it, first things first. -/
structure Traced (s : Schema) (κ : Type) where
  /-- The cursor. -/
  inner : κ
  /-- What has happened. -/
  history : List (Event s)

variable {s : Schema} {κ : Type}

namespace Event

/-- The rows that were fetched. -/
def rows : Event s → List Row
  | .fetched _ (.ok rows) => rows
  | _ => []

/-- The items that were given. -/
def items : Event s → List (Result s.Record)
  | .gave (.item r) => [r]
  | _ => []

/-- What happens when a step comes to an end; nothing does if it goes on. -/
def ofPull : Pull s.Record → List (Event s)
  | .pending => []
  | pull => [.gave pull]

end Event

/-- The rows that were fetched in a history. -/
def fetchedRows (events : List (Event s)) : List Row := events.flatMap Event.rows

/-- The items that were given in a history. -/
def givenItems (events : List (Event s)) : List (Result s.Record) := events.flatMap Event.items

/-- A fetch is written down with its outcome. -/
instance [Cursor κ] : Cursor (Traced s κ) where
  fetch size t :=
    match Cursor.fetch size t.inner with
    | .ok rows inner =>
      .ok rows ⟨inner, t.history ++ [.fetched (Cursor.isDone t.inner) (.ok rows)]⟩
    | .error e inner =>
      .error e ⟨inner, t.history ++ [.fetched (Cursor.isDone t.inner) (.error e)]⟩
  isDone t := Cursor.isDone t.inner
  remaining t := Cursor.remaining t.inner

theorem Traced.history_fetch_ok [Cursor κ] {size : Nat} {t t' : Traced s κ} {rows : List Row}
    (h : Cursor.fetch size t = .ok rows t') :
    t'.history = t.history ++ [.fetched (Cursor.isDone t) (.ok rows)] := by
  simp only [Cursor.fetch] at h
  split at h
  · cases h
    rfl
  · cases h

theorem Traced.history_fetch_error [Cursor κ] {size : Nat} {t t' : Traced s κ} {e : Error}
    (h : Cursor.fetch size t = .error e t') :
    t'.history = t.history ++ [.fetched (Cursor.isDone t) (.error e)] := by
  simp only [Cursor.fetch] at h
  split at h
  · cases h
  · cases h
    rfl

theorem Traced.inner_fetch_ok [Cursor κ] {size : Nat} {t t' : Traced s κ} {rows : List Row}
    (h : Cursor.fetch size t = .ok rows t') : Cursor.fetch size t.inner = .ok rows t'.inner := by
  simp only [Cursor.fetch] at h
  split at h
  · cases h
    assumption
  · cases h

theorem Traced.inner_fetch_error [Cursor κ] {size : Nat} {t t' : Traced s κ} {e : Error}
    (h : Cursor.fetch size t = .error e t') : Cursor.fetch size t.inner = .error e t'.inner := by
  simp only [Cursor.fetch] at h
  split at h
  · cases h
  · cases h
    assumption

namespace RecordIter

/-- The same iteration on another cursor. -/
def onCursor {κ' : Type} (it : RecordIter s κ) (cursor : κ') : RecordIter s κ' :=
  { cursor, batchSize := it.batchSize, batch := it.batch, ended := it.ended }

/-- The iteration on the cursor that is traced. -/
def plain (it : RecordIter s (Traced s κ)) : RecordIter s κ := it.onCursor it.cursor.inner

variable [Cursor κ]

/-- What has happened in an iteration. -/
def history (it : RecordIter s (Traced s κ)) : List (Event s) := it.cursor.history

/-- A step with at most so many fetches. What it gives is written down, unless it goes on. -/
def call (it : RecordIter s (Traced s κ)) (fetches : Nat) : RecordIter s (Traced s κ) :=
  let (pull, it) := it.nextWithin fetches
  { it with cursor := { it.cursor with history := it.history ++ Event.ofPull pull } }

/-- Steps one after the other, each with at most so many fetches. -/
def run (it : RecordIter s (Traced s κ)) (calls : List Nat) : RecordIter s (Traced s κ) :=
  calls.foldl call it

/-- The same steps without writing anything down. -/
def steps (it : RecordIter s κ) (calls : List Nat) : RecordIter s κ :=
  calls.foldl (fun it fetches => (it.nextWithin fetches).2) it

end RecordIter

/-! ### The order of things -/

/-- Where an iteration stands. -/
inductive Phase where
  /-- Rows are buffered, and more may come. -/
  | buffered (rows : List Row)
  /-- A fetch has failed, which the step has not given yet. -/
  | failed (e : Error)
  /-- No more items come. -/
  | over

/-- What may happen next. -/
inductive Phase.Step (s : Schema) : Phase → Event s → Phase → Prop where
  | row (row : Row) (rest : List Row) :
      Step s (.buffered (row :: rest)) (.gave (.item (s.fromRow row))) (.buffered rest)
  | fetched (rows : List Row) : Step s (.buffered []) (.fetched false (.ok rows)) (.buffered rows)
  | failed (e : Error) : Step s (.buffered []) (.fetched false (.error e)) (.failed e)
  | error (e : Error) : Step s (.failed e) (.gave (.item (.error e))) .over
  | finished : Step s (.buffered []) (.gave .finished) .over
  | again : Step s .over (.gave .finished) .over

/-- Things happen one after the other. -/
inductive Path : Phase → List (Event s) → Phase → Prop where
  | nil (p : Phase) : Path p [] p
  | cons {p q r : Phase} {event : Event s} {events : List (Event s)} :
      Phase.Step s p event q → Path q events r → Path p (event :: events) r

namespace Path

variable {p q r : Phase} {events more before after : List (Event s)} {event : Event s} {e : Error}
  {rows left : List Row}

theorem append (h : Path p events q) (hmore : Path q more r) : Path p (events ++ more) r := by
  induction h with
  | nil => exact hmore
  | cons hstep _ ih => exact .cons hstep (ih hmore)

theorem single (h : Phase.Step s p event q) : Path p [event] q := .cons h (.nil q)

/-- Something that happens on a path happens between two paths. -/
theorem split (h : Path p (before ++ event :: after) r) :
    ∃ q q', Path p before q ∧ Phase.Step s q event q' ∧ Path q' after r := by
  induction before generalizing p with
  | nil =>
    cases h with
    | cons hstep hrest => exact ⟨_, _, .nil _, hstep, hrest⟩
  | cons first before ih =>
    cases h with
    | cons hstep hrest =>
      obtain ⟨q, q', hbefore, hevent, hafter⟩ := ih hrest
      exact ⟨q, q', .cons hstep hbefore, hevent, hafter⟩

/-- Behind the end nothing happens but that the end is given. -/
theorem of_over (h : Path .over events r) :
    r = .over ∧ ∃ n, events = List.replicate n (.gave .finished) := by
  generalize hp : Phase.over = p at h
  induction h with
  | nil => exact ⟨rfl, 0, rfl⟩
  | cons hstep _ ih =>
    subst hp
    cases hstep with
    | again =>
      obtain ⟨hr, n, rfl⟩ := ih rfl
      exact ⟨hr, n + 1, rfl⟩

/-- Behind a failed fetch its error is given, and then the end. -/
theorem of_failed (h : Path (.failed e) events .over) :
    ∃ n, events = .gave (.item (.error e)) :: List.replicate n (.gave .finished) := by
  cases h with
  | cons hstep hrest =>
    cases hstep with
    | error =>
      obtain ⟨-, n, rfl⟩ := hrest.of_over
      exact ⟨n, rfl⟩

/-- No more items come behind the end. -/
theorem givenItems_of_over (h : Path .over events r) : givenItems events = [] := by
  obtain ⟨-, n, rfl⟩ := h.of_over
  simp [givenItems, Event.items]

/-- **As long as an iteration goes on**, nothing has failed, the end was not given, and all rows
that were fetched have been given as items, but for those that are buffered. -/
theorem ahead (h : Path (.buffered rows) events (.buffered left)) :
    (rows ++ fetchedRows events).map s.fromRow = givenItems events ++ left.map s.fromRow ∧
      .gave .finished ∉ events ∧ ∀ atEnd e, .fetched atEnd (.error e) ∉ events := by
  generalize hp : Phase.buffered rows = p at h
  generalize hr : Phase.buffered left = r at h
  induction h generalizing rows with
  | nil =>
    obtain rfl : rows = left := by simpa using hp.trans hr.symm
    simp [fetchedRows, givenItems]
  | cons hstep hrest ih =>
    subst hp hr
    cases hstep with
    | row row rest =>
      obtain ⟨hitems, hend, hfailed⟩ := ih rfl rfl
      refine ⟨?_, by simpa using hend, by simpa using hfailed⟩
      simpa [fetchedRows, givenItems, Event.rows, Event.items] using hitems
    | fetched rows =>
      obtain ⟨hitems, hend, hfailed⟩ := ih rfl rfl
      refine ⟨?_, by simpa using hend, by simpa using hfailed⟩
      simpa [fetchedRows, givenItems, Event.rows, Event.items] using hitems
    | failed e =>
      cases hrest with
      | cons hstep hrest =>
        cases hstep with
        | error => cases hrest.of_over.1
    | finished => cases hrest.of_over.1

end Path

/-! ### Steps -/

namespace RecordIter

/-- Where an iteration stands between two steps. -/
def phase (it : RecordIter s κ) : Phase := if it.ended then .over else .buffered it.batch

theorem phase_of_ended {it : RecordIter s κ} (h : it.ended = true) : it.phase = .over := if_pos h

theorem phase_of_going {it : RecordIter s κ} (h : ¬it.ended = true) :
    it.phase = .buffered it.batch := if_neg h

variable [Cursor κ]

/-- What happens in a step. -/
theorem nextWithin_path (fetches : Nat) (it : RecordIter s (Traced s κ)) :
    ∃ new, (it.nextWithin fetches).2.history = it.history ++ new ∧
      Path it.phase (new ++ Event.ofPull (it.nextWithin fetches).1)
        (it.nextWithin fetches).2.phase := by
  fun_induction nextWithin fetches it with
  | case1 fetches it hended =>
    refine ⟨[], (List.append_nil _).symm, ?_⟩
    rw [phase_of_ended hended]
    exact .single .again
  | case2 fetches it hended row rest hbatch =>
    refine ⟨[], (List.append_nil _).symm, ?_⟩
    rw [phase_of_going hended, hbatch, phase_of_going (by exact hended)]
    exact .single (.row row rest)
  | case3 fetches it hended hbatch hdone =>
    refine ⟨[], (List.append_nil _).symm, ?_⟩
    rw [phase_of_going hended, hbatch]
    exact .single .finished
  | case4 it hended hbatch hdone => exact ⟨[], (List.append_nil _).symm, .nil _⟩
  | case5 it hended hbatch hdone fetches rows cursor hfetch ih =>
    have hbefore : Cursor.isDone it.cursor = false := Bool.eq_false_iff.mpr hdone
    obtain ⟨new, hnew, hpath⟩ := ih
    refine ⟨.fetched false (.ok rows) :: new, ?_, ?_⟩
    · rw [hnew, history, Traced.history_fetch_ok hfetch, hbefore, List.append_assoc]
      rfl
    · rw [phase_of_going hended, hbatch]
      rw [phase_of_going (by exact hended)] at hpath
      exact .cons (.fetched rows) hpath
  | case6 it hended hbatch hdone fetches e cursor hfetch =>
    have hbefore : Cursor.isDone it.cursor = false := Bool.eq_false_iff.mpr hdone
    refine ⟨[.fetched false (.error e)], ?_, ?_⟩
    · rw [history, Traced.history_fetch_error hfetch, hbefore]
      rfl
    · rw [phase_of_going hended, hbatch]
      exact .cons (.failed e) (.single (.error e))

/-- **What happens in a step** goes along the automaton. -/
theorem call_path (it : RecordIter s (Traced s κ)) (fetches : Nat) :
    ∃ new, (it.call fetches).history = it.history ++ new ∧
      Path it.phase new (it.call fetches).phase := by
  obtain ⟨new, hnew, hpath⟩ := nextWithin_path fetches it
  refine ⟨new ++ Event.ofPull (it.nextWithin fetches).1, ?_, hpath⟩
  rw [← List.append_assoc, ← hnew]
  rfl

/-- **What happens in any number of steps** does, too. -/
theorem run_path (it : RecordIter s (Traced s κ)) (calls : List Nat) :
    ∃ new, (it.run calls).history = it.history ++ new ∧ Path it.phase new (it.run calls).phase := by
  induction calls generalizing it with
  | nil => exact ⟨[], (List.append_nil _).symm, .nil _⟩
  | cons fetches calls ih =>
    obtain ⟨first, hfirst, hpath⟩ := it.call_path fetches
    obtain ⟨rest, hrest, hpath'⟩ := ih (it.call fetches)
    refine ⟨first ++ rest, ?_, hpath.append hpath'⟩
    rw [run, List.foldl_cons, ← run, hrest, hfirst, List.append_assoc]

/-- **Writing down changes nothing**: a step gives what it gives on the cursor itself. -/
theorem nextWithin_plain (fetches : Nat) (it : RecordIter s (Traced s κ)) :
    it.plain.nextWithin fetches =
      ((it.nextWithin fetches).1, (it.nextWithin fetches).2.plain) := by
  fun_induction nextWithin fetches it with
  | case1 fetches it hended =>
    rw [nextWithin.eq_def, if_pos (show it.plain.ended = true from hended)]
  | case2 fetches it hended row rest hbatch =>
    rw [nextWithin.eq_def, if_neg (show ¬it.plain.ended = true from hended),
      show it.plain.batch = row :: rest from hbatch]
    rfl
  | case3 fetches it hended hbatch hdone =>
    rw [nextWithin.eq_def, if_neg (show ¬it.plain.ended = true from hended),
      show it.plain.batch = [] from hbatch]
    refine (if_pos hdone).trans ?_
    simp only [plain, onCursor, hbatch]
  | case4 it hended hbatch hdone =>
    rw [nextWithin.eq_def, if_neg (show ¬it.plain.ended = true from hended),
      show it.plain.batch = [] from hbatch]
    exact if_neg hdone
  | case5 it hended hbatch hdone fetches rows cursor hfetch ih =>
    rw [nextWithin.eq_def, if_neg (show ¬it.plain.ended = true from hended),
      show it.plain.batch = [] from hbatch, ← ih]
    refine (if_neg hdone).trans ?_
    simp only [plain, onCursor, Traced.inner_fetch_ok hfetch]
  | case6 it hended hbatch hdone fetches e cursor hfetch =>
    rw [nextWithin.eq_def, if_neg (show ¬it.plain.ended = true from hended),
      show it.plain.batch = [] from hbatch]
    refine (if_neg hdone).trans ?_
    simp only [plain, onCursor, hbatch, Traced.inner_fetch_error hfetch]

/-- So do any number of steps. -/
theorem run_plain (it : RecordIter s (Traced s κ)) (calls : List Nat) :
    (it.run calls).plain = it.plain.steps calls := by
  induction calls generalizing it with
  | nil => rfl
  | cons fetches calls ih =>
    have hcall : (it.call fetches).plain = (it.plain.nextWithin fetches).2 := by
      rw [nextWithin_plain]
      rfl
    rw [run, List.foldl_cons, ← run, ih, hcall]
    rfl

/-! ### Items to come -/

/-- The items that steps give. -/
def given (it : RecordIter s (Traced s κ)) (calls : List Nat) : List (Result s.Record) :=
  givenItems ((it.run calls).history.drop it.history.length)

theorem given_eq {it : RecordIter s (Traced s κ)} {calls : List Nat} {new : List (Event s)}
    (h : (it.run calls).history = it.history ++ new) : it.given calls = givenItems new := by
  rw [given, h, List.drop_left]

/-- A step on buffered rows gives the first of them. -/
theorem call_buffered {it : RecordIter s (Traced s κ)} {row : Row} {rest : List Row}
    (hgoing : ¬it.ended = true) (hbatch : it.batch = row :: rest) (fetches : Nat) :
    (it.call fetches).history = it.history ++ [.gave (.item (s.fromRow row))] ∧
      ¬(it.call fetches).ended = true ∧ (it.call fetches).batch = rest := by
  rw [call, nextWithin.eq_def, if_neg hgoing, hbatch]
  exact ⟨rfl, hgoing, rfl⟩

/-- **What is buffered is given**, one item a step. -/
theorem buffered_items {it : RecordIter s (Traced s κ)} (hgoing : ¬it.ended = true)
    (calls : List Nat) : min calls.length it.batch.length ≤ (it.given calls).length := by
  induction calls generalizing it with
  | nil => simp
  | cons fetches calls ih =>
    cases hbatch : it.batch with
    | nil => simp
    | cons row rest =>
      obtain ⟨hfirst, hgoing', hrest⟩ := call_buffered hgoing hbatch fetches
      have hbehind := ih hgoing'
      obtain ⟨new, hnew, -⟩ := (it.call fetches).run_path calls
      have hall : (it.run (fetches :: calls)).history =
          it.history ++ (.gave (.item (s.fromRow row)) :: new) := by
        rw [run, List.foldl_cons, ← run, hnew, hfirst, List.append_assoc]
        rfl
      have hone : givenItems (.gave (.item (s.fromRow row)) :: new) =
          s.fromRow row :: givenItems new := rfl
      rw [given_eq hnew, hrest] at hbehind
      rw [given_eq hall, hone, List.length_cons, List.length_cons, List.length_cons]
      omega

/-! ### Steps that end -/

/-- A step fetches as many rows at a time as the one before. -/
theorem nextWithin_batchSize (fetches : Nat) (it : RecordIter s κ) :
    (it.nextWithin fetches).2.batchSize = it.batchSize := by
  fun_induction nextWithin fetches it with
  | case5 it hended hbatch hdone fetches rows cursor hfetch ih => exact ih
  | _ => rfl

theorem steps_batchSize (it : RecordIter s κ) (calls : List Nat) :
    (it.steps calls).batchSize = it.batchSize := by
  induction calls generalizing it with
  | nil => rfl
  | cons fetches calls ih => exact (ih _).trans (nextWithin_batchSize fetches it)

omit [Cursor κ] in
/-- **A step on a SQLite cursor ends**, if any rows are fetched at a time. -/
theorem next_ends {δ : Type} {it : RecordIter s (SqliteCursor δ)} (hsize : 0 < it.batchSize) :
    it.next.1 ≠ .pending := by
  rw [(next_leaves hsize).gives]
  cases it.toGive <;> exact nofun

/-! ### The contract -/

/-- Rows are fetched only while all rows fetched before have been given, the cursor has not come to
its end, and no fetch has failed. -/
def FetchesWhenDue (events : List (Event s)) : Prop :=
  ∀ before atEnd rows after, events = before ++ .fetched atEnd rows :: after →
    givenItems before = (fetchedRows before).map s.fromRow ∧ atEnd = false ∧
      ∀ atEnd e, .fetched atEnd (.error e) ∉ before

/-- The end is given, or a fetch fails and its error is given; then only the end is given, again and
again. -/
def EndsForGood (events : List (Event s)) : Prop :=
  (∀ before after, events = before ++ .gave .finished :: after →
    ∃ n, after = List.replicate n (.gave .finished)) ∧
  ∀ before atEnd e after, events = before ++ .fetched atEnd (.error e) :: after →
    ∃ n, after = .gave (.item (.error e)) :: List.replicate n (.gave .finished)

/-- The end was given, or a fetch has failed. -/
def IsOver (events : List (Event s)) : Prop :=
  .gave .finished ∈ events ∨ ∃ atEnd e, .fetched atEnd (.error e) ∈ events

theorem fetchesWhenDue_of_path {events : List (Event s)} {p : Phase}
    (h : Path (.buffered []) events p) : FetchesWhenDue events := by
  rintro before atEnd rows after rfl
  obtain ⟨q, q', hbefore, hstep, -⟩ := h.split
  have hphase : q = .buffered [] ∧ atEnd = false := by cases hstep <;> exact ⟨rfl, rfl⟩
  obtain ⟨rfl, hatEnd⟩ := hphase
  obtain ⟨hitems, -, hfailed⟩ := hbefore.ahead
  exact ⟨by simpa using hitems.symm, hatEnd, hfailed⟩

omit [Cursor κ] in
/-- An iteration that was over has ended. -/
theorem ended_of_path {it : RecordIter s κ} {events : List (Event s)}
    (h : Path (.buffered []) events it.phase) (hover : IsOver events) : it.ended = true := by
  by_contra hgoing
  rw [phase_of_going hgoing] at h
  obtain ⟨-, hend, hfailed⟩ := h.ahead
  rcases hover with hover | ⟨atEnd, e, hover⟩
  · exact hend hover
  · exact hfailed atEnd e hover

omit [Cursor κ] in
theorem endsForGood_of_path {it : RecordIter s κ} {events : List (Event s)}
    (h : Path (.buffered []) events it.phase) : EndsForGood events := by
  constructor
  · rintro before after rfl
    obtain ⟨q, q', -, hstep, hafter⟩ := h.split
    obtain rfl : q' = .over := by cases hstep <;> rfl
    exact hafter.of_over.2
  · rintro before atEnd e after rfl
    have hended : it.ended = true := ended_of_path h (.inr ⟨atEnd, e, by simp⟩)
    rw [phase_of_ended hended] at h
    obtain ⟨q, q', -, hstep, hafter⟩ := h.split
    obtain rfl : q' = .failed e := by
      cases hstep
      rfl
    exact hafter.of_failed

/-- **The contract of an iteration.** Whatever its cursor does and however many steps are taken: it
fetches only when it is due; behind the end, or behind the error of a fetch, steps give the end and
leave the cursor alone, whichever it is; what is left to give is at least what the hint says, one
item a step, and at most what it says if it says so. A step on the cursor of a SQLite query, read
by an engine with any settings that it may have, comes to an end. -/
theorem run_contract (k : κ) (size : Nat) (calls : List Nat) :
    let it := (ofCursor ⟨k, []⟩ size : RecordIter s (Traced s κ)).run calls
    it.plain = (ofCursor k size).steps calls ∧
    FetchesWhenDue it.history ∧
    EndsForGood it.history ∧
    (IsOver it.history → ∀ (κ' : Type) [Cursor κ'] (k' : κ') (fetches : Nat),
      (it.onCursor k').nextWithin fetches = (.finished, it.onCursor k')) ∧
    (∀ more : List Nat, min more.length it.sizeHint.1 ≤ (it.given more).length ∧
      ∀ n, it.sizeHint.2 = some n → (it.given more).length ≤ n) ∧
    ∀ (δ : Type) [Database δ] (e : Engine) (q : Select) (c : SqliteConnection δ)
      (opened : RecordIter s (SqliteCursor δ)), e.readIter s q c = .ok opened →
        ((opened.steps calls).next).1 ≠ .pending := by
  intro it
  obtain ⟨events, hevents, hpath⟩ :=
    (ofCursor ⟨k, []⟩ size : RecordIter s (Traced s κ)).run_path calls
  obtain rfl : it.history = events := hevents
  refine ⟨run_plain _ calls, fetchesWhenDue_of_path hpath, endsForGood_of_path hpath, ?_, ?_, ?_⟩
  · intro hover κ' _ k' fetches
    have hended : it.ended = true := ended_of_path hpath hover
    exact nextWithin_ended fetches hended
  · intro more
    by_cases hended : it.ended = true
    · obtain ⟨new, hnew, hover⟩ := it.run_path more
      rw [phase_of_ended hended] at hover
      have hnone : it.given more = [] := by rw [given_eq hnew, hover.givenItems_of_over]
      simp [sizeHint, hended, hnone]
    · have hitems := buffered_items hended more
      simpa [sizeHint, hended] using hitems
  · intro δ _ e q c opened hopened
    obtain ⟨cursor, -, rfl⟩ := Except.map_eq_ok_iff.mp hopened
    exact next_ends (by rw [steps_batchSize]; exact e.batchSize_pos)

end RecordIter

end SqlRecords
