import SqlRecords.Proofs.Sqlite.Intake

/-!
# The calls of a bulk write

A bulk write of records is a fixed sequence of calls to its connection: one that makes the table,
one that begins the bulk write, one for each piece of rows, one that ends it. Any of them may fail,
and then none is made behind it. The rows are cut into pieces while the records come, by filling a
buffer and sending it when it is full; what comes out is the list cut from the front, which is how
records are inserted.

`Tracked α` is a connection, or a cursor, with all the calls that it has received. It passes them
on to a connection of which nothing is known, so they may succeed and fail in any pattern.

## What is proved

* `Engine.chunks_dropLast`, `Engine.chunks_bounds`: all pieces but the last are full, and the last
  one is neither empty nor more than full.
* `Makes.bind`: calls behind calls are made unless one of the first fails.
* `Engine.send_makes`: sending records from a buffer makes one call for each piece.
* **`Engine.write_makes`**: the calls of a bulk write, of an insert, and their pieces.
-/

namespace SqlRecords

/-! ### Pieces -/

namespace Engine

variable {α : Type} {size : Nat}

/-- A full piece is cut off in front. -/
theorem chunks_full {piece : List α} (hsize : 0 < size) (hfull : piece.length = size)
    (rest : List α) : chunks size (piece ++ rest) = piece :: chunks size rest := by
  cases piece with
  | nil => exact absurd hfull (Nat.ne_of_lt hsize)
  | cons a piece =>
    obtain rfl : size = piece.length + 1 := hfull.symm
    simp [chunks]

/-- What fits into one piece is one. -/
theorem chunks_short {piece : List α} (hne : piece ≠ []) (hshort : piece.length ≤ size) :
    chunks size piece = [piece] := by
  cases piece with
  | nil => exact absurd rfl hne
  | cons a piece =>
    have hrest : piece.length ≤ size - 1 := Nat.le_sub_one_of_lt hshort
    rw [chunks, List.take_of_length_le hrest, List.drop_of_length_le hrest, chunks]

/-- **No piece is empty, and none is more than full.** -/
theorem chunks_bounds (hsize : 0 < size) (xs : List α) :
    ∀ piece ∈ chunks size xs, 1 ≤ piece.length ∧ piece.length ≤ size := by
  fun_induction chunks size xs with
  | case1 => simp
  | case2 a rest ih =>
    intro piece hpiece
    rcases List.mem_cons.mp hpiece with rfl | hrest
    · rw [List.length_cons, List.length_take]
      omega
    · exact ih piece hrest

/-- **All pieces but the last are full.** -/
theorem chunks_dropLast (hsize : 0 < size) (xs : List α) :
    ∀ piece ∈ (chunks size xs).dropLast, piece.length = size := by
  fun_induction chunks size xs with
  | case1 => simp
  | case2 a rest ih =>
    intro piece hpiece
    -- the first piece is not the last one only if something is left behind it
    cases hrest : rest.drop (size - 1) with
    | nil => simp [hrest, chunks] at hpiece
    | cons b left =>
      have hlong := congrArg List.length hrest
      rw [List.length_drop, List.length_cons] at hlong
      have hmore : chunks size (rest.drop (size - 1)) ≠ [] := by simp [hrest, chunks]
      rw [List.dropLast_cons_of_ne_nil hmore] at hpiece
      rcases List.mem_cons.mp hpiece with rfl | hbehind
      · rw [List.length_cons, List.length_take]
        omega
      · exact ih piece hbehind

end Engine

/-- The outcome of one action behind another. -/
theorem Action.outcome_bind {σ α β : Type} (a : Action σ α) (f : α → Action σ β) (s : σ) :
    (a >>= f).outcome s =
      match a.outcome s with
      | (.ok x, s) => (f x).outcome s
      | (.error e, s) => (.error e, s) := by
  simp only [outcome, bind, EStateM.bind]
  cases a s <;> rfl

/-! ### Connections whose calls are tracked -/

/-- A call that a connection receives. A statement is received as its text. -/
inductive Asked where
  | begin
  | commit
  | rollback
  | execute (sql : String)
  | insert (i : Insert) (rows : List Row)
  | startWrite (w : Write)
  | write (rows : List Row)
  | endWrite
  | query (q : Select)
  | fetch (size : Nat)
  | close

/-- A call that was made, and how it ended. -/
structure Made where
  /-- The call. -/
  asked : Asked
  /-- It succeeded, or failed with an error. -/
  outcome : Result Unit

/-- A connection or a cursor, and the calls that were made to it, the first one first. -/
structure Tracked (α : Type) where
  /-- What is tracked. -/
  inner : α
  /-- The calls. -/
  made : List Made

namespace Tracked

variable {α β σ κ : Type}

/-- Passes a call on and writes it down, with its outcome. -/
def track (asked : α → Asked) (a : Action α β) : Action (Tracked α) β := fun t =>
  match a t.inner with
  | .ok x inner => .ok x ⟨inner, t.made ++ [⟨asked t.inner, .ok ()⟩]⟩
  | .error e inner => .error e ⟨inner, t.made ++ [⟨asked t.inner, .error e⟩]⟩

instance [Cursor κ] : Cursor (Tracked κ) where
  fetch size := track (fun _ => .fetch size) (Cursor.fetch size)
  isDone t := Cursor.isDone t.inner
  remaining t := Cursor.remaining t.inner

instance [Connection σ κ] : Connection (Tracked σ) (Tracked κ) where
  dialect t := Connection.dialect t.inner
  beginTransaction := track (fun _ => .begin) Connection.beginTransaction
  commit := track (fun _ => .commit) Connection.commit
  rollback := track (fun _ => .rollback) Connection.rollback
  execute s := track (fun c => .execute ((Connection.dialect c).compile s)) (Connection.execute s)
  executeText sql := track (fun _ => .execute sql) (Connection.executeText sql)
  insert i rows := track (fun _ => .insert i rows) (Connection.insert i rows)
  startWrite w := track (fun _ => .startWrite w) (Connection.startWrite w)
  write rows := track (fun _ => .write rows) (Connection.write rows)
  endWrite := track (fun _ => .endWrite) Connection.endWrite
  query q t :=
    match Connection.query q t.inner with
    | .ok cursor => .ok ⟨cursor, t.made ++ [⟨.query q, .ok ()⟩]⟩
    | .error (e, inner) => .error (e, ⟨inner, t.made ++ [⟨.query q, .error e⟩]⟩)
  close t := ⟨Connection.close t.inner, t.made ++ [⟨.close, .ok ()⟩]⟩

end Tracked

/-! ### Calls in order -/

/-- Calls are made one after the other up to the first that fails, whose error is the outcome. -/
inductive Follows : List Asked → List Made → Result Unit → Prop where
  | done : Follows [] [] (.ok ())
  | step {asked : Asked} {rest : List Asked} {made : List Made} {r : Result Unit} :
      Follows rest made r → Follows (asked :: rest) (⟨asked, .ok ()⟩ :: made) r
  | failed {asked : Asked} {rest : List Asked} {e : Error} :
      Follows (asked :: rest) [⟨asked, .error e⟩] (.error e)

variable {asked more : List Asked} {made : List Made} {r : Result Unit} {e : Error}

/-- Calls that all succeeded are followed by others. -/
theorem Follows.append (h : Follows asked made (.ok ())) {others : List Made}
    (hmore : Follows more others r) : Follows (asked ++ more) (made ++ others) r := by
  generalize hr : (.ok () : Result Unit) = ok at h
  induction h with
  | done => exact hmore
  | step _ ih => exact .step (ih hr)
  | failed => cases hr

/-- No call is made behind one that failed. -/
theorem Follows.stop (h : Follows asked made (.error e)) (more : List Asked) :
    Follows (asked ++ more) made (.error e) := by
  generalize hr : (.error e : Result Unit) = failure at h
  induction h with
  | done => cases hr
  | step _ ih => exact .step (ih hr)
  | failed => exact .failed

variable {σ κ : Type} [Connection σ κ]

/-- On a connection whose calls are tracked, an action makes these calls in order, and otherwise
does what it does without being tracked. -/
def Makes (t : Tracked σ) (asked : List Asked) (tracked : Action (Tracked σ) Unit)
    (plain : Action σ Unit) : Prop :=
  ∃ made, tracked.outcome t =
      ((plain.outcome t.inner).1, ⟨(plain.outcome t.inner).2, t.made ++ made⟩) ∧
    Follows asked made (plain.outcome t.inner).1

omit [Connection σ κ] in
theorem makes_pure (t : Tracked σ) : Makes t [] (pure ()) (pure ()) :=
  ⟨[], by simp [Action.outcome, pure, EStateM.pure], .done⟩

omit [Connection σ κ] in
/-- A call is made, whatever comes of it. -/
theorem makes_track (t : Tracked σ) (asked : σ → Asked) (a : Action σ Unit) :
    Makes t [asked t.inner] (Tracked.track asked a) a := by
  unfold Makes
  simp only [Action.outcome, Tracked.track]
  cases a t.inner with
  | ok _ inner => exact ⟨[⟨asked t.inner, .ok ()⟩], rfl, .step .done⟩
  | error e inner => exact ⟨[⟨asked t.inner, .error e⟩], rfl, .failed⟩

omit [Connection σ κ] in
/-- **Calls behind calls** are made unless one of the first fails. -/
theorem Makes.bind {t : Tracked σ} {a b : Action (Tracked σ) Unit} {a' b' : Action σ Unit}
    (h : Makes t asked a a') (hmore : ∀ t, Makes t more b b') :
    Makes t (asked ++ more) (a >>= fun _ => b) (a' >>= fun _ => b') := by
  obtain ⟨made, hrun, hfollows⟩ := h
  unfold Makes
  rw [Action.outcome_bind, Action.outcome_bind, hrun]
  generalize a'.outcome t.inner = ended at hfollows ⊢
  obtain ⟨r, inner⟩ := ended
  cases r with
  | ok =>
    obtain ⟨others, hothers, hbehind⟩ := hmore ⟨inner, t.made ++ made⟩
    rw [List.append_assoc] at hothers
    exact ⟨made ++ others, hothers, hfollows.append hbehind⟩
  | error e => exact ⟨made, rfl, hfollows.stop more⟩

namespace Engine

variable {s : Schema}

/-! ### Inserting and sending -/

/-- Pieces are inserted with one call each. -/
theorem insertWith_makes (e : Engine) (i : Insert) (rows : List Row) (t : Tracked σ) :
    Makes t ((chunks e.batchSize rows).map (.insert i)) (e.insertWith i rows)
      (e.insertWith i rows) := by
  unfold insertWith
  induction chunks e.batchSize rows generalizing t with
  | nil => exact makes_pure t
  | cons piece rest ih => exact (makes_track t (fun _ => .insert i piece) _).bind ih

/-- **Sending records from a buffer** that is not full makes one call for each piece of the rows in
the buffer and those of the records. -/
theorem send_makes (e : Engine) : ∀ (records : List s.Record) (buffer : List Row) (t : Tracked σ),
    buffer.length < e.batchSize →
      Makes t ((chunks e.batchSize (buffer ++ records.map s.toRow)).map .write)
        (e.send s records buffer) (e.send s records buffer)
  | [], buffer, t, hbuffer => by
    rw [List.map_nil, List.append_nil]
    unfold send
    cases buffer with
    | nil =>
      rw [chunks]
      exact makes_pure t
    | cons row rest =>
      rw [chunks_short (List.cons_ne_nil row rest) (Nat.le_of_lt hbuffer)]
      exact makes_track t (fun _ => .write (row :: rest)) _
  | record :: records, buffer, t, hbuffer => by
    unfold send
    have hrows : buffer ++ (record :: records).map s.toRow =
        buffer ++ [s.toRow record] ++ records.map s.toRow := by simp
    rw [hrows]
    by_cases hfull : (buffer ++ [s.toRow record]).length = e.batchSize
    · simp only [hfull, beq_self_eq_true, if_true]
      rw [chunks_full e.batchSize_pos hfull]
      exact (makes_track t (fun _ => .write (buffer ++ [s.toRow record])) _).bind
        fun t => send_makes e records [] t e.batchSize_pos
    · simp only [beq_eq_false_iff_ne.mpr hfull, Bool.false_eq_true, if_false]
      refine send_makes e records (buffer ++ [s.toRow record]) t ?_
      rw [List.length_append, List.length_singleton] at hfull ⊢
      omega

/-- The calls of a bulk write on a connection with some dialect. -/
def writeCalls (e : Engine) (d : Dialect) (s : Schema) (records : List s.Record) : List Asked :=
  .execute (d.compile (.createTable (s.createTable true))) :: .startWrite s.write ::
    ((chunks e.batchSize (records.map s.toRow)).map .write ++ [.endWrite])

/-- **The calls of a bulk write.** Whatever connection it is and whichever of its calls fail, a bulk
write makes these calls in order up to the first that fails, whose error is its own: it makes the
table unless it is there, begins the bulk write, sends each piece and ends the bulk write. Inserting
the records makes one call for each of the same pieces. The pieces are the rows of the records in
order; all but the last have as many rows as the batch size says, and the last one has at least one
row and at most as many. -/
theorem write_makes (e : Engine) (s : Schema) (records : List s.Record) (t : Tracked σ) :
    let pieces := chunks e.batchSize (records.map s.toRow)
    Makes t (e.writeCalls (Connection.dialect t.inner) s records) (e.write s records)
        (e.write s records) ∧
      Makes t (pieces.map (.insert (s.insert false))) (e.insert s records) (e.insert s records) ∧
      pieces.flatten = records.map s.toRow ∧
      (∀ piece ∈ pieces.dropLast, piece.length = e.batchSize) ∧
      ∀ piece ∈ pieces, 1 ≤ piece.length ∧ piece.length ≤ e.batchSize := by
  intro pieces
  have hwrite : Makes t (e.writeCalls (Connection.dialect t.inner) s records) (e.write s records)
      (e.write s records) := by
    refine (makes_track t
      (fun c => .execute ((Connection.dialect c).compile (.createTable (s.createTable true))))
      _).bind fun t => ?_
    refine (makes_track t (fun _ => .startWrite s.write) _).bind fun t => ?_
    exact (e.send_makes records [] t e.batchSize_pos).bind fun t =>
      makes_track t (fun _ => .endWrite) _
  exact ⟨hwrite, e.insertWith_makes _ _ t, chunks_flatten _ _,
    chunks_dropLast e.batchSize_pos _, chunks_bounds e.batchSize_pos _⟩

end Engine

end SqlRecords
