import SqlRecords.Field.Scalar
import SqlRecords.Proofs.Sqlite.Intake

/-!
# Rows are sent up to the first bad one

A row can be bad in three ways, which are looked for in this order: it does not have a cell for each
column, it has a number without a sign that does not fit in one with (`Overflows`), or the database
refuses it. `Rejects` says which of them it is, and with which error. `Executes` is what happens to
rows that are not bad: each of them is executed where the one before it left the database.

Nothing is known of the database. It was given a text to prepare and may do anything with a row.

## What is proved

* `SqliteConnection.checkRange_of_firstOverflow`, `SqliteConnection.checkRow_of_passes`: what the
  check of a row finds.
* `SqliteConnection.executes_or_badAt`: all rows are executed, or there is a first bad one.
* `SqliteConnection.Executes.sendRows`, `SqliteConnection.BadAt.sendRows`: what comes of sending
  them.
* `SqliteConnection.insertRows_eq_ok_iff`, `SqliteConnection.insertRows_eq_error_iff`: how inserts
  end.
* **`SqliteConnection.insertRows_stops`**: rows are executed up to the first bad one, whose error is
  given with its number.
-/

namespace SqlRecords

open Sqlite

namespace SqliteConnection

variable {δ : Type}

/-! ### Numbers that do not fit -/

/-- A whole number is read from a cell if its text can be read. -/
theorem exists_fromCell_int {w : IntSize} {text : String} :
    (∃ n, (Field.int w).fromCell (some text) = .ok n) ↔
      (Text.readInteger w.low w.high text.toList).toOption.isSome = true := by
  simp only [Field.int, Field.ofText, IntSize.read]
  constructor
  · rintro ⟨n, hn⟩
    split at hn
    · next hread => rw [hread]; rfl
    · cases hn
  · intro hread
    split
    · exact ⟨_, rfl⟩
    · next hfault => rw [hfault] at hread; cases hread

/-- The cell of a column of numbers without a sign reads as one of them, but not as one with. -/
def Overflows (c : Column) (cell : Cell) : Prop :=
  c.type.kind = .uint64 ∧ (∃ n, (Field.int .uint64).fromCell cell = .ok n) ∧
    ¬∃ n, (Field.int .int64).fromCell cell = .ok n

/-- NULL is no number. -/
theorem not_overflows_null (c : Column) : ¬Overflows c none := fun ⟨_, ⟨_, h⟩, _⟩ => nomatch h

theorem overflows_some_iff {c : Column} {text : String} :
    Overflows c (some text) ↔ (c.type.kind == .uint64 && exceedsSigned text) = true := by
  have hlow : IntSize.uint64.low = 0 := rfl
  have hhigh : IntSize.uint64.high = UInt64.size - 1 := rfl
  have hlow' : IntSize.int64.low = Int64.minValue.toInt := rfl
  have hhigh' : IntSize.int64.high = Int64.maxValue.toInt := rfl
  rw [Overflows, exists_fromCell_int, exists_fromCell_int, hlow, hhigh, hlow', hhigh',
    exceedsSigned, Bool.and_eq_true, Bool.and_eq_true, beq_iff_eq, Bool.not_eq_true',
    Bool.not_eq_true, and_comm (b := _ = false)]

instance decidableOverflows (c : Column) : ∀ cell : Cell, Decidable (Overflows c cell)
  | none => isFalse (not_overflows_null c)
  | some _ => decidable_of_iff _ overflows_some_iff.symm

/-- A cell is the first of a row that does not fit in its column. -/
def FirstOverflow (columns : List Column) (row : Row) (c : Column) (text : String) : Prop :=
  ∃ before after, columns.zip row = before ++ (c, some text) :: after ∧
    Overflows c (some text) ∧ ∀ p ∈ before, ¬Overflows p.1 p.2

/-- The check goes on behind a cell that fits, -/
theorem checkRange_of_not_overflows {c : Column} {cell : Cell} (h : ¬Overflows c cell)
    (columns : List Column) (row : Row) :
    checkRange (c :: columns) (cell :: row) = checkRange columns row := by
  cases cell with
  | none => rfl
  | some text => exact if_neg (mt overflows_some_iff.mpr h)

/-- and stops at one that does not. -/
theorem checkRange_of_overflows {c : Column} {text : String} (h : Overflows c (some text))
    (columns : List Column) (row : Row) :
    checkRange (c :: columns) (some text :: row) = .error (outOfRange c.name text) :=
  if_pos (overflows_some_iff.mp h)

theorem checkRange_of_fits : ∀ {columns : List Column} {row : Row},
    (∀ p ∈ columns.zip row, ¬Overflows p.1 p.2) → checkRange columns row = .ok ()
  | [], _, _ | _ :: _, [], _ => by simp [checkRange]
  | c :: columns, cell :: row, h => by
    rw [List.zip_cons_cons, List.forall_mem_cons] at h
    rw [checkRange_of_not_overflows h.1, checkRange_of_fits h.2]

theorem checkRange_of_firstOverflow {c : Column} {text : String} :
    ∀ {columns : List Column} {row : Row}, FirstOverflow columns row c text →
      checkRange columns row = .error (outOfRange c.name text)
  | [], _, ⟨_, _, hsplit, _⟩ => by simp at hsplit
  | _ :: _, [], ⟨_, _, hsplit, _⟩ => by simp at hsplit
  | d :: columns, cell :: row, ⟨before, after, hsplit, hoverflows, hbefore⟩ => by
    rw [List.zip_cons_cons] at hsplit
    cases before with
    | nil =>
      obtain ⟨⟨⟩, -⟩ := List.cons.inj hsplit
      exact checkRange_of_overflows hoverflows columns row
    | cons p before =>
      obtain ⟨rfl, hrest⟩ := List.cons.inj hsplit
      rw [List.forall_mem_cons] at hbefore
      rw [checkRange_of_not_overflows hbefore.1]
      exact checkRange_of_firstOverflow ⟨before, after, hrest, hoverflows, hbefore.2⟩

/-- All numbers of a row fit, or there is a first that does not. -/
theorem fits_or_firstOverflow (columns : List Column) (row : Row) :
    (∀ p ∈ columns.zip row, ¬Overflows p.1 p.2) ∨ ∃ c text, FirstOverflow columns row c text := by
  cases hfind : (columns.zip row).find? fun p => decide (Overflows p.1 p.2) with
  | none =>
    rw [List.find?_eq_none] at hfind
    exact .inl fun p hp => by simpa using hfind p hp
  | some p =>
    obtain ⟨hp, before, after, hsplit, hbefore⟩ := List.find?_eq_some_iff_append.mp hfind
    obtain ⟨c, cell⟩ := p
    cases cell with
    | none => exact absurd (of_decide_eq_true hp) (not_overflows_null c)
    | some text =>
      exact .inr ⟨c, text, before, after, hsplit, of_decide_eq_true hp, fun q hq => by
        simpa using hbefore q hq⟩

/-! ### Single rows -/

/-- A row passes the checks that are made before it is sent. -/
structure Passes (columns : List Column) (row : Row) : Prop where
  /-- There is a cell for each column. -/
  width : row.length = columns.length
  /-- Its numbers fit. -/
  fits : ∀ p ∈ columns.zip row, ¬Overflows p.1 p.2

instance (columns : List Column) (row : Row) : Decidable (Passes columns row) :=
  decidable_of_iff (row.length = columns.length ∧ ∀ p ∈ columns.zip row, ¬Overflows p.1 p.2)
    ⟨fun h => ⟨h.1, h.2⟩, fun h => ⟨h.width, h.fits⟩⟩

/-- A row with a number that does not fit does not pass. -/
theorem FirstOverflow.not_passes {columns : List Column} {row : Row} {c : Column} {text : String}
    (h : FirstOverflow columns row c text) : ¬Passes columns row := by
  obtain ⟨before, after, hsplit, hoverflows, -⟩ := h
  intro hpasses
  have hmem : (c, some text) ∈ columns.zip row := by simp [hsplit]
  exact hpasses.fits _ hmem hoverflows

theorem checkRow_of_passes {columns : List Column} {row : Row} (h : Passes columns row) :
    checkRow columns row = .ok () := by
  rw [checkRow, if_pos h.width, checkRange_of_fits h.fits]

variable [Database δ]

/-- What is wrong with a row: the error, and the database behind it. A row that does not pass the
checks does not get to the database. -/
inductive Rejects (i : Insert) (row : Row) (d : δ) : Error → δ → Prop where
  /-- It has a cell too many or too few. -/
  | width : row.length ≠ i.columns.length →
      Rejects i row d (wrongWidth i.columns.length row.length) d
  /-- It has a number that does not fit. -/
  | overflow {c : Column} {text : String} : row.length = i.columns.length →
      FirstOverflow i.columns row c text → Rejects i row d (outOfRange c.name text) d
  /-- The database refuses it. -/
  | refused {text : String} {d' : δ} : Passes i.columns row →
      Database.insertRow i row d = .error text d' → Rejects i row d (insertFault text) d'

/-- A row is executed, or something is wrong with it. -/
theorem executed_or_rejects (i : Insert) (row : Row) (d : δ) :
    (Passes i.columns row ∧ ∃ d', Database.insertRow i row d = .ok () d') ∨
      ∃ fault d', Rejects i row d fault d' := by
  by_cases hwidth : row.length = i.columns.length
  · rcases fits_or_firstOverflow i.columns row with hfits | ⟨c, text, hfirst⟩
    · have hpasses : Passes i.columns row := ⟨hwidth, hfits⟩
      cases hrun : Database.insertRow i row d with
      | ok x d' => exact .inl ⟨hpasses, d', rfl⟩
      | error text d' => exact .inr ⟨_, _, .refused hpasses hrun⟩
    · exact .inr ⟨_, _, .overflow hwidth hfirst⟩
  · exact .inr ⟨_, _, .width hwidth⟩

variable {i : Insert} {row : Row} {c : SqliteConnection δ} {d : δ}

/-- A row that passes the checks is executed, and the others follow. -/
theorem sendRows_of_passes (h : Passes i.columns row)
    (hrun : Database.insertRow i row c.database = .ok () d) (n : Nat) (rest : List Row) :
    sendRows i n (row :: rest) c = sendRows i (n + 1) rest { c with database := d } := by
  rw [sendRows]
  simp only [bind, EStateM.bind, checkRow_of_passes h, Except.mapError, Action.ofResult, onDatabase,
    hrun]

/-- Nothing is sent behind a bad row. -/
theorem sendRows_of_rejects {fault : Error} (h : Rejects i row c.database fault d) (n : Nat)
    (rest : List Row) :
    sendRows i n (row :: rest) c = .error (inRow n fault) { c with database := d } := by
  rw [sendRows]
  cases h with
  | width hwidth =>
    simp only [bind, EStateM.bind, checkRow, if_neg hwidth, Except.mapError, Action.ofResult]
  | overflow hwidth hfirst =>
    simp only [bind, EStateM.bind, checkRow, if_pos hwidth, checkRange_of_firstOverflow hfirst,
      Except.mapError, Action.ofResult]
  | refused hpasses hrun =>
    simp only [bind, EStateM.bind, checkRow_of_passes hpasses, Except.mapError, Action.ofResult,
      onDatabase, hrun]

/-! ### Errors -/

/-- An error says which row is bad, and in which way. -/
structure Reports (columns : List Column) (row : Row) (k : Nat) (e : Error) : Prop where
  /-- The number of the row. -/
  place : e.field? "row" = some (toString k)
  /-- The row does not have a cell for each column. -/
  width : e.kind = .protocol ↔ row.length ≠ columns.length
  /-- It has, and there is a first number among them that does not fit: its column and its text. -/
  overflow : e.kind = .marshal ↔ row.length = columns.length ∧ ∃ c text,
    FirstOverflow columns row c text ∧ e.field? "field" = some c.name ∧
      e.field? "value" = some text
  /-- Nothing was found before it was sent. -/
  refused : e.kind = .driver ↔ Passes columns row

/-- The error of a row, with its number, says what is wrong with it. -/
theorem Rejects.reports {fault : Error} {d' : δ} (h : Rejects i row d fault d') (k : Nat) :
    Reports i.columns row k (inRow k fault) := by
  cases h with
  | width hwidth =>
    exact ⟨rfl, iff_of_true rfl hwidth, iff_of_false nofun fun h => hwidth h.1,
      iff_of_false nofun fun h => hwidth h.width⟩
  | @overflow c text hwidth hfirst =>
    exact ⟨rfl, iff_of_false nofun fun h => h hwidth,
      iff_of_true rfl ⟨hwidth, c, text, hfirst, rfl, rfl⟩, iff_of_false nofun hfirst.not_passes⟩
  | refused hpasses hrun =>
    exact ⟨rfl, iff_of_false nofun fun h => h hpasses.width,
      iff_of_false nofun fun ⟨_, _, _, hfirst, _⟩ => hfirst.not_passes hpasses,
      iff_of_true rfl hpasses⟩

/-! ### Rows in order -/

/-- Rows are executed one after the other; none of them is bad. -/
inductive Executes (i : Insert) : List Row → δ → δ → Prop where
  | nil (d : δ) : Executes i [] d d
  | cons {row : Row} {rest : List Row} {d mid d' : δ} : Passes i.columns row →
      Database.insertRow i row d = .ok () mid → Executes i rest mid d' →
      Executes i (row :: rest) d d'

/-- The row at a place is bad, and those before it are executed. -/
def BadAt (i : Insert) (rows : List Row) (d : δ) (k : Nat) (fault : Error) (d' : δ) : Prop :=
  ∃ row mid, rows[k]? = some row ∧ Executes i (rows.take k) d mid ∧ Rejects i row mid fault d'

/-- **All rows are executed, or there is a first bad one.** -/
theorem executes_or_badAt (i : Insert) (rows : List Row) (d : δ) :
    (∃ d', Executes i rows d d') ∨ ∃ k fault d', BadAt i rows d k fault d' := by
  induction rows generalizing d with
  | nil => exact .inl ⟨d, .nil d⟩
  | cons row rest ih =>
    rcases executed_or_rejects i row d with ⟨hpasses, mid, hrun⟩ | ⟨fault, d', hbad⟩
    · rcases ih mid with ⟨d', hrest⟩ | ⟨k, fault, d', row', mid', hrow, hbefore, hbad⟩
      · exact .inl ⟨d', .cons hpasses hrun hrest⟩
      · exact .inr ⟨k + 1, fault, d', row', mid', hrow, .cons hpasses hrun hbefore, hbad⟩
    · exact .inr ⟨0, fault, d', row, d, rfl, .nil d, hbad⟩

/-- Rows of which none is bad are all sent. -/
theorem Executes.sendRows {rows : List Row} (h : Executes i rows c.database d) (n : Nat) :
    SqliteConnection.sendRows i n rows c = .ok () { c with database := d } := by
  induction rows generalizing c n with
  | nil =>
    cases h
    rfl
  | cons row rest ih =>
    cases h with
    | cons hpasses hrun hrest => rw [sendRows_of_passes hpasses hrun, ih hrest]

/-- Rows are sent up to the first bad one. -/
theorem BadAt.sendRows {rows : List Row} {k : Nat} {fault : Error}
    (h : BadAt i rows c.database k fault d) (n : Nat) :
    SqliteConnection.sendRows i n rows c =
      .error (inRow (n + k) fault) { c with database := d } := by
  obtain ⟨bad, mid, hbad, hbefore, hrejects⟩ := h
  induction rows generalizing c n k with
  | nil => cases hbad
  | cons row rest ih =>
    cases k with
    | zero =>
      cases hbad
      cases hbefore
      exact sendRows_of_rejects hrejects n rest
    | succ k =>
      cases hbefore with
      | cons hpasses hrun hrest =>
        rw [sendRows_of_passes hpasses hrun,
          ih (c := { c with database := _ }) (n + 1) hbad hrest, Nat.add_right_comm, Nat.add_assoc]

/-- Later rows do not matter. -/
theorem BadAt.congr {rows rows' : List Row} {k : Nat} {fault : Error} {d' : δ}
    (h : BadAt i rows d k fault d') (hsame : rows'.take (k + 1) = rows.take (k + 1)) :
    BadAt i rows' d k fault d' := by
  obtain ⟨bad, mid, hbad, hbefore, hrejects⟩ := h
  have htake : rows'.take k = rows.take k := by
    simpa [List.take_take] using congrArg (List.take k) hsame
  have hget : rows'[k]? = rows[k]? := by
    simpa [List.getElem?_take] using congrArg (·[k]?) hsame
  exact ⟨bad, mid, hget.trans hbad, htake ▸ hbefore, hrejects⟩

/-! ### Inserts -/

/-- Rows that the database refuses change nothing in it. -/
def RefusesCleanly (δ : Type) [Database δ] (i : Insert) : Prop :=
  ∀ (row : Row) (d d' : δ) (text : String),
    Database.insertRow i row d = .error text d' → d' = d

/-- A database in memory does. -/
theorem refusesCleanly_store (i : Insert) : RefusesCleanly Store i := by
  intro row d d' text h
  simp only [Database.insertRow, Store.step] at h
  split at h
  · cases h
  · cases h
    rfl

theorem Rejects.unchanged {fault : Error} {d' : δ} (h : Rejects i row d fault d')
    (hclean : RefusesCleanly δ i) : d' = d := by
  cases h with
  | width | overflow => rfl
  | refused _ hrun => exact hclean _ _ _ _ hrun

variable {c₀ : SqliteConnection δ} {rows : List Row} (hprepared : prepareInsert i c = .ok () c₀)

include hprepared

/-- Rows of which none is bad are all inserted. -/
theorem insertRows_of_executes (h : Executes i rows c₀.database d) :
    insertRows i rows c = .ok () { c₀ with database := d } := by
  simp only [insertRows, bind, EStateM.bind, hprepared, h.sendRows 0]

/-- Rows are inserted up to the first bad one. -/
theorem insertRows_of_badAt {k : Nat} {fault : Error} (h : BadAt i rows c₀.database k fault d) :
    insertRows i rows c = .error (inRow k fault) { c₀ with database := d } := by
  simp only [insertRows, bind, EStateM.bind, hprepared, h.sendRows 0, Nat.zero_add]

theorem insertRows_eq_ok_iff {c' : SqliteConnection δ} : insertRows i rows c = .ok () c' ↔
    ∃ d, Executes i rows c₀.database d ∧ c' = { c₀ with database := d } := by
  refine ⟨fun h => ?_, ?_⟩
  · rcases executes_or_badAt i rows c₀.database with ⟨d, hexecutes⟩ | ⟨k, fault, d, hbad⟩
    · rw [insertRows_of_executes hprepared hexecutes] at h
      cases h
      exact ⟨d, hexecutes, rfl⟩
    · rw [insertRows_of_badAt hprepared hbad] at h
      cases h
  · rintro ⟨d, hexecutes, rfl⟩
    exact insertRows_of_executes hprepared hexecutes

theorem insertRows_eq_error_iff {e : Error} {c' : SqliteConnection δ} :
    insertRows i rows c = .error e c' ↔
      ∃ k fault d, BadAt i rows c₀.database k fault d ∧ e = inRow k fault ∧
        c' = { c₀ with database := d } := by
  refine ⟨fun h => ?_, ?_⟩
  · rcases executes_or_badAt i rows c₀.database with ⟨d, hexecutes⟩ | ⟨k, fault, d, hbad⟩
    · rw [insertRows_of_executes hprepared hexecutes] at h
      cases h
    · rw [insertRows_of_badAt hprepared hbad] at h
      cases h
      exact ⟨k, fault, d, hbad, rfl, rfl⟩
  · rintro ⟨k, fault, d, hbad, rfl, rfl⟩
    exact insertRows_of_badAt hprepared hbad

/-- An insert succeeds if and only if no row is bad. -/
theorem exists_insertRows_iff : (∃ c', insertRows i rows c = .ok () c') ↔
    ¬∃ k fault d, BadAt i rows c₀.database k fault d := by
  refine ⟨?_, fun h => ?_⟩
  · rintro ⟨c', h⟩ ⟨k, fault, d, hbad⟩
    rw [insertRows_of_badAt hprepared hbad] at h
    cases h
  · obtain ⟨d, hexecutes⟩ := (executes_or_badAt i rows c₀.database).resolve_right h
    exact ⟨_, insertRows_of_executes hprepared hexecutes⟩

/-- Nothing behind the first bad row matters. -/
theorem insertRows_of_take {k : Nat} {fault : Error} (h : BadAt i rows c₀.database k fault d)
    (later : List Row) : insertRows i (rows.take (k + 1) ++ later) c = insertRows i rows c := by
  obtain ⟨row, -, hrow, -⟩ := id h
  have hlt : k < rows.length := (List.getElem?_eq_some_iff.mp hrow).1
  have hsame : (rows.take (k + 1) ++ later).take (k + 1) = rows.take (k + 1) :=
    List.take_left' (List.length_take_of_le hlt)
  rw [insertRows_of_badAt hprepared h, insertRows_of_badAt hprepared (h.congr hsame)]

omit hprepared

/-- **Rows are inserted up to the first bad one.** If the INSERT can be prepared, whatever the
database then makes of the rows: an insert succeeds if and only if no row is bad, and executes all
of them. If a row is bad, it executes those before the first bad one, and fails with what is wrong
with that row, and its number. Later rows do not matter. If rows that are refused change nothing in
the database, only the rows before the bad one have. -/
theorem insertRows_stops {c₀ : SqliteConnection δ} (hprepared : prepareInsert i c = .ok () c₀)
    (rows : List Row) :
    (∀ c', insertRows i rows c = .ok () c' ↔
      ∃ d, Executes i rows c₀.database d ∧ c' = { c₀ with database := d }) ∧
    (∀ e c', insertRows i rows c = .error e c' ↔
      ∃ k fault d, BadAt i rows c₀.database k fault d ∧ e = inRow k fault ∧
        c' = { c₀ with database := d }) ∧
    ((∃ c', insertRows i rows c = .ok () c') ↔ ¬∃ k fault d, BadAt i rows c₀.database k fault d) ∧
    ∀ k fault d, BadAt i rows c₀.database k fault d →
      (∃ row, rows[k]? = some row ∧ Reports i.columns row k (inRow k fault)) ∧
      (∀ later, insertRows i (rows.take (k + 1) ++ later) c = insertRows i rows c) ∧
      (RefusesCleanly δ i → Executes i (rows.take k) c₀.database d) := by
  refine ⟨fun _ => insertRows_eq_ok_iff hprepared, fun _ _ => insertRows_eq_error_iff hprepared,
    exists_insertRows_iff hprepared, fun k fault d hbad => ?_⟩
  obtain ⟨row, mid, hrow, hbefore, hrejects⟩ := id hbad
  refine ⟨⟨row, hrow, hrejects.reports k⟩, insertRows_of_take hprepared hbad, fun hclean => ?_⟩
  rw [hrejects.unchanged hclean]
  exact hbefore

/-- The second row has a number that does not fit, the third a cell too few. -/
theorem insertRows_stops_unsigned :
    let rule : TableRule := ⟨"t", [⟨"a", .integer, true⟩, ⟨"b", .text, false⟩], none, false, [], []⟩
    let i : Insert := ⟨.named "t", [.define "a" (.ofKind .uint64), .define "b" (.ofKind .text)],
      false, []⟩
    let c : SqliteConnection Store := .ofDatabase ⟨[⟨rule, [], 0⟩], none⟩
    let one : Store := ⟨[⟨rule, [⟨1, [.integer 9223372036854775807, .text "x"]⟩], 1⟩], none⟩
    let rows : List Row := [[some "9223372036854775807", some "x"],
      [some "9223372036854775808", none], [some "3"]]
    ∃ c₀, prepareInsert i c = .ok () c₀ ∧
      insertRows i rows c =
        .error (inRow 1 (outOfRange "a" "9223372036854775808")) { c₀ with database := one } := by
  intro rule i c one rows
  have hprepare : (c.database.tables.prepare i).isOk = true := by decide +kernel
  obtain ⟨⟨⟩, c₀, hprepared, hdatabase⟩ :=
    ((prepareInsert_ensures i c).mono (fun _ _ h => h) fun _ _ ⟨_, text, htext⟩ => by
      rw [htext] at hprepare
      cases hprepare).exists_ok
  have hinsert : Store.changing (fun ts => ts.insertRow i
      ([some "9223372036854775807", some "x"].map .ofCell)) c.database = .ok one := by
    decide +kernel
  have hexecuted : Executes i (rows.take 1) c₀.database one := by
    rw [hdatabase]
    refine .cons (by decide +kernel) ?_ (.nil one)
    simp only [Database.insertRow, Store.step, hinsert]
  have hfirst : FirstOverflow i.columns [some "9223372036854775808", none]
      (.define "a" (.ofKind .uint64)) "9223372036854775808" :=
    ⟨[], [(.define "b" (.ofKind .text), none)], rfl, by decide +kernel,
      List.forall_mem_nil _⟩
  have hrejects := Rejects.overflow (d := one) rfl hfirst
  exact ⟨c₀, hprepared, ((insertRows_stops hprepared rows).2.1 _ _).mpr
    ⟨1, _, one, ⟨_, one, rfl, hexecuted, hrejects⟩, rfl, rfl⟩⟩

end SqliteConnection

end SqlRecords
