import SqlRecords.Proofs.Connection.Ensures
import SqlRecords.Proofs.Result
import SqlRecords.Sqlite.Connection

/-!
# Calls of a connection and their database

What a step of the database ensures is what the call ensures that sends it. Sending
rows and preparing statements leaves the bulk write in progress alone, and what they
keep of the database is what its steps keep.
-/

namespace SqlRecords

open Sqlite

namespace SqliteConnection

variable {δ α β : Type} {c d : SqliteConnection δ}

/-- A call that is a step of the database. -/
@[simp] theorem ensures_onDatabase (fault : String → Error) (step : Step δ α)
    {ok : α → SqliteConnection δ → Prop} {error : Error → SqliteConnection δ → Prop} :
    Ensures (onDatabase fault step) c ok error ↔
      Ensures step c.database (fun x database => ok x { c with database })
        (fun text database => error (fault text) { c with database }) := by
  simp only [Ensures, onDatabase]
  cases step c.database <;> rfl

/-! ### What calls leave alone -/

/-- A call changed neither the bulk write in progress nor what is seen of the database. -/
structure SameView (view : δ → β) (c d : SqliteConnection δ) : Prop where
  /-- The bulk write in progress is the same. -/
  writing : d.writing = c.writing
  /-- The database looks the same. -/
  viewed : view d.database = view c.database

namespace SameView

variable {view : δ → β}

theorem refl (c : SqliteConnection δ) : SameView view c c := ⟨rfl, rfl⟩

theorem trans {e : SqliteConnection δ} (h : SameView view c d) (h' : SameView view d e) :
    SameView view c e :=
  ⟨h'.writing.trans h.writing, h'.viewed.trans h.viewed⟩

end SameView

/-- A step of the database leaves a view of it alone, whether it succeeds or not. -/
def Leaves (view : δ → β) (step : Step δ α) : Prop :=
  ∀ d, Ensures step d (fun _ d' => view d' = view d) (fun _ d' => view d' = view d)

variable {view : δ → β}

/-- A step that leaves a view alone leaves all that can be told from it alone. -/
theorem Leaves.map {γ : Type} {step : Step δ α} (h : Leaves view step) (f : β → γ) :
    Leaves (fun d => f (view d)) step := fun d =>
  (h d).mono (fun _ _ hd => congrArg f hd) (fun _ _ hd => congrArg f hd)

/-- A call that leaves a view alone leaves the connection looking the same. -/
theorem ensures_sameView {fault : String → Error} {step : Step δ α} (h : Leaves view step)
    (c : SqliteConnection δ) :
    Ensures (onDatabase fault step) c (fun _ d => SameView view c d) (fun _ d => SameView view c d) :=
  (ensures_onDatabase _ _).mpr
    ((h c.database).mono (fun _ _ hv => ⟨rfl, hv⟩) (fun _ _ hv => ⟨rfl, hv⟩))

variable [Database δ]

theorem prepareInsert_sameView {i : Insert} (h : Leaves view (Database.prepare (δ := δ) i))
    (c : SqliteConnection δ) :
    Ensures (prepareInsert i) c (fun _ d => SameView view c d) (fun _ d => SameView view c d) := by
  unfold prepareInsert
  simp only [ensures_bind, ensures_get]
  split
  · exact ⟨rfl, rfl⟩
  · refine (ensures_bind _ _).mpr ((ensures_sameView h c).mono (fun _ d hd => ?_) fun _ _ hd => hd)
    exact ⟨hd.writing, hd.viewed⟩

theorem sendRows_sameView {i : Insert} (h : ∀ row, Leaves view (Database.insertRow (δ := δ) i row)) :
    ∀ (n : Nat) (rows : List Row) (c : SqliteConnection δ),
      Ensures (sendRows i n rows) c (fun _ d => SameView view c d) (fun _ d => SameView view c d)
  | _, [], c => .refl c
  | n, row :: rest, c => by
    unfold sendRows
    simp only [ensures_bind, ensures_ofResult]
    refine ⟨fun _ _ => ?_, fun _ _ => .refl c⟩
    refine (ensures_sameView (h row) c).mono (fun _ d hd => ?_) (fun _ _ hd => hd)
    exact (sendRows_sameView h (n + 1) rest d).mono (fun _ _ hd' => hd.trans hd')
      (fun _ _ hd' => hd.trans hd')

theorem insertRows_sameView {i : Insert} (hp : Leaves view (Database.prepare (δ := δ) i))
    (hr : ∀ row, Leaves view (Database.insertRow (δ := δ) i row)) (rows : List Row)
    (c : SqliteConnection δ) :
    Ensures (insertRows i rows) c (fun _ d => SameView view c d) (fun _ d => SameView view c d) := by
  unfold insertRows
  refine (ensures_bind _ _).mpr
    ((prepareInsert_sameView hp c).mono (fun _ d hd => ?_) (fun _ _ hd => hd))
  exact (sendRows_sameView hr 0 rows d).mono (fun _ _ hd' => hd.trans hd')
    (fun _ _ hd' => hd.trans hd')

end SqliteConnection

/-! ### Databases in memory -/

namespace Sqlite.Store

open SqliteConnection

/-- A step that changes nothing if it fails. -/
theorem ensures_step {f : Store → Except String Store} {s : Store} {ok : Unit → Store → Prop}
    {error : String → Store → Prop} :
    Ensures (step f) s ok error ↔
      (∀ d, f s = .ok d → ok () d) ∧ ∀ text, f s = .error text → error text s := by
  simp only [Ensures, step]
  cases f s <;> simp

/-- A call that is a step of which the outcome is known. -/
theorem ensures_onDatabase_ok {fault : String → Error} {f : Store → Except String Store}
    {c : SqliteConnection Store} {d : Store} (hf : f c.database = .ok d)
    {ok : Unit → SqliteConnection Store → Prop} {error : Error → SqliteConnection Store → Prop}
    (h : ok () { c with database := d }) : Ensures (onDatabase fault (step f)) c ok error := by
  simp only [Ensures, onDatabase, step, hf]
  exact h

/-- What a database in memory changes are its tables. -/
theorem changing_ok {f : Tables → Except String Tables} {d d' : Store}
    (h : changing f d = .ok d') : d'.saved = d.saved ∧ f d.tables = .ok d'.tables := by
  obtain ⟨ts, hts, rfl⟩ := Except.map_eq_ok_iff.mp h
  exact ⟨rfl, hts⟩

theorem changing_error {f : Tables → Except String Tables} {d : Store} {text : String}
    (h : changing f d = .error text) : f d.tables = .error text := by
  unfold changing at h
  cases hf : f d.tables with
  | ok ts =>
    rw [hf] at h
    cases h
  | error text' =>
    rw [hf] at h
    cases h
    rfl

/-- A statement leaves the tables alone that a rollback leads back to. -/
theorem changing_leaves_saved (f : Tables → Except String Tables) :
    Leaves Store.saved (step (changing f)) := fun _ =>
  ensures_step.mpr ⟨fun _ h => (changing_ok h).1, fun _ _ => rfl⟩

/-- Preparing an INSERT changes nothing. -/
theorem prepare_leaves (i : Insert) : Leaves id (Database.prepare (δ := Store) i) := fun _ => by
  refine ensures_step.mpr ⟨fun d h => ?_, fun _ _ => rfl⟩
  obtain ⟨ts, hts, rfl⟩ := Except.map_eq_ok_iff.mp h
  obtain ⟨-, -, rfl⟩ := Except.map_eq_ok_iff.mp hts
  rfl

/-- A query changes nothing. -/
theorem query_leaves (q : Select) : Leaves id (Database.query (δ := Store) q) := fun s => by
  simp only [Ensures, Database.query]
  cases s.tables.query q <;> rfl

end Sqlite.Store

end SqlRecords
