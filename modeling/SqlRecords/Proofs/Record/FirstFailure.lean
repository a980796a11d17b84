import SqlRecords.Proofs.Record.Placement
import SqlRecords.Proofs.Result

/-!
# Records are read up to the first bad cell

A row is read by its fields from left to right. The reader hands each of them the next cell and
counts those that could read theirs. So the first field that cannot read its cell ends the reading,
and what was counted then is its place (`Values.read_of_failsAt`).

Its error is extended with its name and place. The fields themselves give errors about a cell that
do not have such details yet (`Error.OfCell`), whatever wrappers they are made with: so nothing
hides the details that are added.

## What is proved

* `FieldType.failsOfCell`: the errors of all field types are about cells.
* `Values.accepted_or_failsAt`: all fields can read their cells, or there is a first that cannot.
* `Values.read_of_failsAt`: then the reading ends with its error, and the reader stands behind its
  cell.
* **`Schema.fromRow_stops`**: which rows are read, as which record, and with which error the others
  are refused.
-/

namespace SqlRecords

/-! ### Errors and their places -/

namespace Error

/-- The details that say where in a row an error came up. -/
def placeKeys : List String := ["field", "position", "assigned"]

/-- An error about a cell. It does not say where in a row the cell is. -/
structure OfCell (e : Error) : Prop where
  kind : e.kind = .marshal
  unplaced : ∀ key ∈ placeKeys, e.field? key = none

/-- An error about a cell says which field of a row it came up in, and how many had been read. -/
structure Locates (e : Error) (name : String) (place : Nat) : Prop where
  kind : e.kind = .marshal
  field : e.field? "field" = some name
  position : e.field? "position" = some (toString place)
  assigned : e.field? "assigned" = some (toString place)

variable {e : Error}

/-- The first detail of a name counts. -/
theorem field?_withField (e : Error) (key value name : String) :
    (e.withField key value).field? name =
      (e.field? name).or (if name == key then some value else none) := by
  rw [field?, fields_withField, List.lookup_append, List.lookup_singleton, field?]

theorem ofCell_marshal (message : String) : (marshal message).OfCell := ⟨rfl, fun _ _ => rfl⟩

theorem OfCell.withField (h : e.OfCell) {key : String} (hkey : key ∉ placeKeys) (value : String) :
    (e.withField key value).OfCell := by
  refine ⟨h.kind, fun name hname => ?_⟩
  have hne : ¬(name == key) = true := fun heq => hkey (eq_of_beq heq ▸ hname)
  rw [field?_withField, h.unplaced name hname, if_neg hne, Option.or_none]

/-- The place that is added to an error about a cell is the one it says. -/
theorem OfCell.located (h : e.OfCell) (name : String) (place : Nat) :
    (RowReader.located e name place).Locates name place := by
  have hfield := h.unplaced "field" (by decide)
  have hposition := h.unplaced "position" (by decide)
  have hassigned := h.unplaced "assigned" (by decide)
  constructor <;>
    simp [RowReader.located, field?_withField, h.kind, hfield, hposition, hassigned]

end Error

/-! ### Errors of fields -/

namespace Field

open Error

variable {α : Type} {f : Field α}

/-- The errors of a field are about cells. -/
def FailsOfCell (f : Field α) : Prop := ∀ cell e, f.fromCell cell = .error e → OfCell e

theorem ofCell_unreadableText (what text : String) : (unreadableText what text).OfCell :=
  (ofCell_marshal _).withField (by decide) _

theorem ofCell_unreadable (what text reason : String) : (unreadable what text reason).OfCell :=
  (ofCell_unreadableText what text).withField (by decide) _

theorem ofCell_tooLong (max : UInt32) (s : String) : (tooLong max s).OfCell :=
  ((ofCell_marshal _).withField (by decide) _).withField (by decide) _

namespace FailsOfCell

variable {kind : Kind} {write : α → String}

/-- A field of texts fails with such errors if its texts are read with them. -/
theorem ofText {read : String → Result α} (h : ∀ text e, read text = .error e → OfCell e) :
    (Field.ofText kind read write).FailsOfCell
  | some text, e, hread => h text e hread
  | none, _, rfl => ofCell_marshal _

/-- The reason why a text cannot be read becomes such an error. -/
theorem ofText_mapError {ε : Type} {read : String → Except ε α} {fault : String → ε → Error}
    (h : ∀ text x, OfCell (fault text x)) :
    (Field.ofText kind (fun text => (read text).mapError (fault text)) write).FailsOfCell :=
  .ofText fun text _ hread => by
    obtain ⟨x, -, rfl⟩ := Except.mapError_eq_error_iff.mp hread
    exact h text x

/-- The wrappers that add a value for NULL keep the errors. -/
theorem optional (h : f.FailsOfCell) : f.optional.FailsOfCell
  | some text, e, hread => h (some text) e (Except.map_eq_error_iff.mp hread)
  | none, _, hread => nomatch hread

theorem numbered (h : f.FailsOfCell) : f.numbered.FailsOfCell := fun cell e hread =>
  h cell e (Except.map_eq_error_iff.mp hread)

end FailsOfCell

end Field

/-- However wrappers are nested, the errors of a field are about cells. -/
theorem FieldType.failsOfCell : ∀ t : FieldType, t.field.FailsOfCell
  | .int _ | .float32 | .float | .date => .ofText_mapError fun _ _ => Field.ofCell_unreadable _ _ _
  | .text => .ofText nofun
  | .varchar max => .ofText fun text e hread => by
    rw [Field.boundedText] at hread
    split at hread
    · cases hread
    · cases hread
      exact Field.ofCell_tooLong max text
  | .bool | .timestamp | .instant => .ofText fun text e hread => by
    split at hread
    · cases hread
    · cases hread
      exact Field.ofCell_unreadableText _ text
  | .document => .ofText fun text e hread => by
    split at hread
    · cases hread
    · cases hread
      exact Field.ofCell_unreadable _ text _
  | .optional t => t.failsOfCell.optional
  | .numbered t => t.failsOfCell.numbered
  | .primaryKey t | .unique t | .references t _ | .shared t => t.failsOfCell

/-! ### Reading a row -/

namespace RowReader

variable {α : Type} {f : Field α} {cell : Cell} {name : String} {rest : List Cell} {n : Nat}

/-- A field that can read its cell is counted, -/
theorem read_of_ok {a : α} (h : f.fromCell cell = .ok a) :
    (⟨cell :: rest, n⟩ : RowReader).read f name = (.ok a, ⟨rest, n + 1⟩) := by
  simp only [read, h]

/-- one that cannot is not. -/
theorem read_of_error {e : Error} (h : f.fromCell cell = .error e) :
    (⟨cell :: rest, n⟩ : RowReader).read f name = (.error (located e name n), ⟨rest, n⟩) := by
  simp only [read, h]

end RowReader

namespace Values

/-- What the field at a place reads, if there is a cell for it. -/
def readAt (fields : List NamedField) (cells : List Cell) (i : Fin fields.length) :
    Option (Result (fields.get i).Value) :=
  cells[i.val]?.map (fields.get i).field.fromCell

/-- The field at a place cannot read its cell, and it is the first. -/
structure FailsAt (fields : List NamedField) (cells : List Cell) (i : Fin fields.length)
    (fault : Error) : Prop where
  before : ∀ j < i, ∃ a, readAt fields cells j = some (.ok a)
  fails : readAt fields cells i = some (.error fault)

/-- All fields can read their cells, or there is a first that cannot. -/
theorem accepted_or_failsAt : ∀ {fields : List NamedField} {cells : List Cell},
    cells.length = fields.length →
      (∀ i, ∃ a, readAt fields cells i = some (.ok a)) ∨ ∃ i fault, FailsAt fields cells i fault
  | [], _, _ => .inl fun i => i.elim0
  | f :: fields, cell :: cells, hlength => by
    cases hread : f.field.fromCell cell with
    | error fault =>
      refine .inr ⟨⟨0, Nat.succ_pos _⟩, fault, fun j hj => absurd hj (Nat.not_lt_zero j.val), ?_⟩
      exact congrArg some hread
    | ok a =>
      have hfirst : ∃ a, readAt (f :: fields) (cell :: cells) ⟨0, Nat.succ_pos _⟩ = some (.ok a) :=
        ⟨a, congrArg some hread⟩
      -- The first field can read its cell, so the others decide.
      rcases accepted_or_failsAt (Nat.succ.inj hlength) with hall | ⟨i, fault, hbefore, hfails⟩
      · left
        rintro ⟨_ | i, hi⟩
        · exact hfirst
        · exact hall ⟨i, Nat.lt_of_succ_lt_succ hi⟩
      · refine .inr ⟨i.succ, fault, ?_, hfails⟩
        rintro ⟨_ | j, hj⟩ hji
        · exact hfirst
        · exact hbefore ⟨j, Nat.lt_of_succ_lt_succ hj⟩ (Nat.lt_of_succ_lt_succ hji)

/-- **The reading ends at the first field that cannot read its cell**: its place has been counted,
and the cells behind it are left. -/
theorem read_of_failsAt : ∀ {fields : List NamedField} {cells : List Cell} {n : Nat}
    {i : Fin fields.length} {fault : Error}, FailsAt fields cells i fault →
      read fields ⟨cells, n⟩ =
        (.error (RowReader.located fault (fields.get i).name (n + i)),
          ⟨cells.drop (i + 1), n + i⟩)
  | _ :: _, [], _, _, _, h => nomatch h.fails
  | f :: fields, cell :: cells, n, ⟨0, _⟩, fault, h => by
    have hread : f.field.fromCell cell = .error fault := Option.some.inj h.fails
    rw [read, RowReader.read_of_error hread]
    rfl
  | f :: fields, cell :: cells, n, ⟨i + 1, hi⟩, fault, h => by
    obtain ⟨a, ha⟩ := h.before ⟨0, Nat.succ_pos _⟩ (Nat.succ_pos i)
    have hread : f.field.fromCell cell = .ok a := Option.some.inj ha
    have hrest : FailsAt fields cells ⟨i, Nat.lt_of_succ_lt_succ hi⟩ fault :=
      ⟨fun j hj => h.before j.succ (Nat.succ_lt_succ hj), h.fails⟩
    rw [read, RowReader.read_of_ok hread]
    simp only [read_of_failsAt (n := n + 1) hrest, Nat.add_right_comm, Nat.add_assoc]
    rfl

/-- What a field reads does not depend on later cells. -/
theorem readAt_congr {fields : List NamedField} {cells cells' : List Cell} {k : Nat}
    (h : cells'.take k = cells.take k) {i : Fin fields.length} (hi : i.val < k) :
    readAt fields cells' i = readAt fields cells i := by
  have hcell : cells'[i.val]? = cells[i.val]? := by
    simpa [List.getElem?_take, hi] using congrArg (·[i.val]?) h
  rw [readAt, readAt, hcell]

/-- So later cells do not matter to the first field that fails. -/
theorem FailsAt.congr {fields : List NamedField} {cells cells' : List Cell}
    {i : Fin fields.length} {fault : Error} (h : FailsAt fields cells i fault)
    (hsame : cells'.take (i + 1) = cells.take (i + 1)) : FailsAt fields cells' i fault where
  before j hj := by
    rw [readAt_congr hsame (Nat.lt_succ_of_lt hj)]
    exact h.before j hj
  fails := by
    rw [readAt_congr hsame (Nat.lt_succ_self i)]
    exact h.fails

end Values

/-! ### Records -/

namespace Schema

variable {s : Schema} {row : Row}

/-- What the field at a place reads from a row. -/
abbrev readAt (s : Schema) (row : Row) (i : Fin s.fields.length) :
    Option (Result (s.fields.get i).Value) :=
  Values.readAt s.fields row i

/-- The first field of a record that cannot read its cell. -/
abbrev FailsAt (s : Schema) (row : Row) (i : Fin s.fields.length) (fault : Error) : Prop :=
  Values.FailsAt s.fields row i fault

/-- The fields of a record type that is declared fail with errors about cells. -/
theorem IsDeclared.ofCell (h : s.IsDeclared) {i : Fin s.fields.length} {fault : Error}
    (hfails : s.readAt row i = some (.error fault)) : fault.OfCell := by
  obtain ⟨fields, hs⟩ := h
  have hmem : s.fields.get i ∈ fields.map RecordType.named := hs ▸ List.get_mem s.fields i
  obtain ⟨g, -, hg⟩ := List.mem_map.mp hmem
  obtain ⟨cell, -, hread⟩ := Option.map_eq_some_iff.mp hfails
  have hfield : (s.fields.get i).field.FailsOfCell := hg ▸ g.2.failsOfCell
  exact hfield cell fault hread

theorem fromRow_of_width (h : row.length ≠ s.numColumns) :
    s.fromRow row = .error (RowReader.wrongWidth s.numColumns row.length) := by
  rw [fromRow, RowReader.ofRow, if_neg h]
  rfl

theorem fromRow_of_failsAt (hlength : row.length = s.numColumns) {i : Fin s.fields.length}
    {fault : Error} (h : s.FailsAt row i fault) :
    s.fromRow row = .error (RowReader.located fault (s.fields.get i).name i) := by
  rw [fromRow, RowReader.ofRow, if_pos hlength]
  change (Values.read s.fields ⟨row, 0⟩).1 = _
  rw [Values.read_of_failsAt h, Nat.zero_add]

/-- A row is read as the record of what its fields read. -/
theorem fromRow_of_accepted (hlength : row.length = s.numColumns)
    (h : ∀ i, ∃ a, s.readAt row i = some (.ok a)) :
    ∃ record, s.fromRow row = .ok record ∧ ∀ i, s.readAt row i = some (.ok (s.value record i)) := by
  have hcells : ∀ i : Fin s.fields.length, ∃ cell a, row[i.val]? = some cell ∧
      (s.fields.get i).field.fromCell cell = .ok a := fun i =>
    have ⟨a, ha⟩ := h i
    have ⟨cell, hcell, hread⟩ := Option.map_eq_some_iff.mp ha
    ⟨cell, a, hcell, hread⟩
  obtain ⟨record, hrow, hrecord⟩ := fromRow_ok hlength hcells
  refine ⟨record, hrow, fun i => ?_⟩
  obtain ⟨cell, a, hcell, -⟩ := hcells i
  rw [readAt, Values.readAt, hcell, Option.map_some, hrecord i cell hcell]

theorem exists_fromRow_iff : (∃ record, s.fromRow row = .ok record) ↔
    row.length = s.numColumns ∧ ∀ i, ∃ a, s.readAt row i = some (.ok a) := by
  refine ⟨fun ⟨record, hrow⟩ => ?_, fun ⟨hlength, hall⟩ => ?_⟩
  · by_cases hlength : row.length = s.numColumns
    · rcases Values.accepted_or_failsAt hlength with hall | ⟨i, fault, hfails⟩
      · exact ⟨hlength, hall⟩
      · rw [fromRow_of_failsAt hlength hfails] at hrow
        cases hrow
    · rw [fromRow_of_width hlength] at hrow
      cases hrow
  · obtain ⟨record, hrow, -⟩ := fromRow_of_accepted hlength hall
    exact ⟨record, hrow⟩

theorem fromRow_eq_ok_iff {record : s.Record} : s.fromRow row = .ok record ↔
    row.length = s.numColumns ∧ ∀ i, s.readAt row i = some (.ok (s.value record i)) := by
  refine ⟨fun hrow => ?_, fun ⟨hlength, hall⟩ => ?_⟩
  · obtain ⟨hlength, hall⟩ := exists_fromRow_iff.mp ⟨record, hrow⟩
    obtain ⟨record', hrow', hvalues⟩ := fromRow_of_accepted hlength hall
    obtain rfl : record = record' := Except.ok.inj (hrow.symm.trans hrow')
    exact ⟨hlength, hvalues⟩
  · obtain ⟨record', hrow, hvalues⟩ := fromRow_of_accepted hlength fun i => ⟨_, hall i⟩
    have hsame : record = record' := Values.ext fun i =>
      Except.ok.inj (Option.some.inj ((hall i).symm.trans (hvalues i)))
    rw [hrow, hsame]

/-- **A record is read up to the first bad cell.** A row is read if it has a cell for each column
and each field can read its cell, and the record has what they read as its values. A row of another
width is refused with the two widths. Else there is a first field that cannot read its cell, and the
row is refused with what that field says, extended with its name and its place. Later cells do not
matter. -/
theorem fromRow_stops (h : s.IsDeclared) (row : Row) :
    (∀ record, s.fromRow row = .ok record ↔
      row.length = s.numColumns ∧ ∀ i, s.readAt row i = some (.ok (s.value record i))) ∧
    ((∃ record, s.fromRow row = .ok record) ↔
      row.length = s.numColumns ∧ ∀ i, ∃ a, s.readAt row i = some (.ok a)) ∧
    (row.length ≠ s.numColumns → ∃ e, s.fromRow row = .error e ∧ e.kind = .marshal ∧
      e.field? "expected" = some (toString s.numColumns) ∧
      e.field? "actual" = some (toString row.length)) ∧
    (row.length = s.numColumns → (¬∀ i, ∃ a, s.readAt row i = some (.ok a)) →
      ∃ i fault, s.FailsAt row i fault) ∧
    ∀ i fault, row.length = s.numColumns → s.FailsAt row i fault →
      s.fromRow row = .error (RowReader.located fault (s.fields.get i).name i) ∧
      (RowReader.located fault (s.fields.get i).name i).Locates (s.fields.get i).name i ∧
      ∀ row' : Row, row'.length = row.length → row'.take (i + 1) = row.take (i + 1) →
        s.fromRow row' = s.fromRow row := by
  refine ⟨fun _ => fromRow_eq_ok_iff, exists_fromRow_iff, fun hlength => ?_,
    fun hlength hnot => (Values.accepted_or_failsAt hlength).resolve_left hnot,
    fun i fault hlength hfails => ?_⟩
  · exact ⟨_, fromRow_of_width hlength, rfl, rfl, rfl⟩
  · refine ⟨fromRow_of_failsAt hlength hfails, (h.ofCell hfails.fails).located _ _,
      fun row' hlength' hsame => ?_⟩
    rw [fromRow_of_failsAt hlength hfails,
      fromRow_of_failsAt (hlength'.trans hlength) (hfails.congr hsame)]

/-- The second field is the first that cannot read its cell, whatever the last cell is. -/
theorem fromRow_stops_varchar :
    let fields : List (String × FieldType) := [("id", .primaryKey (.int .int64)),
      ("name", .unique (.varchar 3)), ("age", .shared (.optional (.int .uint8)))]
    let s : Schema := ⟨"t", fields.map RecordType.named⟩
    let fault : Error := RowReader.located (Field.tooLong 3 "Bobby") "name" 1
    s.IsDeclared ∧ (∀ cell, s.fromRow [some "-1", some "Bobby", cell] = .error fault) ∧
      ∃ record, s.fromRow [some "-1", some "Bob", none] = .ok record := by
  intro fields s fault
  have h : s.IsDeclared := ⟨fields, rfl⟩
  have hfails (cell : Cell) :
      s.FailsAt [some "-1", some "Bobby", cell] ⟨1, by decide⟩ (Field.tooLong 3 "Bobby") := by
    constructor
    · rintro ⟨_ | j, hj⟩ hlt
      · exact ⟨⟨-1, by decide⟩, rfl⟩
      · exact absurd (Nat.lt_of_succ_lt_succ hlt) (Nat.not_lt_zero j)
    · rfl
  refine ⟨h, fun cell => ((fromRow_stops h _).2.2.2.2 _ _ rfl (hfails cell)).1, ?_⟩
  refine (fromRow_stops h _).2.1.mpr ⟨rfl, ?_⟩
  rintro ⟨_ | _ | _ | i, hi⟩
  · exact ⟨⟨-1, by decide⟩, rfl⟩
  · exact ⟨⟨"Bob", by decide⟩, rfl⟩
  · exact ⟨none, rfl⟩
  · exact absurd hi (by simp [s, fields])

end Schema

end SqlRecords
