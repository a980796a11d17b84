import SqlRecords.Proofs.Calendar.RoundTrip
import SqlRecords.Proofs.Field.Coherent

/-!
# Values survive their cells

What a field writes into a cell it reads back from there. This is so for truth values,
whole numbers, texts, dates and timestamps, and the wrappers keep it: NULL is written for
a value that is missing and for no other, since nothing that may be missing can be made
optional once more. A number that the database has still to give cannot be read from its
cell. A timestamp with a fraction of more than a second is written like its normal form, and
read as that.

## What is proved

* `FieldType.toCell_ne_none`: where NULL is allowed.
* `FieldType.toCell_normalize`: the normal form of a value has the same cell.
* `FieldType.fromCell_toCell`: the normal form of a value of an admissible type is read from its
  cell.
* **`FieldType.fromCell_toCell_iff`**: the values that survive are all in normal form that the
  database has not still to give.
* `FieldType.fromCell_toCell_longFraction`: a timestamp that does not survive.
-/

namespace SqlRecords

open Text Calendar

/-! ### Basic fields -/

namespace Field

theorem fromCell_toCell_bool (b : Bool) : bool.fromCell (bool.toCell b) = .ok b := by
  cases b <;> rfl

theorem fromCell_toCell_int {w : IntSize} (n : w.Number) :
    (int w).fromCell ((int w).toCell n) = .ok n := by
  have hinteger := readInteger_toString n.2.1 n.2.2
  have hread : w.read (toString n.1).toList = .ok n := by
    unfold IntSize.read
    split
    · next m hm =>
      rw [hinteger] at hm
      cases hm
      rfl
    · next e he =>
      rw [hinteger] at he
      cases he
  simp only [int, ofText, hread]
  rfl

theorem fromCell_toCell_varchar {max : UInt32} (s : BoundedText max) :
    (varchar max).fromCell ((varchar max).toCell s) = .ok s :=
  dif_pos s.2

theorem fromCell_toCell_date (d : Date) : date.fromCell (date.toCell d) = .ok d := by
  simp only [date, ofText, String.toList_ofList, readDate_dateChars]
  rfl

end Field

namespace FieldType

/-! ### Where NULL is allowed -/

/-- A type without NULL writes no NULL, and its values are not given by the database. -/
theorem toCell_ne_none_of_notNull : ∀ {t : FieldType}, t.notNull = true →
    t.field.autoIncrement = false ∧ ∀ a : t.Value, t.field.toCell a ≠ none
  | .bool, _ | .int _, _ | .float32, _ | .float, _ | .text, _ | .varchar _, _ | .date, _
  | .timestamp, _ | .instant, _ | .document, _ => ⟨rfl, fun _ => nofun⟩
  | .unique t, h | .references t _, h | .shared t, h => toCell_ne_none_of_notNull (t := t) h

/-- **NULL stands only where the column allows it**, or for a number that the database gives. -/
theorem toCell_ne_none {t : FieldType} (hadm : t.Admissible)
    (hnull : t.field.columnType.properties.nullable = false) (hauto : t.field.autoIncrement = false)
    (a : t.Value) : t.field.toCell a ≠ none :=
  (isCoherent hadm).toCell_ne_none hnull hauto a

/-! ### Reading back -/

/-- The type is not made from floating point numbers or documents. -/
def isExact : FieldType → Bool
  | .float32 | .float | .document => false
  | .optional t | .primaryKey t | .numbered t | .unique t | .references t _ | .shared t =>
    t.isExact
  | _ => true

/-- The value with its timestamp in normal form, if it has one. -/
def normalize : (t : FieldType) → t.Value → t.Value
  | .timestamp, a | .instant, a => Timestamp.normalize a
  | .optional t, a | .numbered t, a => Option.map t.normalize a
  | .primaryKey t, a | .unique t, a | .references t _, a | .shared t, a => t.normalize a
  | .bool, a | .int _, a | .float32, a | .float, a | .text, a | .varchar _, a | .date, a
  | .document, a => a

/-- A timestamp is in normal form: the fraction of its second is that of one second, but for a leap
second. -/
def IsNormal : (t : FieldType) → t.Value → Prop
  | .timestamp, a | .instant, a => Timestamp.IsNormal a
  | .optional t, a | .numbered t, a => ∀ b : t.Value, a = some b → t.IsNormal b
  | .primaryKey t, a | .unique t, a | .references t _, a | .shared t, a => t.IsNormal a
  | _, _ => True

instance decidableIsNormal : ∀ (t : FieldType) (a : t.Value), Decidable (t.IsNormal a)
  | .timestamp, a | .instant, a => Timestamp.decidableIsNormal a
  | .optional _, none | .numbered _, none => isTrue nofun
  | .optional t, some a | .numbered t, some a =>
    @decidable_of_iff _ (t.IsNormal a) ⟨fun h _ hb => Option.some.inj hb ▸ h, fun h => h a rfl⟩
      (decidableIsNormal t a)
  | .primaryKey t, a | .unique t, a | .references t _, a | .shared t, a => decidableIsNormal t a
  | .bool, _ | .int _, _ | .float32, _ | .float, _ | .text, _ | .varchar _, _ | .date, _
  | .document, _ => isTrue trivial

/-- A value is its normal form if it is in it. -/
theorem normalize_eq_self_iff : ∀ {t : FieldType} {a : t.Value}, t.normalize a = a ↔ t.IsNormal a
  | .timestamp, _ | .instant, _ => Timestamp.normalize_eq_self_iff
  | .optional _, none | .numbered _, none => iff_of_true rfl nofun
  | .optional t, some a | .numbered t, some a => by
    have hvalue : t.normalize a = a ↔ t.IsNormal a := normalize_eq_self_iff
    constructor
    · intro h b hb
      cases hb
      exact hvalue.mp (Option.some.inj h)
    · intro h
      exact congrArg some (hvalue.mpr (h a rfl))
  | .primaryKey t, _ | .unique t, _ | .references t _, _ | .shared t, _ =>
    normalize_eq_self_iff (t := t)
  | .bool, _ | .int _, _ | .float32, _ | .float, _ | .text, _ | .varchar _, _ | .date, _
  | .document, _ => iff_of_true rfl trivial

theorem isNormal_normalize : ∀ (t : FieldType) (a : t.Value), t.IsNormal (t.normalize a)
  | .timestamp, a | .instant, a => Timestamp.isNormal_normalize a
  | .optional _, none | .numbered _, none => nofun
  | .optional t, some a | .numbered t, some a => by
    intro b hb
    cases hb
    exact isNormal_normalize t a
  | .primaryKey t, a | .unique t, a | .references t _, a | .shared t, a => isNormal_normalize t a
  | .bool, _ | .int _, _ | .float32, _ | .float, _ | .text, _ | .varchar _, _ | .date, _
  | .document, _ => trivial

/-- **The normal form of a value has the same cell.** -/
theorem toCell_normalize : ∀ (t : FieldType) (a : t.Value),
    t.field.toCell (t.normalize a) = t.field.toCell a
  | .timestamp, a =>
    congrArg (fun text => some (String.ofList text)) (timestampChars_normalize a)
  | .instant, a =>
    congrArg (fun text => some (String.ofList (text ++ ['+', '0', '0', ':', '0', '0'])))
      (timestampChars_normalize a)
  | .optional _, none | .numbered _, none => rfl
  | .optional t, some a | .numbered t, some a => toCell_normalize t a
  | .primaryKey t, a | .unique t, a | .references t _, a | .shared t, a => toCell_normalize t a
  | .bool, _ | .int _, _ | .float32, _ | .float, _ | .text, _ | .varchar _, _ | .date, _
  | .document, _ => rfl

theorem fromCell_toCell_timestamp (a : Value .timestamp) :
    (field .timestamp).fromCell ((field .timestamp).toCell a) = .ok (Timestamp.normalize a) := by
  change Timestamp at a
  have hread : readTimestamp (String.ofList (timestampChars a)).toList = some a.normalize := by
    rw [String.toList_ofList, readTimestamp_timestampChars]
  simp only [field, Field.timestamp, Field.ofText]
  rw [hread]
  rfl

theorem fromCell_toCell_instant (a : Value .instant) :
    (field .instant).fromCell ((field .instant).toCell a) = .ok (Timestamp.normalize a) := by
  change Timestamp at a
  have hread : readInstant (String.ofList (instantChars a)).toList = some a.normalize := by
    rw [String.toList_ofList, readInstant_instantChars]
  simp only [field, Field.instant, Field.ofText]
  rw [hread]
  rfl

/-- **Values are read back from their cells** in normal form, unless the database has still to give
them. -/
theorem fromCell_toCell : ∀ {t : FieldType}, t.Admissible → t.isExact = true → ∀ a : t.Value,
    (t.field.autoIncrement = true → t.field.toCell a ≠ none) →
      t.field.fromCell (t.field.toCell a) = .ok (t.normalize a)
  | .bool, _, _, a, _ => Field.fromCell_toCell_bool a
  | .int _, _, _, a, _ => Field.fromCell_toCell_int a
  | .text, _, _, _, _ => rfl
  | .varchar _, _, _, a, _ => Field.fromCell_toCell_varchar a
  | .date, _, _, a, _ => Field.fromCell_toCell_date a
  | .timestamp, _, _, a, _ => fromCell_toCell_timestamp a
  | .instant, _, _, a, _ => fromCell_toCell_instant a
  | .optional t, hadm, hexact, a, _ => by
    obtain ⟨hnotNull, hadm⟩ := Bool.and_eq_true_iff.mp hadm
    obtain ⟨hauto, hsome⟩ := toCell_ne_none_of_notNull hnotNull
    cases a with
    | none => rfl
    | some a =>
      have hread := fromCell_toCell hadm hexact a (by simp [hauto])
      have hcell : (field (.optional t)).toCell (some a) = t.field.toCell a := rfl
      obtain ⟨text, htext⟩ := Option.ne_none_iff_exists'.mp (hsome a)
      rw [htext] at hread
      rw [hcell, htext]
      simp only [field, Field.optional, hread]
      rfl
  | .primaryKey t, hadm, hexact, a, hgiven =>
    fromCell_toCell (t := t) (Bool.and_eq_true_iff.mp hadm).2 hexact a hgiven
  | .numbered t, hadm, hexact, a, hgiven => by
    cases a with
    | none => exact absurd rfl (hgiven rfl)
    | some a =>
      cases t with
      | int w =>
        have hread := Field.fromCell_toCell_int (w := w) a
        simp only [field, Field.numbered, Option.bind_some, hread]
        rfl
      | _ => cases hadm
  | .unique t, hadm, hexact, a, hgiven | .references t _, hadm, hexact, a, hgiven
  | .shared t, hadm, hexact, a, hgiven => fromCell_toCell (t := t) hadm hexact a hgiven

/-- A number that the database gives is there. -/
def Assigned : (t : FieldType) → t.Value → Prop
  | .numbered _, a => a ≠ none
  | .optional t, a => ∀ b : t.Value, a = some b → t.Assigned b
  | .primaryKey t, a | .unique t, a | .references t _, a | .shared t, a => t.Assigned a
  | _, _ => True

/-- A type whose values the database does not give has nothing to assign. -/
theorem assigned_of_not_numbered : ∀ {t : FieldType}, t.field.autoIncrement = false →
    ∀ a : t.Value, t.Assigned a
  | .bool, _, _ | .int _, _, _ | .float32, _, _ | .float, _, _ | .text, _, _ | .varchar _, _, _
  | .date, _, _ | .timestamp, _, _ | .instant, _, _ | .document, _, _ => trivial
  | .optional t, hauto, _ => fun b _ => assigned_of_not_numbered (t := t) hauto b
  | .primaryKey t, hauto, a | .unique t, hauto, a | .references t _, hauto, a
  | .shared t, hauto, a => assigned_of_not_numbered (t := t) hauto a

/-- A value that the database gives is assigned if its cell is not NULL. -/
theorem assigned_iff_of_numbered : ∀ {t : FieldType}, t.Admissible →
    t.field.autoIncrement = true → ∀ a : t.Value, t.Assigned a ↔ t.field.toCell a ≠ none
  | .optional t, hadm, hauto, _ | .primaryKey t, hadm, hauto, _ => by
    obtain ⟨hnotNull, -⟩ := Bool.and_eq_true_iff.mp hadm
    have hplain := (toCell_ne_none_of_notNull hnotNull).1
    cases hplain.symm.trans hauto
  | .numbered t, hadm, _, a => by
    cases t with
    | int w =>
      cases a with
      | none => exact iff_of_false (fun h => h rfl) (fun h => h rfl)
      | some n => exact iff_of_true nofun nofun
    | _ => cases hadm
  | .unique t, hadm, hauto, a | .references t _, hadm, hauto, a | .shared t, hadm, hauto, a =>
    assigned_iff_of_numbered (t := t) hadm hauto a

/-- NULL is no number that the database gave. -/
theorem fromCell_none_of_numbered {t : FieldType} (hadm : t.Admissible)
    (hauto : t.field.autoIncrement = true) : ∃ e, t.field.fromCell none = .error e := by
  have h := isCoherent hadm
  rw [h.flag] at hauto
  have hnull := h.keyNotNull (h.numberedKey hauto).1
  cases hread : t.field.fromCell none with
  | ok a => exact absurd (h.readsNull.mp ⟨a, hread⟩) (Bool.eq_false_iff.mp hnull)
  | error e => exact ⟨e, rfl⟩

/-- **Which values survive their cells**, however their type is wrapped: all those in normal form,
but for numbers that the database has still to give. These are years below 0 and above 9999,
fractions of a second down to nanoseconds, leap seconds, the ends of each range of numbers, and
NULL. Any other timestamp is read as the one in normal form that has the same cell. -/
theorem fromCell_toCell_iff {t : FieldType} (hadm : t.Admissible) (hexact : t.isExact = true)
    (a : t.Value) :
    (t.field.fromCell (t.field.toCell a) = .ok a ↔ t.Assigned a ∧ t.IsNormal a) ∧
      (t.Assigned a → t.field.fromCell (t.field.toCell a) = .ok (t.normalize a)) := by
  have hread : t.Assigned a → t.field.fromCell (t.field.toCell a) = .ok (t.normalize a) := by
    intro h
    exact fromCell_toCell hadm hexact a fun hauto => (assigned_iff_of_numbered hadm hauto a).mp h
  refine ⟨⟨fun hsurvives => ?_, fun ⟨h, hnormal⟩ => ?_⟩, hread⟩
  · have hassigned : t.Assigned a := by
      cases hauto : t.field.autoIncrement with
      | false => exact assigned_of_not_numbered hauto a
      | true =>
        refine (assigned_iff_of_numbered hadm hauto a).mpr fun hnone => ?_
        obtain ⟨e, hfails⟩ := fromCell_none_of_numbered hadm hauto
        rw [hnone, hfails] at hsurvives
        cases hsurvives
    rw [hread hassigned] at hsurvives
    exact ⟨hassigned, normalize_eq_self_iff.mp (Except.ok.inj hsurvives)⟩
  · rw [hread h, normalize_eq_self_iff.mpr hnormal]

/-- The last leap second of the calendar, down to its last nanosecond, in a column that may be NULL,
is unique and refers to another. -/
theorem fromCell_toCell_iff_leapSecond :
    let t : FieldType := .references (.unique (.optional (.shared .instant))) ⟨"t", "c"⟩
    let last : Timestamp := ⟨⟨262142, 12, 31, by decide⟩, ⟨23, 59, 59, 1999999999, by decide⟩⟩
    t.Admissible ∧ t.isExact = true ∧ t.Assigned (some last) ∧ t.IsNormal (some last) ∧
      t.field.fromCell (t.field.toCell (some last)) = .ok (some last) := by
  intro t last
  have hadm : t.Admissible := by decide
  have hexact : t.isExact = true := by decide
  have hassigned : t.Assigned (some last) := fun _ _ => trivial
  have hnormal : t.IsNormal (some last) := by
    rintro b ⟨⟩
    exact .inr rfl
  exact ⟨hadm, hexact, hassigned, hnormal,
    (fromCell_toCell_iff hadm hexact (some last)).1.mpr ⟨hassigned, hnormal⟩⟩

/-- **A timestamp that does not survive its cell.** The fraction of its second 4 is longer than a
second, so it is written like a time in second 5, and read as that. -/
theorem fromCell_toCell_longFraction :
    let day : Date := ⟨2020, 1, 2, by decide⟩
    let a : Timestamp := ⟨day, ⟨23, 56, 4, 1333333333, by decide⟩⟩
    let b : Timestamp := ⟨day, ⟨23, 56, 5, 333333333, by decide⟩⟩
    (field .timestamp).toCell a = some "2020-01-02 23:56:05.333333333" ∧
      (field .timestamp).fromCell ((field .timestamp).toCell a) = .ok b ∧
      (field .timestamp).fromCell ((field .timestamp).toCell a) ≠ .ok a := by
  intro day a b
  have hnormal : a.normalize = b := by decide +kernel
  have hread := fromCell_toCell_timestamp a
  rw [hnormal] at hread
  refine ⟨by decide +kernel, hread, fun hsame => ?_⟩
  have htime : a = b := Except.ok.inj (hsame.symm.trans hread)
  exact absurd htime (by decide +kernel)

end FieldType

end SqlRecords
