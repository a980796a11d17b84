import SqlRecords.Proofs.Decimal.Written
import SqlRecords.Proofs.Field.RoundTrip
import SqlRecords.Sqlite.Table

/-!
# Cells that columns keep

A cell is bound as text and comes back as text, but in between stands the column, which
turns the texts of numbers into numbers. `Stored.Keeps` says that a column keeps a cell as
some value: NULL in any column, any text in a column of texts, and a whole number of 64
bits in a column of integers, if it is written as such numbers are.

What is kept comes back as it was sent (`Keeps.toCell`), and two values that are kept are
the same for a key only if the cells are (`Keeps.eq_of_same`). So nothing is lost and no
two values fall together.
-/

namespace SqlRecords

open Text Decimal

namespace Sqlite

/-! ### The texts of numbers -/

theorem isSpace_of_isDigit {c : Char} (h : c.isDigit = true) : isSpace c = false := by
  have hbounds : 48 ≤ c.toNat ∧ c.toNat ≤ 57 := by
    simpa [Char.isDigit, UInt32.le_iff_toNat_le] using h
  have hne : c ≠ ' ' := by
    rintro rfl
    exact absurd h (by decide)
  simp only [isSpace, Bool.or_eq_false_iff]
  exact ⟨by simpa using hne, by simp; omega⟩

/-- Blanks are taken away at the ends alone. -/
theorem trimSpaces_eq_self {s : List Char} (h : ∀ c ∈ s, isSpace c = false) : trimSpaces s = s := by
  have hkept : ∀ {s : List Char}, (∀ c ∈ s, isSpace c = false) → s.dropWhile isSpace = s
    | [], _ => rfl
    | c :: s, h => List.dropWhile_cons_of_neg (by simp [h c List.mem_cons_self])
  rw [trimSpaces, hkept h, hkept, List.reverse_reverse]
  exact fun c hc => h c (List.mem_reverse.mp hc)

/-- The text of a whole number of 64 bits is wholly a number, which is an integer. -/
theorem numberText?_toString (n : Int64) :
    Affinity.numberText? (toString n.toInt) = some (.integer n) := by
  have hchars : ∀ c ∈ (toString n.toInt).toList, c.isDigit = true ∨ c = '-' := by
    intro c hc
    rw [toList_toString] at hc
    rcases List.mem_append.mp hc with hc | hc
    · split at hc
      · exact .inr (List.mem_singleton.mp hc)
      · cases hc
    · exact .inl (isDigit_of_mem_toDigits hc)
  have htrim : trimSpaces (toString n.toInt).toList = (toString n.toInt).toList := by
    refine trimSpaces_eq_self fun c hc => ?_
    rcases hchars c hc with h | rfl
    · exact isSpace_of_isDigit h
    · rfl
  have hwhole : isWhole (toString n.toInt).toList = true := by
    refine List.all_eq_true.mpr fun c hc => ?_
    rcases hchars c hc with h | rfl
    · simp [h]
    · rfl
  have hvalue : (if decide (n.toInt < 0) = true then -(n.toInt.natAbs : Int)
      else n.toInt.natAbs) = n.toInt := by
    simp only [decide_eq_true_eq]
    split <;> omega
  have hfits : fits n.toInt = true := by
    simp only [fits, Bool.and_eq_true, decide_eq_true_eq]
    exact ⟨n.minValue_le_toInt, n.toInt_le⟩
  simp only [Affinity.numberText?, htrim, Number.ofText?, readDecimal_toString, Option.map_some,
    hvalue, hwhole, hfits, Bool.and_self, if_true, Int64.ofInt_toInt]

namespace Stored

/-! ### Values as keys -/

theorem compareBytes_eq_iff : ∀ {a b : List UInt8}, compareBytes a b = .eq ↔ a = b
  | [], [] => by simp [compareBytes]
  | [], _ :: _ => by simp [compareBytes]
  | _ :: _, [] => by simp [compareBytes]
  | a :: as, b :: bs => by
    have hbyte : Ord.compare a.toNat b.toNat = .eq ↔ a = b := by
      rw [Nat.compare_eq_eq, UInt8.toNat_inj]
    rw [compareBytes, Ordering.then_eq_eq, hbyte, compareBytes_eq_iff, List.cons.injEq]

theorem utf8Bytes_inj {s t : String} (h : utf8Bytes s = utf8Bytes t) : s = t := by
  have hdata : s.toUTF8.data = t.toUTF8.data := Array.toList_inj.mp h
  exact String.toByteArray_inj.mp (ByteArray.ext hdata)

theorem eq_of_same_text {s t : String} (h : same (.text s) (.text t) = true) : s = t := by
  have hbytes : compareBytes (utf8Bytes s) (utf8Bytes t) = .eq := by
    simpa [same, compare, rank, bytes] using h
  exact utf8Bytes_inj (compareBytes_eq_iff.mp hbytes)

theorem eq_of_same_integer {m n : Int64} (h : same (.integer m) (.integer n) = true) : m = n := by
  have hcompare : Ord.compare m.toInt n.toInt = .eq := by
    simpa [same, compare, Number.compare] using h
  exact Int64.toInt_inj.mp (Int.compare_eq_eq.mp hcompare)

/-! ### Cells that are kept -/

/-- A column with an affinity keeps a cell as a value. -/
inductive Keeps : Affinity → Cell → Stored → Prop where
  | null (a : Affinity) : Keeps a none .null
  | text (s : String) : Keeps .text (some s) (.text s)
  | integer (n : Int64) : Keeps .integer (some (toString n.toInt)) (.integer n)

namespace Keeps

variable {a : Affinity} {cell cell' : Cell} {v v' : Stored}

/-- The column makes this value of the cell. -/
theorem apply (h : Keeps a cell v) : a.apply (.ofCell cell) = v := by
  cases h with
  | null a => cases a <;> rfl
  | text s => rfl
  | integer n =>
    simp only [ofCell, Affinity.apply, numberText?_toString]
    rfl

/-- The cell comes back as it was sent. -/
theorem toCell (h : Keeps a cell v) : v.toCell = .ok cell := by
  cases h <;> rfl

theorem isNull_iff (h : Keeps a cell v) : v.isNull = true ↔ cell = none := by
  cases h <;> simp [isNull]

/-- Values that are the same for a key have the same cell. -/
theorem eq_of_same (h : Keeps a cell v) (h' : Keeps a cell' v') (hnull : v.isNull = false)
    (hsame : v.same v' = true) : cell = cell' := by
  cases h with
  | null a => cases hnull
  | text s =>
    cases h' with
    | null a => cases hsame
    | text s' => rw [eq_of_same_text hsame]
  | integer n =>
    cases h' with
    | null a => cases hsame
    | integer n' => rw [eq_of_same_integer hsame]

/-- A column keeps a cell as one value only. -/
theorem eq (h : Keeps a cell v) (h' : Keeps a cell v') : v = v' := h.apply.symm.trans h'.apply

/-- A value that is kept is the same as itself for a key. -/
theorem same_self (h : Keeps a cell v) : v.same v = true := by
  cases h with
  | null a => rfl
  | text s => simp [same, compare, rank, compareBytes_eq_iff]
  | integer n => simp [same, compare, Number.compare]

/-- A value that is kept can be kept again. -/
theorem apply_self (h : Keeps a cell v) : a.apply v = v := by
  cases h with
  | null a => cases a <;> rfl
  | text s => rfl
  | integer n => rfl

/-- A text in a column of integers is a whole number, and the row id that it spells. -/
theorem idOf {s : String} (h : Keeps .integer (some s) v) :
    ∃ n : Int64, s = toString n.toInt ∧ v = .integer n ∧
      StoredTable.idOf (.text s) = .ok n.toInt := by
  cases h with
  | integer n =>
    have happly : Affinity.integer.apply (.text (toString n.toInt)) = .integer n :=
      (Keeps.integer n).apply
    exact ⟨n, rfl, rfl, by rw [StoredTable.idOf, happly]⟩

end Keeps

end Stored

end Sqlite

/-! ### Fields -/

open Sqlite

namespace FieldType

/-- A value fits in a signed number of 64 bits. Only unsigned numbers of 64 bits can be greater. -/
def Signed : (t : FieldType) → t.Value → Prop
  | .int _, n => n.1 ≤ Int64.maxValue.toInt
  | .optional t, a | .numbered t, a => ∀ b : t.Value, a = some b → t.Signed b
  | .primaryKey t, a | .unique t, a | .references t _, a | .shared t, a => t.Signed a
  | _, _ => True

instance decidableSigned : ∀ (t : FieldType) (a : t.Value), Decidable (t.Signed a)
  | .int _, _ => inferInstanceAs (Decidable (_ ≤ _))
  | .optional _, none | .numbered _, none => isTrue nofun
  | .optional t, some a | .numbered t, some a =>
    @decidable_of_iff _ (t.Signed a) ⟨fun h _ hb => Option.some.inj hb ▸ h, fun h => h a rfl⟩
      (decidableSigned t a)
  | .primaryKey t, a | .unique t, a | .references t _, a | .shared t, a => decidableSigned t a
  | .bool, _ | .float32, _ | .float, _ | .text, _ | .varchar _, _ | .date, _ | .timestamp, _
  | .instant, _ | .document, _ => isTrue trivial

/-- The normal form of a value has the same number. -/
theorem Signed.normalize : ∀ {t : FieldType} {a : t.Value}, t.Signed a → t.Signed (t.normalize a)
  | .timestamp, _, _ | .instant, _, _ => trivial
  | .optional _, none, h | .numbered _, none, h => h
  | .optional t, some a, h | .numbered t, some a, h => by
    intro b hb
    cases hb
    exact Signed.normalize (h a rfl)
  | .primaryKey t, _, h | .unique t, _, h | .references t _, _, h | .shared t, _, h =>
    Signed.normalize (t := t) h
  | .bool, _, h | .int _, _, h | .float32, _, h | .float, _, h | .text, _, h | .varchar _, _, h
  | .date, _, h | .document, _, h => h

theorem keeps_int {w : IntSize} (n : w.Number) (h : n.1 ≤ Int64.maxValue.toInt) :
    Stored.Keeps (TableRule.affinityOf w.kind) (some (toString n.1))
      (.integer (Int64.ofInt n.1)) := by
  have hlow : Int64.minValue.toInt ≤ n.1 := by
    refine Int.le_trans ?_ n.2.1
    cases w <;> decide
  have htext : (Int64.ofInt n.1).toInt = n.1 :=
    Int64.toInt_ofInt_of_le hlow (Int.lt_of_le_of_lt h (by decide))
  have haffinity : TableRule.affinityOf w.kind = .integer := by cases w <;> rfl
  have hkeeps := Stored.Keeps.integer (Int64.ofInt n.1)
  rwa [htext, ← haffinity] at hkeeps

/-- **A column keeps the cells of its field**, if their numbers fit. -/
theorem keeps : ∀ {t : FieldType}, t.isExact = true → t.field.autoIncrement = false →
    ∀ a : t.Value, t.Signed a →
      ∃ v, Stored.Keeps (TableRule.affinityOf t.field.columnType.kind) (t.field.toCell a) v
  | .bool, _, _, false, _ => ⟨_, Stored.Keeps.integer 0⟩
  | .bool, _, _, true, _ => ⟨_, Stored.Keeps.integer 1⟩
  | .int _, _, _, n, h => ⟨_, keeps_int n h⟩
  | .text, _, _, _, _ | .varchar _, _, _, _, _ | .date, _, _, _, _ | .timestamp, _, _, _, _
  | .instant, _, _, _, _ => ⟨_, .text _⟩
  | .optional _, _, _, none, _ => ⟨_, .null _⟩
  | .optional t, hexact, hauto, some a, h => keeps (t := t) hexact hauto a (h a rfl)
  | .primaryKey t, hexact, hauto, a, h | .unique t, hexact, hauto, a, h
  | .references t _, hexact, hauto, a, h | .shared t, hexact, hauto, a, h =>
    keeps (t := t) hexact hauto a h

end FieldType

end SqlRecords
