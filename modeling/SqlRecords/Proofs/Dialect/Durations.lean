import SqlRecords.Proofs.Decimal.Doubles
import SqlRecords.Proofs.Dialect.Grouping

/-!
# Durations are read from the text of a date

Each dialect moves a date in its own way: SQLite lists modifiers behind the date, PostgreSQL adds
intervals to it, and MySQL puts one call around another, so that what stands outermost is applied
last. A reader who knows the quotes and brackets of a dialect, its units of time and decimal numbers
finds the date and the lengths of time by which it is moved, the first one first.

The amounts are exact. Weeks become days and milliseconds become microseconds where a dialect does
not have them, in integers that do not overflow. SQLite alone has no unit below a second, and its
amounts of milliseconds and microseconds are written as a quotient of doubles. The shortest decimal
of such a quotient is the exact one as long as the amount is below `2 ^ 43` seconds of milliseconds
or `2 ^ 33` seconds of microseconds; behind that it may be another one.

## What is proved

* `Glyph.fields_spaced`: what stands in brackets is found between its blanks.
* `Dialect.readPhrase_modifier`, `Dialect.readPhrase_interval`,
  `Dialect.isQuantity_intervalWords`: the amounts and units of each dialect are read as the lengths
  of time that they were written for.
* **`Dialect.readMoves_datePlus`**: the durations that a date is moved by are read from its text.
* `Dialect.readMoves_lost`: an amount of microseconds that SQLite is given otherwise.
-/

namespace SqlRecords

open Decimal Text Sql

/-! ### Lengths of time -/

/-- A length of time. Months have no fixed number of days and are counted for themselves. -/
inductive Lapse where
  | months (n : ℚ)
  | microseconds (n : ℚ)
  deriving DecidableEq

/-- A length of time taken so many times. -/
def Lapse.times (q : ℚ) : Lapse → Lapse
  | .months n => .months (q * n)
  | .microseconds n => .microseconds (q * n)

/-- The length of a unit. -/
def DurationUnit.lapse : DurationUnit → Lapse
  | .years => .months 12
  | .months => .months 1
  | .weeks => .microseconds (7 * 24 * 60 * 60 * 10 ^ 6)
  | .days => .microseconds (24 * 60 * 60 * 10 ^ 6)
  | .hours => .microseconds (60 * 60 * 10 ^ 6)
  | .minutes => .microseconds (60 * 10 ^ 6)
  | .seconds => .microseconds (10 ^ 6)
  | .milliseconds => .microseconds (10 ^ 3)
  | .microseconds => .microseconds 1

/-- How long a duration is. -/
def Duration.lapse (u : Duration) : Lapse := u.unit.lapse.times u.amount.toInt

/-! ### The reader -/

/-- The units of time that a dialect has words for. -/
def Dialect.units : Dialect → List (String × DurationUnit)
  | .sqlite => [("years", .years), ("months", .months), ("days", .days), ("hours", .hours),
      ("minutes", .minutes), ("seconds", .seconds)]
  | .postgres => [("years", .years), ("months", .months), ("weeks", .weeks), ("days", .days),
      ("hours", .hours), ("minutes", .minutes), ("seconds", .seconds),
      ("milliseconds", .milliseconds), ("microseconds", .microseconds)]
  | .mysql => [("YEAR", .years), ("MONTH", .months), ("WEEK", .weeks), ("DAY", .days),
      ("HOUR", .hours), ("MINUTE", .minutes), ("SECOND", .seconds), ("MICROSECOND", .microseconds)]

/-- Reads an amount of a unit. -/
def Dialect.readQuantity (d : Dialect) (amount unit : List Char) : Option Lapse := do
  let x ← readDecimal amount
  let u ← d.units.lookup (String.ofList unit)
  return u.lapse.times x.value

/-- Reads an amount and its unit with a blank between them. -/
def Dialect.readPhrase (d : Dialect) (phrase : String) : Option Lapse :=
  d.readQuantity (phrase.toList.takeWhile (· != ' ')) (phrase.toList.dropWhile (· != ' ')).tail

namespace Glyph

/-- What stands between blanks outside of brackets, up to a bracket that was not begun, and what
follows that. -/
def fields (depth : ℕ) : List Glyph → Option (List (List Glyph) × List Glyph)
  | [] => none
  | g :: rest =>
    match g.depthBehind depth with
    | some behind => (fields behind rest).map fun (fs, rest) => (fs.modifyHead (g :: ·), rest)
    | none =>
      if g = .plain ')' then some ([[]], rest)
      else (fields 0 rest).map fun (fs, rest) => ([] :: fs, rest)

/-- A word, as a reader sees it. -/
def word (w : String) : List Glyph := w.toList.map .plain

/-- What stands in the brackets that a word opens and that end a text. -/
def inBrackets (opening : String) (gs : List Glyph) : Option (List (List Glyph)) :=
  if word opening <+: gs then
    match fields 0 (gs.drop opening.toList.length) with
    | some (fs, []) => some fs
    | _ => none
  else none

/-- Takes away the comma that ends a field. -/
def dropComma (field : List Glyph) : Option (List Glyph) :=
  if field.getLast? = some (.plain ',') then some field.dropLast else none

/-- Takes away the commas that end all fields of a list but the last. -/
def dropCommas : List (List Glyph) → Option (List (List Glyph))
  | [] => some []
  | [field] => some [field]
  | field :: next :: rest => do return (← dropComma field) :: (← dropCommas (next :: rest))

/-- The characters outside of quotes, of glyphs that are nothing else. -/
def plainChars (gs : List Glyph) : Option (List Char) :=
  gs.mapM fun
    | .plain c => some c
    | .quoted _ _ => none

/-- Reads the intervals that are added to a date. -/
def readTerms : List (List Glyph) → Option (List Lapse)
  | [] => some []
  | plus :: interval :: [.quoted '\'' phrase] :: rest =>
    if plus = word "+" ∧ interval = word "INTERVAL" then do
      return (← Dialect.postgres.readPhrase phrase) :: (← readTerms rest)
    else none
  | _ => none

/-- Reads a modifier. -/
def readModifier : List Glyph → Option Lapse
  | [.quoted '\'' phrase] => Dialect.sqlite.readPhrase phrase
  | _ => none

/-- Reads a date with its modifiers. -/
def readModified (gs : List Glyph) : Option (List Glyph × List Lapse) := do
  match ← dropCommas (← inBrackets "datetime(" gs) with
  | date :: modifiers => return (date, ← modifiers.mapM readModifier)
  | [] => none

/-- Reads a date with the intervals that are added to it. -/
def readSum (gs : List Glyph) : Option (List Glyph × List Lapse) := do
  match ← inBrackets "(" gs with
  | date :: terms => return (date, ← readTerms terms)
  | [] => none

/-- Reads a date with the calls around it, so many of them, the innermost first. -/
def readCalls : ℕ → List Glyph → Option (List Glyph × List Lapse)
  | 0, gs => some (gs, [])
  | n + 1, gs => do
    match ← inBrackets "DATE_ADD(" gs with
    | [field, interval, amount, unit] =>
      let (date, moves) ← readCalls n (← dropComma field)
      let last ← Dialect.mysql.readQuantity (← plainChars amount) (← plainChars unit)
      if interval = word "INTERVAL" then some (date, moves ++ [last]) else none
    | _ => none

end Glyph

open Glyph

/-- The date in some glyphs and the lengths of time by which it is moved, so many of them. -/
def Dialect.readDate (d : Dialect) (n : ℕ) (gs : List Glyph) : Option (List Glyph × List Lapse) :=
  match d with
  | .sqlite => readModified gs
  | .postgres => readSum gs
  | .mysql => readCalls n gs

/-- The text of the date in a text and the lengths of time by which it is moved, so many of them. -/
def Dialect.readMoves (d : Dialect) (n : ℕ) (text : String) : Option (String × List Lapse) := do
  let (date, moves) ← d.readDate n (← d.scan text)
  if moves.length = n then some (String.ofList (date.flatMap Glyph.chars), moves) else none

/-! ### Fields -/

namespace Glyph

variable {a b : ℕ} {gs rest : List Glyph}

/-- Glyphs that end no field are read as a part of one. -/
theorem fields_append (h : SqlRecords.depthBehind a gs = some b) : fields a (gs ++ rest) =
    (fields b rest).map fun (fs, rest) => (fs.modifyHead (gs ++ ·), rest) := by
  induction gs generalizing a with
  | nil =>
    cases h
    rw [List.nil_append]
    cases fields b rest with
    | none => rfl
    | some r =>
      obtain ⟨fs, rest⟩ := r
      cases fs <;> rfl
  | cons g gs ih =>
    obtain ⟨c, hc, hgs⟩ := Option.bind_eq_some_iff.mp (List.foldlM_cons.symm.trans h)
    simp only [List.cons_append, fields, hc, ih hgs, Option.map_map]
    congr 1
    funext ⟨fs, rest⟩
    cases fs <;> rfl

/-- Glyphs that can be a field: no blank is among them outside of brackets, and all their brackets
end. -/
def IsField (f : List Glyph) : Prop := SqlRecords.depthBehind 0 f = some 0

/-- A field may end in a comma. -/
theorem IsField.comma {f : List Glyph} (h : IsField f) : IsField (f ++ [.plain ',']) := by
  rw [IsField, SqlRecords.depthBehind_append, h]
  rfl

/-- Fields with blanks between them. -/
def spaced : List (List Glyph) → List Glyph
  | [] => []
  | [field] => field
  | field :: rest => field ++ .plain ' ' :: spaced rest

/-- **Fields with blanks between them are found one by one**, up to the bracket that ends them. -/
theorem fields_spaced : ∀ {fs : List (List Glyph)}, fs ≠ [] →
    (∀ f ∈ fs, IsField f) → fields 0 (spaced fs ++ .plain ')' :: rest) = some (fs, rest)
  | [], hne, _ => absurd rfl hne
  | [f], _, h => by
    rw [spaced, fields_append (h f List.mem_cons_self)]
    simp [fields, depthBehind]
  | f :: g :: fs, _, h => by
    have ih := fields_spaced (List.cons_ne_nil g fs) fun x hx => h x (List.mem_cons_of_mem f hx)
    have htext : spaced (f :: g :: fs) ++ .plain ')' :: rest =
        f ++ .plain ' ' :: (spaced (g :: fs) ++ .plain ')' :: rest) := List.append_assoc _ _ _
    have hblank : fields 0 (.plain ' ' :: (spaced (g :: fs) ++ .plain ')' :: rest)) =
        some ([] :: g :: fs, rest) := by
      rw [fields, ih]
      rfl
    rw [htext, fields_append (h f List.mem_cons_self), hblank]
    simp

/-- What stands in brackets is found there. -/
theorem inBrackets_spaced {opening : String} {fs : List (List Glyph)} (hne : fs ≠ [])
    (h : ∀ f ∈ fs, IsField f) :
    inBrackets opening (word opening ++ (spaced fs ++ [.plain ')'])) = some fs := by
  have hlength : opening.toList.length = (word opening).length := (List.length_map _).symm
  rw [inBrackets, if_pos (List.prefix_append _ _), hlength, List.drop_left, fields_spaced hne h]

end Glyph

/-! ### Quantities -/

namespace Dialect

variable {d : Dialect} {x : Scientific} {u : DurationUnit} {amount word : String}

theorem readQuantity_eq (unit : String) (hx : readDecimal amount.toList = some x)
    (hu : d.units.lookup unit = some u) :
    d.readQuantity amount.toList unit.toList = some (u.lapse.times x.value) := by
  simp only [readQuantity, hx, String.ofList_toList, hu, Option.bind_eq_bind, Option.bind_some]
  rfl

/-- An amount and the word of its unit are read behind each other. -/
theorem readPhrase_append (unit : String) (hnumeric : IsNumeric amount.toList)
    (hx : readDecimal amount.toList = some x) (hword : word = " " ++ unit)
    (hu : d.units.lookup unit = some u) :
    d.readPhrase (amount ++ word) = some (u.lapse.times x.value) := by
  have hkeep : ∀ c ∈ amount.toList, (c != ' ') = true := by
    intro c hc
    rw [bne_iff_ne]
    rintro rfl
    exact absurd (hnumeric ' ' hc) (by decide)
  have htext : (amount ++ word).toList = amount.toList ++ ' ' :: unit.toList := by
    rw [String.toList_append, hword, String.toList_append]
    rfl
  have htake : (amount ++ word).toList.takeWhile (· != ' ') = amount.toList := by
    rw [htext, List.takeWhile_append_of_pos hkeep]
    simp
  have hdrop : ((amount ++ word).toList.dropWhile (· != ' ')).tail = unit.toList := by
    rw [htext, List.dropWhile_append_of_pos hkeep]
    simp
  rw [readPhrase, htake, hdrop]
  exact readQuantity_eq unit hx hu

theorem isNumeric_toString (n : ℤ) : IsNumeric (toString n).toList :=
  fun _ => isNumeral_of_mem_toString

theorem isNumeric_signedInteger (n : ℤ) : IsNumeric (signedInteger n).toList := by
  intro c hc
  unfold signedInteger at hc
  split at hc
  · exact isNumeric_toString n c hc
  · rw [String.toList_append] at hc
    rcases List.mem_append.mp hc with hc | hc
    · obtain rfl := List.mem_singleton.mp hc
      decide
    · exact isNumeric_toString n c hc

theorem readPhrase_signed (n : ℤ) (unit : String) (hword : word = " " ++ unit)
    (hu : d.units.lookup unit = some u) :
    d.readPhrase (signedInteger n ++ word) = some (u.lapse.times n) := by
  rw [readPhrase_append unit (isNumeric_signedInteger n) (readDecimal_signedInteger n) hword hu,
    value_integer]

/-- The text of an interval of PostgreSQL. -/
def intervalText (u : Duration) : String := toString u.amount.toInt ++ " " ++ unitName u.unit

theorem lookup_unitName (u : DurationUnit) : postgres.units.lookup (unitName u) = some u := by
  cases u <;> rfl

/-- PostgreSQL reads an interval as the duration that it was written for. -/
theorem readPhrase_interval (u : Duration) :
    postgres.readPhrase (intervalText u) = some u.lapse := by
  rw [intervalText, String.append_assoc, readPhrase_append (unitName u.unit) (isNumeric_toString _)
    (readDecimal_toString _) rfl (lookup_unitName u.unit), value_integer]
  rfl

/-- The amount of a unit up to which a dialect tells it from others. SQLite counts fractions of a
second in doubles, which are too coarse behind that. -/
def limit : Dialect → DurationUnit → Option ℕ
  | .sqlite, .milliseconds => some (2 ^ 43 * 10 ^ 3)
  | .sqlite, .microseconds => some (2 ^ 33 * 10 ^ 6)
  | _, _ => none

/-- A duration that a dialect tells from others. -/
def Tells (d : Dialect) (u : Duration) : Prop :=
  ∀ n ∈ d.limit u.unit, u.amount.toInt.natAbs < n

instance (d : Dialect) (u : Duration) : Decidable (d.Tells u) :=
  inferInstanceAs (Decidable (∀ n ∈ d.limit u.unit, u.amount.toInt.natAbs < n))

/-- Fractions of a second are exact up to the amount where doubles are too coarse. -/
theorem readPhrase_seconds {n : ℤ} {k : ℕ} (hk : 10 ^ k < 2 ^ 53)
    (hlt : n.natAbs < wholeMantissa (10 ^ k)) :
    sqlite.readPhrase (Layout.seconds.write (ofFloat (Float.ofInt n / Float.ofNat (10 ^ k))) ++
      " seconds") = some (.microseconds (n / 10 ^ k * 10 ^ 6)) := by
  have hplain : ∀ p, Layout.seconds.isPlain p = true := fun _ => rfl
  obtain ⟨x, hread, hvalue⟩ := readDecimal_quotient hplain hk hlt
  refine (readPhrase_append (u := .seconds) "seconds" (isNumeric_write _ _) hread rfl rfl).trans ?_
  rw [hvalue]
  rfl

/-- SQLite reads a modifier as the duration that it was written for, if it is one that it tells from
others. -/
theorem readPhrase_modifier {u : Duration} (h : sqlite.Tells u) :
    sqlite.readPhrase (modifier u) = some u.lapse := by
  obtain ⟨unit, amount⟩ := u
  cases unit with
  | years => exact readPhrase_signed amount.toInt "years" rfl rfl
  | months => exact readPhrase_signed amount.toInt "months" rfl rfl
  | weeks =>
    have hdays : DurationUnit.days.lapse.times ((amount.toInt * 7 : ℤ) : ℚ) =
        DurationUnit.weeks.lapse.times amount.toInt := by
      refine congrArg Lapse.microseconds ?_
      push_cast
      ring
    exact (readPhrase_signed (amount.toInt * 7) "days" rfl rfl).trans (congrArg some hdays)
  | days => exact readPhrase_signed amount.toInt "days" rfl rfl
  | hours => exact readPhrase_signed amount.toInt "hours" rfl rfl
  | minutes => exact readPhrase_signed amount.toInt "minutes" rfl rfl
  | seconds => exact readPhrase_signed amount.toInt "seconds" rfl rfl
  | milliseconds =>
    have hfloat : (1000.0 : Float) = Float.ofNat (10 ^ 3) := by decide +kernel
    have hbound : 2 ^ 43 * 10 ^ 3 = wholeMantissa (10 ^ 3) := by decide +kernel
    have hmillis : Lapse.microseconds ((amount.toInt : ℚ) / 10 ^ 3 * 10 ^ 6) =
        DurationUnit.milliseconds.lapse.times amount.toInt := by
      refine congrArg Lapse.microseconds ?_
      ring
    rw [modifier, hfloat, readPhrase_seconds (by decide) (hbound ▸ h _ rfl), hmillis]
    rfl
  | microseconds =>
    have hfloat : (1000000.0 : Float) = Float.ofNat (10 ^ 6) := by decide +kernel
    have hbound : 2 ^ 33 * 10 ^ 6 = wholeMantissa (10 ^ 6) := by decide +kernel
    have hmicros : Lapse.microseconds ((amount.toInt : ℚ) / 10 ^ 6 * 10 ^ 6) =
        DurationUnit.microseconds.lapse.times amount.toInt := by
      refine congrArg Lapse.microseconds ?_
      ring
    rw [modifier, hfloat, readPhrase_seconds (by decide) (hbound ▸ h _ rfl), hmicros]
    rfl

/-- The words are an amount and a unit with a blank between them, that MySQL reads as a length of
time. -/
def IsQuantity (words : String) (l : Lapse) : Prop :=
  ∃ amount unit, words = amount ++ " " ++ unit ∧ IsNumeric amount.toList ∧
    wordDepth 0 unit = some 0 ∧ mysql.readQuantity amount.toList unit.toList = some l

theorem isQuantity_toString (n : ℤ) (unit : String) (hword : word = " " ++ unit)
    (hunit : wordDepth 0 unit = some 0) (hu : mysql.units.lookup unit = some u) :
    IsQuantity (toString n ++ word) (u.lapse.times n) := by
  refine ⟨toString n, unit, ?_, isNumeric_toString n, hunit, ?_⟩
  · rw [hword, String.append_assoc]
  · rw [readQuantity_eq unit (readDecimal_toString n) hu, value_integer]

/-- MySQL reads the words of an interval as the duration that they were written for. -/
theorem isQuantity_intervalWords (u : Duration) : IsQuantity (intervalWords u) u.lapse := by
  obtain ⟨unit, amount⟩ := u
  cases unit with
  | years => exact isQuantity_toString amount.toInt "YEAR" rfl rfl rfl
  | months => exact isQuantity_toString amount.toInt "MONTH" rfl rfl rfl
  | weeks => exact isQuantity_toString amount.toInt "WEEK" rfl rfl rfl
  | days => exact isQuantity_toString amount.toInt "DAY" rfl rfl rfl
  | hours => exact isQuantity_toString amount.toInt "HOUR" rfl rfl rfl
  | minutes => exact isQuantity_toString amount.toInt "MINUTE" rfl rfl rfl
  | seconds => exact isQuantity_toString amount.toInt "SECOND" rfl rfl rfl
  | milliseconds =>
    have hmicros : DurationUnit.microseconds.lapse.times ((amount.toInt * 1000 : ℤ) : ℚ) =
        DurationUnit.milliseconds.lapse.times amount.toInt := by
      refine congrArg Lapse.microseconds ?_
      push_cast
      ring
    have hwords : IsQuantity (toString (amount.toInt * 1000) ++ " MICROSECOND")
        (DurationUnit.microseconds.lapse.times ((amount.toInt * 1000 : ℤ) : ℚ)) :=
      isQuantity_toString (amount.toInt * 1000) "MICROSECOND" rfl rfl rfl
    rwa [hmicros] at hwords
  | microseconds => exact isQuantity_toString amount.toInt "MICROSECOND" rfl rfl rfl

end Dialect

/-! ### Texts as fields -/

namespace Glyph

theorem spaced_cons {f : List Glyph} {fs : List (List Glyph)} (hne : fs ≠ []) :
    spaced (f :: fs) = f ++ .plain ' ' :: spaced fs := by
  cases fs with
  | nil => exact absurd rfl hne
  | cons g fs => rfl

theorem spaced_append_cons {f g : List Glyph} {fs : List (List Glyph)} :
    spaced ((f ++ .plain ' ' :: g) :: fs) = spaced (f :: g :: fs) := by
  cases fs with
  | nil => rfl
  | cons h fs => exact List.append_assoc _ _ _

/-- All fields but the last end in a comma. -/
def withCommas : List (List Glyph) → List (List Glyph)
  | [] => []
  | [field] => [field]
  | field :: next :: rest => (field ++ [.plain ',']) :: withCommas (next :: rest)

theorem withCommas_ne_nil : ∀ {fs : List (List Glyph)}, fs ≠ [] → withCommas fs ≠ []
  | [], hne => absurd rfl hne
  | [_], _ => List.cons_ne_nil _ _
  | _ :: _ :: _, _ => List.cons_ne_nil _ _

theorem dropComma_append (field : List Glyph) : dropComma (field ++ [.plain ',']) = some field := by
  simp [dropComma]

theorem dropCommas_withCommas : ∀ fs : List (List Glyph), dropCommas (withCommas fs) = some fs
  | [] => rfl
  | [_] => rfl
  | f :: g :: fs => by
    have hrest : dropCommas (withCommas (g :: fs)) = some (g :: fs) := dropCommas_withCommas _
    obtain ⟨h, hs, heq⟩ := List.exists_cons_of_ne_nil (withCommas_ne_nil (List.cons_ne_nil g fs))
    rw [withCommas, heq, dropCommas, dropComma_append, ← heq, hrest]
    rfl

theorem isField_withCommas : ∀ {fs : List (List Glyph)},
    (∀ f ∈ fs, IsField f) → ∀ f ∈ withCommas fs, IsField f
  | [], h => h
  | [_], h => h
  | f :: g :: fs, h => by
    intro x hx
    rcases List.mem_cons.mp hx with rfl | hx
    · exact (h f List.mem_cons_self).comma
    · exact isField_withCommas (fun y hy => h y (List.mem_cons_of_mem f hy)) x hx

theorem plainChars_word (w : String) : plainChars (word w) = some w.toList := by
  have hchars : ∀ s : List Char, plainChars (s.map .plain) = some s := by
    intro s
    induction s with
    | nil => rfl
    | cons c s ih =>
      rw [plainChars] at ih ⊢
      rw [List.map_cons, List.mapM_cons, ih]
      rfl
  exact hchars w.toList

end Glyph

namespace Dialect

variable {d : Dialect}

/-- Pieces with commas between them are fields. -/
theorem glyphs_commas : ∀ pieces : List Sql,
    d.glyphs (Sql.commas pieces) = spaced (withCommas (pieces.map d.glyphs))
  | [] => rfl
  | [_] => rfl
  | p :: q :: rest => by
    have hne : withCommas ((q :: rest).map d.glyphs) ≠ [] :=
      withCommas_ne_nil (List.cons_ne_nil _ _)
    have hfields : withCommas ((p :: q :: rest).map d.glyphs) =
        (d.glyphs p ++ [.plain ',']) :: withCommas ((q :: rest).map d.glyphs) := rfl
    have hpieces : Sql.commas (p :: q :: rest) = p ++ .word ", " :: Sql.commas (q :: rest) := rfl
    rw [hpieces, glyphs_append, glyphs_cons, glyphs_commas (q :: rest), hfields, spaced_cons hne,
      List.append_assoc]
    rfl

/-- Fields are found between the brackets that they stand in. -/
theorem inBrackets_between (opening : String) {sql : Sql} {fs : List (List Glyph)}
    (hfs : d.glyphs sql = spaced fs) (hne : fs ≠ [])
    (h : ∀ f ∈ fs, IsField f) :
    inBrackets opening (d.glyphs (Sql.between opening sql ")")) = some fs := by
  have hglyphs : d.glyphs (Sql.between opening sql ")") =
      Glyph.word opening ++ (spaced fs ++ [.plain ')']) := by
    rw [Sql.between, List.cons_append, glyphs_cons, glyphs_append, hfs]
    rfl
  rw [hglyphs, inBrackets_spaced hne h]

/-- An interval of PostgreSQL. -/
def interval (u : Duration) : Sql := [.word "INTERVAL ", .fixed (intervalText u)]

/-- The fields of an interval that is added. -/
def termFields (u : Duration) : List (List Glyph) :=
  [Glyph.word "+", Glyph.word "INTERVAL", [.quoted '\'' (intervalText u)]]

/-- A date and the intervals that are added to it are fields. -/
theorem glyphs_sum (date : Sql) (durations : List Duration) :
    postgres.glyphs (Sql.separated " + " (date :: durations.map interval)) =
      spaced (postgres.glyphs date :: durations.flatMap termFields) := by
  induction durations generalizing date with
  | nil => rfl
  | cons u rest ih =>
    have hpieces : Sql.separated " + " (date :: (u :: rest).map interval) =
        date ++ .word " + " :: Sql.separated " + " (interval u :: rest.map interval) := rfl
    have hterm : postgres.glyphs (interval u) =
        Glyph.word "INTERVAL" ++ .plain ' ' :: [.quoted '\'' (intervalText u)] := rfl
    rw [hpieces, glyphs_append, glyphs_cons, ih, hterm, spaced_append_cons]
    rfl

end Dialect

/-! ### Dates -/

namespace Dialect

variable {d : Dialect}

/-- The reader sees tokens that keep apart. -/
theorem scan_of_apart {sql : Sql} (h : sql.Apart) : d.scan (d.text sql) = some (d.glyphs sql) := by
  obtain ⟨b, hf⟩ := h
  have hseen : ∀ {b gs r}, Shows d b gs r → seenAtEnd r = some gs := by
    rintro _ _ _ (_ | _) <;> rfl
  have hshows := hseen (Shows.readSql hf (.outside []))
  rwa [scan, text, String.toList_ofList]

theorem mapM_readModifier : ∀ {durations : List Duration}, (∀ u ∈ durations, sqlite.Tells u) →
    (durations.map fun u => sqlite.glyphs [.fixed (modifier u)]).mapM readModifier =
      some (durations.map Duration.lapse)
  | [], _ => rfl
  | u :: rest, h => by
    have hu : readModifier (sqlite.glyphs [.fixed (modifier u)]) = some u.lapse :=
      readPhrase_modifier (h u List.mem_cons_self)
    rw [List.map_cons, List.mapM_cons, hu,
      mapM_readModifier fun v hv => h v (List.mem_cons_of_mem u hv)]
    rfl

/-- SQLite's modifiers are read behind the date. -/
theorem readModified_datePlus {date : Sql} (hdate : Closed sqlite date) {durations : List Duration}
    (h : ∀ u ∈ durations, sqlite.Tells u) :
    readModified (sqlite.glyphs (sqlite.datePlus date durations)) =
      some (sqlite.glyphs date, durations.map Duration.lapse) := by
  have hne : (date :: durations.map fun u => [.fixed (modifier u)]).map sqlite.glyphs ≠ [] :=
    List.cons_ne_nil _ _
  have hfield : ∀ f ∈ (date :: durations.map fun u => [.fixed (modifier u)]).map sqlite.glyphs,
      IsField f := by
    intro f hf
    obtain ⟨p, hp, rfl⟩ := List.mem_map.mp hf
    rcases List.mem_cons.mp hp with rfl | hp
    · exact hdate
    · obtain ⟨u, -, rfl⟩ := List.mem_map.mp hp
      rfl
  have hfields := inBrackets_between "datetime(" (glyphs_commas _)
    (withCommas_ne_nil hne) (isField_withCommas hfield)
  rw [readModified, datePlus, hfields, Option.bind_eq_bind, Option.bind_some, dropCommas_withCommas,
    Option.bind_eq_bind, Option.bind_some, List.map_cons, List.map_map]
  have hmodifiers := mapM_readModifier h
  simp only [Function.comp_def, hmodifiers]
  rfl

theorem readTerms_terms : ∀ durations : List Duration,
    readTerms (durations.flatMap termFields) = some (durations.map Duration.lapse)
  | [] => rfl
  | u :: rest => by
    rw [List.flatMap_cons, termFields]
    simp only [List.cons_append, List.nil_append, readTerms, and_self, if_true,
      readPhrase_interval, readTerms_terms rest]
    rfl

theorem isField_termFields (u : Duration) : ∀ f ∈ termFields u, IsField f := by
  intro f hf
  simp only [termFields, List.mem_cons, List.not_mem_nil, or_false] at hf
  rcases hf with rfl | rfl | rfl <;> rfl

/-- PostgreSQL's intervals are read behind the date. -/
theorem readSum_datePlus {date : Sql} (hdate : Closed postgres date) (durations : List Duration) :
    readSum (postgres.glyphs (postgres.datePlus date durations)) =
      some (postgres.glyphs date, durations.map Duration.lapse) := by
  have hfield : ∀ f ∈ postgres.glyphs date :: durations.flatMap termFields, IsField f := by
    intro f hf
    rcases List.mem_cons.mp hf with rfl | hf
    · exact hdate
    · obtain ⟨u, -, hu⟩ := List.mem_flatMap.mp hf
      exact isField_termFields u f hu
  have hsum : postgres.datePlus date durations =
      Sql.between "(" (Sql.separated " + " (date :: durations.map interval)) ")" := rfl
  have hfields := inBrackets_between "(" (glyphs_sum date durations) (List.cons_ne_nil _ _) hfield
  rw [readSum, hsum, hfields, Option.bind_eq_bind, Option.bind_some]
  simp only [readTerms_terms, Option.bind_eq_bind, Option.bind_some]
  rfl

/-- The fields in a call of MySQL that moves a date. -/
theorem glyphs_call (date : Sql) {amount unit words : String}
    (hwords : words = amount ++ " " ++ unit) :
    mysql.glyphs (Sql.between "DATE_ADD(" date (", INTERVAL " ++ words ++ ")")) =
      Glyph.word "DATE_ADD(" ++ (spaced [mysql.glyphs date ++ [.plain ','], Glyph.word "INTERVAL",
        Glyph.word amount, Glyph.word unit] ++ [.plain ')']) := by
  subst hwords
  simp [Sql.between, spaced, Token.glyphs, Token.chars, Glyph.word]

/-- MySQL's intervals are read around the date, the innermost first. -/
theorem readCalls_datePlus {date : Sql} (hdate : Closed mysql date) (durations : List Duration) :
    readCalls durations.length (mysql.glyphs (mysql.datePlus date durations)) =
      some (mysql.glyphs date, durations.map Duration.lapse) := by
  induction durations using List.reverseRecOn with
  | nil => rfl
  | append_singleton durations u ih =>
    obtain ⟨amount, unit, hwords, hamount, hunit, hread⟩ := isQuantity_intervalWords u
    have hcall : mysql.datePlus date (durations ++ [u]) = Sql.between "DATE_ADD("
        (mysql.datePlus date durations) (", INTERVAL " ++ intervalWords u ++ ")") :=
      List.foldl_append
    have hfield : ∀ f ∈ [mysql.glyphs (mysql.datePlus date durations) ++ [.plain ','],
        Glyph.word "INTERVAL", Glyph.word amount, Glyph.word unit], IsField f := by
      intro f hf
      simp only [List.mem_cons, List.not_mem_nil, or_false] at hf
      rcases hf with rfl | rfl | rfl | rfl
      · exact IsField.comma (closed_datePlus hdate durations)
      · rfl
      · exact depthBehind_of_isNumeric hamount
      · exact hunit
    rw [hcall, glyphs_call _ hwords, List.length_append, List.length_singleton, readCalls,
      inBrackets_spaced (List.cons_ne_nil _ _) hfield]
    simp only [Option.bind_eq_bind, Option.bind_some, dropComma_append, ih, plainChars_word, hread,
      if_true, List.map_append, List.map_singleton]

theorem readDate_datePlus {date : Sql} (hdate : Closed d date) {durations : List Duration}
    (h : ∀ u ∈ durations, d.Tells u) :
    d.readDate durations.length (d.glyphs (d.datePlus date durations)) =
      some (d.glyphs date, durations.map Duration.lapse) := by
  cases d with
  | sqlite => exact readModified_datePlus hdate h
  | postgres => exact readSum_datePlus hdate durations
  | mysql => exact readCalls_datePlus hdate durations

/-- **The durations that a date is moved by are read from its text**, each as long as it is and the
first one first, and the date is what they move. -/
theorem readMoves_datePlus (d : Dialect) (date : Operation) (durations : List Duration)
    (h : ∀ u ∈ durations, d.Tells u) :
    d.readMoves durations.length (d.text (d.operation (.datePlus date durations))) =
      some (d.text (d.operation date), durations.map Duration.lapse) := by
  have hoperation : d.operation (.datePlus date durations) =
      d.datePlus (d.operation date) durations := by rw [operation]
  rw [readMoves, scan_of_apart (apart_operation d _), hoperation, Option.bind_eq_bind,
    Option.bind_some, readDate_datePlus (closed_operation date) h, Option.bind_eq_bind,
    Option.bind_some]
  simp only [List.length_map, if_true, ← chars_eq_flatMap]
  rfl

/-- The greatest amounts of some units. -/
theorem readMoves_datePlus_greatest :
    (∀ u ∈ [(⟨.weeks, Int64.maxValue⟩ : Duration), ⟨.years, Int64.minValue⟩,
      ⟨.milliseconds, 8796093022207999⟩, ⟨.microseconds, -8589934591999999⟩], sqlite.Tells u) ∧
    sqlite.readMoves 4
      ("datetime('a', '+64563604257983430649 days', '-9223372036854775808 years', " ++
        "'+8796093022207.999 seconds', '-8589934591.999999 seconds')") =
      some ("'a'", [⟨.weeks, Int64.maxValue⟩, ⟨.years, Int64.minValue⟩,
        ⟨.milliseconds, 8796093022207999⟩, ⟨.microseconds, -8589934591999999⟩].map
          Duration.lapse) := by
  have htext : sqlite.text (sqlite.operation (.datePlus (.value (.string "a"))
      [⟨.weeks, Int64.maxValue⟩, ⟨.years, Int64.minValue⟩, ⟨.milliseconds, 8796093022207999⟩,
        ⟨.microseconds, -8589934591999999⟩])) =
      "datetime('a', '+64563604257983430649 days', '-9223372036854775808 years', " ++
        "'+8796093022207.999 seconds', '-8589934591.999999 seconds')" := by
    decide +kernel
  have hdate : sqlite.text (sqlite.operation (.value (.string "a"))) = "'a'" := by decide +kernel
  rw [← htext, ← hdate]
  exact ⟨by decide, readMoves_datePlus .sqlite (.value (.string "a")) _ (by decide)⟩

/-- Behind its limit an amount of microseconds may be read as another one. -/
theorem readMoves_lost : ¬ ∀ (d : Dialect) (date : Operation) (durations : List Duration),
    d.readMoves durations.length (d.text (d.operation (.datePlus date durations))) =
      some (d.text (d.operation date), durations.map Duration.lapse) := by
  intro h
  have htext : sqlite.text (sqlite.operation (.datePlus (.value (.string "a"))
      [⟨.microseconds, 8589934592000001⟩])) =
      "datetime('a', '+8589934592.000002 seconds')" := by
    decide +kernel
  have hread : sqlite.readMoves 1 "datetime('a', '+8589934592.000002 seconds')" = some ("'a'",
      [DurationUnit.seconds.lapse.times (Scientific.value ⟨false, 8589934592000002, -6⟩)]) := by
    cbv
  have hgiven := h .sqlite (.value (.string "a")) [⟨.microseconds, 8589934592000001⟩]
  rw [htext, List.length_singleton, hread] at hgiven
  have hamount : (8589934592000001 : Int64).toInt = 8589934592000001 := by decide
  simp only [Option.some.injEq, Prod.mk.injEq, List.map_singleton, List.cons.injEq, Duration.lapse,
    DurationUnit.lapse, Lapse.times, Lapse.microseconds.injEq, Scientific.value, hamount] at hgiven
  norm_num at hgiven

end Dialect

end SqlRecords
