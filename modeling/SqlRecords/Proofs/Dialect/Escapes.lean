import Mathlib.Data.List.Basic
import SqlRecords.Dialect.Expression

/-!
# String literals where a backslash escapes

The strings of a statement are written between single quotes, with a quote inside them
written twice. A MySQL server in its default mode reads more into a literal than that: a
backslash takes the character behind it along, so that the two stand for something else
together, and a quote behind a backslash neither ends the literal nor needs a second one.

`readLiteral` reads a literal in this way; what a backslash and its character stand for is
up to `escaped`. A `StringSite` is a place in an expression where a string is written.

## What is proved

* `readContent_doubled`: a text without a backslash is read back as it is, whatever
  backslashes stand for.
* `length_lt_of_backslash`: a text with a backslash never is. If a literal is read that
  ends where it should, it is shorter than the text it was written from.
* **`mysql_readLiteral_iff`**: the string at any site is read back, with nothing of what
  follows it, if and only if it holds no backslash.
-/

namespace SqlRecords.Dialect

open Text

/-! ### Reading a literal -/

/-- The content of a literal up to the quote that ends it, and what follows. -/
def readContent (escaped : Char → List Char) : List Char → Option (List Char × List Char)
  | [] => none
  | c :: rest =>
    if c = '\'' then
      match rest with
      | d :: more =>
        if d = '\'' then (readContent escaped more).map fun (s, rest) => ('\'' :: s, rest)
        else some ([], d :: more)
      | [] => some ([], [])
    else if c = '\\' then
      match rest with
      | d :: more => (readContent escaped more).map fun (s, rest) => (escaped d ++ s, rest)
      | [] => none
    else (readContent escaped rest).map fun (s, rest) => (c :: s, rest)

/-- The content of the literal that a text begins with, and what follows it. -/
def readLiteral (escaped : Char → List Char) : List Char → Option (List Char × List Char)
  | '\'' :: rest => readContent escaped rest
  | _ => none

variable {escaped : Char → List Char} {following : List Char}

theorem readContent_plain {c : Char} (hquote : c ≠ '\'') (hslash : c ≠ '\\') (rest : List Char) :
    readContent escaped (c :: rest) =
      (readContent escaped rest).map fun p => (c :: p.1, p.2) := by
  rw [readContent.eq_def]
  simp [hquote, hslash]

theorem readContent_quotes (rest : List Char) :
    readContent escaped ('\'' :: '\'' :: rest) =
      (readContent escaped rest).map fun p => ('\'' :: p.1, p.2) := by
  rw [readContent.eq_def]
  simp

theorem readContent_escape (c : Char) (rest : List Char) :
    readContent escaped ('\\' :: c :: rest) =
      (readContent escaped rest).map fun p => (escaped c ++ p.1, p.2) := by
  rw [readContent.eq_def]
  simp

/-- A quote with no second one behind it ends a literal. -/
theorem readContent_end (hnext : following.head? ≠ some '\'') :
    readContent escaped ('\'' :: following) = some ([], following) := by
  rw [readContent.eq_def]
  cases following with
  | nil => simp
  | cons c rest =>
    have hc : c ≠ '\'' := by simpa using hnext
    simp [hc]

/-- A text without a backslash is read as it is, and so is what follows it. -/
theorem readContent_doubled_append {s : List Char} (hs : '\\' ∉ s) (rest : List Char) :
    readContent escaped (doubled '\'' s ++ rest) =
      (readContent escaped rest).map fun p => (s ++ p.1, p.2) := by
  induction s with
  | nil => simp
  | cons c s ih =>
    rw [List.mem_cons, not_or] at hs
    have hstep := ih hs.2
    by_cases hc : c = '\''
    · subst hc
      simp [doubled, readContent_quotes, hstep, Function.comp_def]
    · simp [doubled, hc, readContent_plain hc (Ne.symm hs.1), hstep, Function.comp_def]

/-- A text without a backslash is read back from its literal. -/
theorem readContent_doubled {s : List Char} (hs : '\\' ∉ s)
    (hnext : following.head? ≠ some '\'') :
    readContent escaped (doubled '\'' s ++ '\'' :: following) = some (s, following) := by
  rw [readContent_doubled_append hs, readContent_end hnext]
  simp

/-! ### Texts with a backslash

Every character that is read costs two in `weight`: itself, if it stands for itself, or a
pair of quotes, which count one each. The quote that ends a literal costs one more. So the
literal of a text weighs what reading the text costs, unless a backslash is spent on the way. -/

/-- What the characters of a text weigh: a quote half as much as any other. -/
def weight : List Char → Nat
  | [] => 0
  | c :: s => (if c = '\'' then 1 else 2) + weight s

@[simp] theorem weight_nil : weight [] = 0 := rfl

@[simp] theorem weight_cons (c : Char) (s : List Char) :
    weight (c :: s) = (if c = '\'' then 1 else 2) + weight s := rfl

theorem weight_append (s t : List Char) : weight (s ++ t) = weight s + weight t := by
  induction s with
  | nil => exact (Nat.zero_add _).symm
  | cons c s ih => rw [List.cons_append, weight_cons, ih, weight_cons, Nat.add_assoc]

theorem weight_doubled (s : List Char) : weight (doubled '\'' s) = 2 * s.length := by
  induction s with
  | nil => rfl
  | cons c s ih => by_cases hc : c = '\'' <;> simp [doubled, hc, ih] <;> omega

/-- Reading costs at least two for every character and one for the end, where a backslash makes the
next character stand for itself. -/
theorem weight_of_readContent : ∀ {t s rest : List Char},
    readContent List.singleton t = some (s, rest) → 2 * s.length + 1 + weight rest ≤ weight t
  | [], _, _, h => by cases h
  | c :: t, s, rest, h => by
    by_cases hquote : c = '\''
    · subst hquote
      cases t with
      | nil =>
        cases h
        simp
      | cons d t =>
        by_cases hd : d = '\''
        · subst hd
          rw [readContent_quotes, Option.map_eq_some_iff] at h
          obtain ⟨⟨s', rest'⟩, hread, heq⟩ := h
          cases heq
          have ih := weight_of_readContent hread
          simp only [weight_cons, List.length_cons, if_true]
          omega
        · rw [readContent_end (by simpa using hd)] at h
          cases h
          simp
    · by_cases hslash : c = '\\'
      · subst hslash
        cases t with
        | nil => cases h
        | cons d t =>
          rw [readContent_escape, Option.map_eq_some_iff] at h
          obtain ⟨⟨s', rest'⟩, hread, heq⟩ := h
          cases heq
          have ih := weight_of_readContent hread
          simp [List.singleton]
          split <;> omega
      · rw [readContent_plain hquote hslash, Option.map_eq_some_iff] at h
        obtain ⟨⟨s', rest'⟩, hread, heq⟩ := h
        cases heq
        have ih := weight_of_readContent hread
        simp [hquote]
        omega

/-- A text with a backslash is read back shorter than it is, if its literal is read to its end. -/
theorem length_lt_of_backslash {s t : List Char} (hs : '\\' ∈ s)
    (hread : readContent List.singleton (doubled '\'' s ++ '\'' :: following) =
      some (t, following)) : t.length < s.length := by
  obtain ⟨before, behind, rfl, hbefore⟩ := List.eq_append_cons_of_mem hs
  have hdoubled : doubled '\'' (before ++ '\\' :: behind) ++ '\'' :: following =
      doubled '\'' before ++ '\\' :: (doubled '\'' behind ++ '\'' :: following) := by
    simp [doubled_append, doubled]
  -- the character that the backslash takes along, at the latest the quote at the end
  obtain ⟨c, rest, hrest⟩ : ∃ c rest, doubled '\'' behind ++ '\'' :: following = c :: rest :=
    List.exists_cons_of_ne_nil (by simp)
  rw [hdoubled, readContent_doubled_append hbefore, hrest, readContent_escape, Option.map_map,
    Option.map_eq_some_iff] at hread
  obtain ⟨⟨t', rest'⟩, hread, heq⟩ := hread
  simp only [Function.comp, Prod.mk.injEq] at heq
  obtain ⟨rfl, rfl⟩ := heq
  have hcost := weight_of_readContent hread
  have hweight := congrArg weight hrest
  rw [weight_append, weight_doubled, weight_cons, weight_cons, if_pos rfl] at hweight
  have hc : 1 ≤ if c = '\'' then 1 else 2 := by split <;> omega
  simp only [List.length_append, List.length_cons, List.singleton, List.length_nil]
  omega

/-! ### Sites of a string -/

/-- A place in an expression where a string is written. -/
inductive StringSite where
  /-- A literal. -/
  | literal
  /-- The operand of an aggregate. -/
  | aggregated (f : AggregateFunction)
  /-- The pattern that something has to match. -/
  | pattern (arg : Operation)
  /-- The pattern that something must not match. -/
  | antipattern (arg : Operation)
  /-- The characters that are removed from the ends of something. -/
  | trimmed (side : TrimSide) (arg : Operation)

/-- The expression with a string at a site. -/
def StringSite.sql (d : Dialect) (s : String) : StringSite → Sql
  | .literal => d.operation (.value (.string s))
  | .aggregated f => d.operation (.aggregate (.of f (.value (.string s))))
  | .pattern arg => d.condition (.like arg s)
  | .antipattern arg => d.condition (.notLike arg s)
  | .trimmed side arg => d.operation (.trim side arg s)

/-- At any site a string is a token of its own, and what stands around it is the same for all. -/
theorem StringSite.sql_mysql (site : StringSite) :
    ∃ before behind : Sql, ∀ s, site.sql .mysql s = before ++ .string s :: behind := by
  cases site with
  | literal => exact ⟨[], [], fun _ => rfl⟩
  | aggregated f => exact ⟨[.word (aggregateOpening f)], [.word ")"], fun _ => rfl⟩
  | pattern arg =>
    refine ⟨Dialect.mysql.operation arg ++ [.word " LIKE "], [], fun s => ?_⟩
    simp [sql, condition]
  | antipattern arg =>
    refine ⟨Dialect.mysql.operation arg ++ [.word " NOT LIKE "], [], fun s => ?_⟩
    simp [sql, condition]
  | trimmed side arg =>
    refine ⟨[.word ("TRIM(" ++ trimWord side ++ " ")],
      .word " FROM " :: Dialect.mysql.operation arg ++ [.word ")"], fun s => ?_⟩
    simp [sql, operation, trim]

/-- **Which strings are read back where a backslash escapes.** At any site the text of a statement
holds a literal for the string. In front of anything but a quote it is read as one literal up to
its end, and its value is the string, if the string holds no backslash; what backslashes stand for
makes no difference then. If the string holds one, and a backslash makes the next character stand
for itself, the literal is never read so. -/
theorem mysql_readLiteral_iff (site : StringSite) :
    ∃ before behind : List Char, ∀ s : String, ∃ literal : List Char,
      Dialect.mysql.chars (site.sql .mysql s) = before ++ literal ++ behind ∧
        ∀ following : List Char, following.head? ≠ some '\'' →
          ('\\' ∉ s.toList → ∀ escaped : Char → List Char,
            readLiteral escaped (literal ++ following) = some (s.toList, following)) ∧
          ('\\' ∈ s.toList →
            readLiteral List.singleton (literal ++ following) ≠ some (s.toList, following)) := by
  obtain ⟨before, behind, hsql⟩ := site.sql_mysql
  refine ⟨Dialect.mysql.chars before, Dialect.mysql.chars behind, fun s =>
    ⟨enclosed '\'' s.toList, ?_, fun following hnext => ⟨fun hs escaped => ?_, fun hs hread => ?_⟩⟩⟩
  · rw [hsql s, chars_append, chars_cons, List.append_assoc]
    rfl
  · have hread : readContent escaped (doubled '\'' s.toList ++ '\'' :: following) =
        some (s.toList, following) := readContent_doubled hs hnext
    simpa [enclosed, readLiteral] using hread
  · have hshort : s.toList.length < s.toList.length :=
      length_lt_of_backslash hs (by simpa [enclosed, readLiteral] using hread)
    exact Nat.lt_irrefl _ hshort

/-- Quotes and percent signs among the characters to trim, in the middle of an expression. -/
theorem mysql_readLiteral_quoted :
    let site : StringSite := .trimmed .both (.column (.named "c"))
    let following := " FROM \x60c\x60)".toList
    ∃ literal before behind : List Char,
      Dialect.mysql.chars (site.sql .mysql "it's 5%'") = before ++ literal ++ behind ∧
        following.head? ≠ some '\'' ∧ '\\' ∉ "it's 5%'".toList ∧
        readLiteral List.singleton (literal ++ following) =
          some ("it's 5%'".toList, following) := by
  intro site following
  obtain ⟨before, behind, hsite⟩ := mysql_readLiteral_iff site
  obtain ⟨literal, hsql, hread⟩ := hsite "it's 5%'"
  have hnext : following.head? ≠ some '\'' := by decide
  have hplain : '\\' ∉ "it's 5%'".toList := by decide
  exact ⟨literal, before, behind, hsql, hnext, hplain, (hread following hnext).1 hplain _⟩

/-- A single backslash takes the quote that should end its literal along. What follows is read as a
part of the string, up to the quote that should begin the next one. -/
theorem readLiteral_single_backslash :
    let literal := Dialect.mysql.chars (StringSite.literal.sql .mysql "\\")
    let following := " AND c = ' OR TRUE".toList
    following.head? ≠ some '\'' ∧
      readLiteral List.singleton (literal ++ following) =
        some ("' AND c = ".toList, " OR TRUE".toList) := by
  decide +kernel

end SqlRecords.Dialect
