import SqlRecords.Proofs.Sqlite.Lexing
import SqlRecords.Proofs.Sqlite.Meaning

/-!
# Reading a filter back

SQLite gets a condition as text. The text is cut into lexemes, and from the lexemes the
expression is read again by the precedence of operators. Here it is shown that this
gives the tree that the text was written from, however deep the condition nests.

The lexemes of an operation stand in brackets or are a literal or a name, so that
nothing behind them can become a part of the operation. The sides of AND and OR and
what NOT denies stand in brackets too; the sides of a comparison are operations. So the
operators that are read next to one another are never two that compete.

## What is proved

* `readsAs_operation`, `readsAs_condition`: the text of an operation or a condition is
  cut into the lexemes `Lexeme.ofOperation` or `Lexeme.ofCondition` says.
* `readOperand_operation`, `readFrom_condition`: from these lexemes the tree is read, in
  three steps for each of them.
* **`ofText?_condition`**: the text of a condition is read back as its tree.
-/

namespace SqlRecords.Sqlite

open Text Decimal

variable {s : Schema}

/-! ### Lexemes -/

namespace Lexeme

/-- The number without a sign that a whole number is written with. -/
def magnitude (n : Int) : Lexeme := .number true ⟨false, n.natAbs, 0⟩

/-- The lexemes of an operation. -/
def ofOperation : Operation → List Lexeme
  | .column c =>
    match c.tableAlias with
    | some t => [.name t, .sign ".", .name c.name]
    | none => [.name c.name]
  | .value (.integer n) =>
    if n.toInt < 0 then [.sign "-", magnitude n.toInt] else [magnitude n.toInt]
  | .value (.string t) => [.string t]
  | .arith o lhs rhs =>
    .sign "(" :: (ofOperation lhs ++ .sign (Dialect.arithmeticSign o) ::
      (ofOperation rhs ++ [.sign ")"]))
  | _ => []

/-- The lexemes of a condition. -/
def ofCondition : Condition → List Lexeme
  | .and lhs rhs =>
    .sign "(" :: (ofCondition lhs ++ .sign ")" :: .word "and" :: .sign "(" ::
      (ofCondition rhs ++ [.sign ")"]))
  | .or lhs rhs =>
    .sign "(" :: (ofCondition lhs ++ .sign ")" :: .word "or" :: .sign "(" ::
      (ofCondition rhs ++ [.sign ")"]))
  | .not c => .word "not" :: .sign "(" :: (ofCondition c ++ [.sign ")"])
  | .compare o lhs rhs =>
    ofOperation lhs ++ .sign (Dialect.comparisonSign o) :: ofOperation rhs
  | .isNull arg => ofOperation arg ++ [.word "is", .word "null"]
  | .isNotNull arg => ofOperation arg ++ [.word "is", .word "not", .word "null"]
  | .like _ _ | .notLike _ _ => []

variable {rest : List Char} {ls : List Lexeme}

theorem toList_spaced (sign : String) :
    (" " ++ sign ++ " ").toList = ' ' :: (sign.toList ++ [' ']) := by
  simp

theorem stops_spaced (sign : String) : Stops ((" " ++ sign ++ " ").toList ++ rest) := by
  rw [toList_spaced]
  exact stops_blank

/-- An arithmetic operator stands between blanks. -/
theorem ReadsAs.arithmetic {o : Arithmetic} (ho : o = .plus ∨ o = .minus ∨ o = .multiplies)
    (h : ReadsAs rest ls) :
    ReadsAs ((" " ++ Dialect.arithmeticSign o ++ " ").toList ++ rest)
      (.sign (Dialect.arithmeticSign o) :: ls) := by
  rw [toList_spaced]
  rcases ho with rfl | rfl | rfl
  all_goals exact (h.blank.cons rfl (by simp) rfl (Nat.le_refl _)).blank

/-- A comparison operator stands between blanks. -/
theorem ReadsAs.comparison (o : Comparison) (h : ReadsAs rest ls) :
    ReadsAs ((" " ++ Dialect.comparisonSign o ++ " ").toList ++ rest)
      (.sign (Dialect.comparisonSign o) :: ls) := by
  rw [toList_spaced]
  cases o
  all_goals simp only [Dialect.comparisonSign, String.reduceToList]
  all_goals exact (h.blank.cons rfl (by simp) rfl (by simp)).blank

/-- A whole number is read with its sign in front. -/
theorem ReadsAs.integer (n : Int) (h : ReadsAs rest ls) (hrest : Stops rest) :
    ReadsAs ((toString n).toList ++ rest)
      ((if n < 0 then [.sign "-", magnitude n] else [magnitude n]) ++ ls) := by
  have hdigits : ReadsAs (Nat.toDigits 10 n.natAbs ++ rest) (magnitude n :: ls) :=
    h.number n.natAbs hrest
  by_cases hn : n < 0
  · rw [toList_toString_of_neg hn, if_pos hn]
    refine hdigits.minus ?_
    have hminus : '-' ∉ Nat.toDigits 10 n.natAbs := fun hmem =>
      absurd (Nat.isDigit_of_mem_toDigits (by omega) (by omega) hmem) (by decide)
    cases hd : Nat.toDigits 10 n.natAbs with
    | nil => exact absurd hd Nat.toDigits_ne_nil
    | cons d ds =>
      rintro heq
      injection heq with heq
      exact hminus (hd ▸ heq ▸ List.mem_cons_self)
  · rw [toList_toString_of_nonneg hn, if_neg hn]
    exact hdigits

/-- Some characters are cut into some lexemes in front of every text that ends them. -/
def Spells (cs : List Char) (ls : List Lexeme) : Prop :=
  ∀ ⦃rest : List Char⦄ ⦃more : List Lexeme⦄, ReadsAs rest more → Stops rest →
    ReadsAs (cs ++ rest) (ls ++ more)

/-- The lexemes of a name that may stand behind another one and a point. -/
def qualified (front : Option String) (n : String) : List Lexeme :=
  match front with
  | some t => [.name t, .sign ".", .name n]
  | none => [.name n]

/-- Names are cut at the point between them. -/
theorem spells_qualified (front : Option String) (n : String) :
    Spells (Dialect.chars .sqlite
        (match front with
        | some t => [.name t, .word ".", .name n]
        | none => [.name n]))
      (qualified front n) := by
  intro rest more h hrest
  have hname : ReadsAs (enclosed '"' n.toList ++ rest) (.name n :: more) :=
    h.name n (hrest.head?_ne (by decide))
  cases front with
  | none => simpa [qualified, Token.chars, Dialect.identifierQuote] using hname
  | some t =>
    have hfront := (hname.point rfl).name t (by simp)
    simpa [qualified, Token.chars, Dialect.identifierQuote] using hfront

/-- A column is spelled with the name of its table in front, if that is given. -/
theorem spells_columnName (c : Column) :
    Spells (Dialect.chars .sqlite (Dialect.columnName c)) (ofOperation (.column c)) :=
  spells_qualified c.tableAlias c.name

/-- Two operations in brackets with an operator between them. -/
theorem Spells.arith {o : Arithmetic} (ho : o = .plus ∨ o = .minus ∨ o = .multiplies)
    {lhs rhs : Operation}
    (hl : Spells (Dialect.chars .sqlite (Dialect.operation .sqlite lhs)) (ofOperation lhs))
    (hr : Spells (Dialect.chars .sqlite (Dialect.operation .sqlite rhs)) (ofOperation rhs)) :
    Spells (Dialect.chars .sqlite (Dialect.operation .sqlite (.arith o lhs rhs)))
      (ofOperation (.arith o lhs rhs)) := by
  intro rest more h _
  have hright := hr (h.lone ')') stops_bracket
  have hleft := hl (hright.arithmetic ho) (stops_spaced _)
  have hwhole := hleft.lone '('
  rcases ho with rfl | rfl | rfl
  all_goals simpa [Dialect.operation, Dialect.arith, ofOperation, Token.chars] using hwhole

/-- The text of an operation is cut into its lexemes. -/
theorem spells_operation {op : Operation} (hop : op.IsBasic s) :
    Spells (Dialect.chars .sqlite (Dialect.operation .sqlite op)) (ofOperation op) := by
  induction hop with
  | column => exact spells_columnName _
  | integer n =>
    intro rest more h hrest
    have hread := h.integer n.toInt hrest
    simpa [Dialect.operation, Dialect.literal, ofOperation, Token.chars] using hread
  | string t =>
    intro rest more h hrest
    have hread := h.string t (hrest.head?_ne (by decide))
    simpa [Dialect.operation, Dialect.literal, ofOperation, Token.chars] using hread
  | plus _ _ ihl ihr => exact ihl.arith (.inl rfl) ihr
  | minus _ _ ihl ihr => exact ihl.arith (.inr (.inl rfl)) ihr
  | multiplies _ _ ihl ihr => exact ihl.arith (.inr (.inr rfl)) ihr

/-- The text of a condition is cut into its lexemes. -/
theorem spells_condition {c : Condition} (hc : c.IsBasic s) :
    Spells (Dialect.chars .sqlite (Dialect.condition .sqlite c)) (ofCondition c) := by
  induction hc with
  | and _ _ ihl ihr =>
    intro rest more h _
    have hright := (ihr (h.lone ')') stops_bracket).lone '('
    have hand := hright.keywords (endsWord_cons rfl) ") AND " [.sign ")", .word "and"] rfl rfl
    have hleft := ihl hand stops_bracket
    simpa [Dialect.condition, ofCondition, Token.chars] using hleft.lone '('
  | or _ _ ihl ihr =>
    intro rest more h _
    have hright := (ihr (h.lone ')') stops_bracket).lone '('
    have hor := hright.keywords (endsWord_cons rfl) ") OR " [.sign ")", .word "or"] rfl rfl
    have hleft := ihl hor stops_bracket
    simpa [Dialect.condition, ofCondition, Token.chars] using hleft.lone '('
  | not _ ih =>
    intro rest more h _
    have hinner := (ih (h.lone ')') stops_bracket).lone '('
    have hnot := hinner.keywords (endsWord_cons rfl) "NOT " [.word "not"] rfl rfl
    simpa [Dialect.condition, ofCondition, Token.chars, Sql.between] using hnot
  | compare o hl hr =>
    intro rest more h hrest
    have hright := spells_operation hr h hrest
    have hleft := spells_operation hl (hright.comparison o) (stops_spaced _)
    simpa [Dialect.condition, ofCondition, Token.chars] using hleft
  | isNull harg =>
    intro rest more h hrest
    have hnull := h.keywords hrest.endsWord " IS NULL" [.word "is", .word "null"] rfl rfl
    have hwhole := spells_operation harg hnull stops_blank
    simpa [Dialect.condition, ofCondition, Token.chars] using hwhole
  | isNotNull harg =>
    intro rest more h hrest
    have hnull := h.keywords hrest.endsWord " IS NOT NULL"
      [.word "is", .word "not", .word "null"] rfl rfl
    have hwhole := spells_operation harg hnull stops_blank
    simpa [Dialect.condition, ofCondition, Token.chars] using hwhole

/-- The lexemes of the text of a condition. -/
theorem read_condition {c : Condition} (hc : c.IsBasic s) :
    read (Dialect.chars .sqlite (Dialect.condition .sqlite c)) = some (ofCondition c) := by
  have h := spells_condition hc readsAs_nil trivial
  rw [List.append_nil, List.append_nil] at h
  exact h.read

end Lexeme

/-! ### Trees -/

namespace Written

/-- Nothing that could go on with an expression follows: the end, or neither an operator nor a test
for NULL nor a point. -/
def Closes : List Lexeme → Prop
  | [] => True
  | l :: rest => infixOf? l = none ∧ postfixOf? (l :: rest) = none ∧ l ≠ .sign "."

variable {rest : List Lexeme}

theorem closes_bracket : Closes (.sign ")" :: rest) := ⟨rfl, rfl, by simp⟩

theorem Closes.head?_ne (hrest : Closes rest) : rest.head? ≠ some (.sign ".") := by
  cases rest with
  | nil => simp
  | cons l rest => simpa using hrest.2.2

/-- Where an expression closes there are no operators to read. -/
theorem readOperators_closes (hrest : Closes rest) (steps level : Nat) (e : Written) :
    readOperators (steps + 1) level e rest = some (e, rest) := by
  cases rest with
  | nil => rfl
  | cons l rest =>
    obtain ⟨hoperator, htest, -⟩ := hrest
    simp only [readOperators, hoperator, htest]

/-- An operand with nothing behind it is an expression of every precedence. -/
theorem readFrom_operand {steps : Nat} {xs : List Lexeme} {e : Written} (level : Nat)
    (hoperand : readOperand (steps + 1) xs = some (e, rest)) (hrest : Closes rest) :
    readFrom (steps + 2) level xs = some (e, rest) := by
  simp only [readFrom, hoperand]
  exact readOperators_closes hrest steps level e

/-- Two expressions with an operator between them, with nothing behind. The one on the right is
read to bind tighter than the operator. -/
theorem readFrom_infix {steps level l : Nat} {xs ys : List Lexeme} {o : Lexeme}
    {build : Written → Written → Written} {e e' : Written}
    (hleft : readOperand (steps + 2) xs = some (e, o :: ys)) (ho : infixOf? o = some (l, build))
    (hnotest : postfixOf? (o :: ys) = none) (hlevel : level ≤ l)
    (hright : readFrom (steps + 1) (l + 1) ys = some (e', rest)) (hrest : Closes rest) :
    readFrom (steps + 3) level xs = some (build e e', rest) := by
  rw [readFrom, hleft]
  simp only [readOperators, hnotest, ho, if_pos hlevel, hright]
  exact readOperators_closes hrest steps level _

/-- An expression in brackets is an operand. -/
theorem readOperand_brackets {steps : Nat} {xs : List Lexeme} {e : Written}
    (h : readFrom steps 0 (xs ++ .sign ")" :: rest) = some (e, .sign ")" :: rest)) :
    readOperand (steps + 1) (.sign "(" :: (xs ++ .sign ")" :: rest)) = some (e, rest) := by
  simp only [readOperand, h]

/-! ### Operations -/

/-- A literal of 64 bits is read as an integer, the least one too. -/
theorem numberLiteral_natAbs (n : Int64) :
    numberLiteral (n.toInt < 0) true ⟨false, n.toInt.natAbs, 0⟩ = .integer n := by
  have hvalue : (if n.toInt < 0 then -(n.toInt.natAbs : Int) else n.toInt.natAbs) = n.toInt := by
    split <;> omega
  have hfits : fits n.toInt = true := by
    simp only [fits, Bool.and_eq_true, decide_eq_true_eq]
    exact ⟨n.minValue_le_toInt, n.toInt_le⟩
  simp only [numberLiteral, decide_eq_true_eq, hvalue, hfits, Bool.and_self, if_true,
    Int64.ofInt_toInt]

/-- A name with no point behind it is a column. -/
theorem readOperand_name {steps : Nat} {n : String} (hrest : rest.head? ≠ some (.sign ".")) :
    readOperand (steps + 1) (.name n :: rest) = some (.column ⟨none, n⟩, rest) := by
  rw [readOperand]
  rintro m more rfl
  exact hrest rfl

/-- Some lexemes are read as an operand, whatever follows but a point. -/
def ReadsOperand (ls : List Lexeme) (e : Written) : Prop :=
  ∀ ⦃rest : List Lexeme⦄ ⦃steps : Nat⦄, 3 * ls.length ≤ steps → rest.head? ≠ some (.sign ".") →
    readOperand steps (ls ++ rest) = some (e, rest)

theorem ReadsOperand.length_pos {ls : List Lexeme} {e : Written} (h : ReadsOperand ls e) :
    0 < ls.length := by
  refine List.length_pos_iff.mpr ?_
  rintro rfl
  have hnone : readOperand 0 ([] ++ []) = some (e, []) := h (Nat.le_refl _) (by simp)
  simp [readOperand] at hnone

/-- An operand that one step reads. -/
theorem ReadsOperand.atom {ls : List Lexeme} {e : Written} (hne : ls ≠ [])
    (h : ∀ (rest : List Lexeme) (steps : Nat), rest.head? ≠ some (.sign ".") →
      readOperand (steps + 1) (ls ++ rest) = some (e, rest)) : ReadsOperand ls e := by
  intro rest steps hsteps hrest
  have hpos := List.length_pos_iff.mpr hne
  obtain ⟨n, rfl⟩ : ∃ n, steps = n + 1 := ⟨steps - 1, by omega⟩
  exact h rest n hrest

theorem ne_point_of_infixOf? {sign : String} {p : Nat × (Written → Written → Written)}
    (ho : infixOf? (.sign sign) = some p) : sign ≠ "." := by
  rintro rfl
  simp [infixOf?] at ho

variable {xs ys : List Lexeme} {e e' : Written} {l : Nat} {build : Written → Written → Written}

/-- Two operands in brackets with an operator between them. -/
theorem ReadsOperand.arith {sign : String} (hl : ReadsOperand xs e) (hr : ReadsOperand ys e')
    (ho : infixOf? (.sign sign) = some (l, build)) :
    ReadsOperand (.sign "(" :: (xs ++ .sign sign :: (ys ++ [.sign ")"]))) (build e e') := by
  intro rest steps hsteps _
  simp only [List.length_cons, List.length_append, List.length_nil] at hsteps
  obtain ⟨n, rfl⟩ : ∃ n, steps = n + 5 := ⟨steps - 5, by omega⟩
  have hright : readFrom (n + 2) (l + 1) (ys ++ .sign ")" :: rest) = some (e', .sign ")" :: rest) :=
    readFrom_operand (l + 1) (hr (by omega) (by simp)) closes_bracket
  have hleft : readOperand (n + 3) (xs ++ .sign sign :: (ys ++ .sign ")" :: rest)) =
      some (e, .sign sign :: (ys ++ .sign ")" :: rest)) :=
    hl (by omega) (by simp [ne_point_of_infixOf? ho])
  have hinner : readFrom (n + 4) 0 ((xs ++ .sign sign :: ys) ++ .sign ")" :: rest) =
      some (build e e', .sign ")" :: rest) := by
    simpa using readFrom_infix hleft ho rfl (Nat.zero_le l) hright closes_bracket
  simpa using readOperand_brackets hinner

/-- The lexemes of an operation are read as its tree. -/
theorem readsOperand_operation {op : Operation} (hop : op.IsBasic s) :
    ReadsOperand (Lexeme.ofOperation op) (ofOperation op) := by
  induction hop with
  | @column c =>
    rw [Lexeme.ofOperation, ofOperation]
    cases halias : c.tableAlias with
    | none => exact .atom (by simp) fun _ _ hrest => readOperand_name hrest
    | some t => exact .atom (by simp) fun _ _ _ => rfl
  | integer n =>
    have hliteral := numberLiteral_natAbs n
    rw [Lexeme.ofOperation, ofOperation]
    by_cases hn : n.toInt < 0
    · rw [if_pos hn]
      simp only [hn, decide_true] at hliteral
      refine .atom (by simp) fun rest steps _ => ?_
      simp [Lexeme.magnitude, readOperand, hliteral]
    · rw [if_neg hn]
      simp only [hn, decide_false] at hliteral
      refine .atom (by simp) fun rest steps _ => ?_
      simp [Lexeme.magnitude, readOperand, hliteral]
  | string t => exact .atom (by simp [Lexeme.ofOperation]) fun _ _ _ => rfl
  | plus _ _ ihl ihr => exact ihl.arith ihr rfl
  | minus _ _ ihl ihr => exact ihl.arith ihr rfl
  | multiplies _ _ ihl ihr => exact ihl.arith ihr rfl

/-! ### Conditions -/

/-- Some lexemes are read as an expression where it closes behind them. -/
def ReadsWhole (ls : List Lexeme) (e : Written) : Prop :=
  ∀ ⦃rest : List Lexeme⦄ ⦃steps : Nat⦄, 3 * ls.length ≤ steps → Closes rest →
    readFrom steps 0 (ls ++ rest) = some (e, rest)

theorem ReadsWhole.brackets (h : ReadsWhole xs e) {steps : Nat} (hsteps : 3 * xs.length < steps) :
    readOperand steps (.sign "(" :: (xs ++ .sign ")" :: rest)) = some (e, rest) := by
  obtain ⟨n, rfl⟩ : ∃ n, steps = n + 1 := ⟨steps - 1, by omega⟩
  exact readOperand_brackets (h (by omega) closes_bracket)

/-- Two expressions in brackets with a word between them that is an operator. -/
theorem ReadsWhole.joined {w : String} (hl : ReadsWhole xs e) (hr : ReadsWhole ys e')
    (hw : infixOf? (.word w) = some (l, build))
    (hnotest : ∀ zs, postfixOf? (.word w :: zs) = none) :
    ReadsWhole
      (.sign "(" :: (xs ++ .sign ")" :: .word w :: .sign "(" :: (ys ++ [.sign ")"])))
      (build e e') := by
  intro rest steps hsteps hrest
  simp only [List.length_cons, List.length_append, List.length_nil] at hsteps
  obtain ⟨n, rfl⟩ : ∃ n, steps = n + 4 := ⟨steps - 4, by omega⟩
  have hright : readFrom (n + 2) (l + 1) (.sign "(" :: (ys ++ .sign ")" :: rest)) =
      some (e', rest) :=
    readFrom_operand (l + 1) (hr.brackets (by omega)) hrest
  have hleft : readOperand (n + 3)
      (.sign "(" :: (xs ++ .sign ")" :: .word w :: .sign "(" :: (ys ++ .sign ")" :: rest))) =
        some (e, .word w :: .sign "(" :: (ys ++ .sign ")" :: rest)) :=
    hl.brackets (by omega)
  simpa using readFrom_infix hleft hw (hnotest _) (Nat.zero_le l) hright hrest

/-- NOT and an expression in brackets. -/
theorem ReadsWhole.not (h : ReadsWhole xs e) :
    ReadsWhole (.word "not" :: .sign "(" :: (xs ++ [.sign ")"])) (.not e) := by
  intro rest steps hsteps hrest
  simp only [List.length_cons, List.length_append, List.length_nil] at hsteps
  obtain ⟨n, rfl⟩ : ∃ n, steps = n + 5 := ⟨steps - 5, by omega⟩
  have hinner : readFrom (n + 3) notLevel (.sign "(" :: (xs ++ .sign ")" :: rest)) =
      some (e, rest) :=
    readFrom_operand notLevel (h.brackets (by omega)) hrest
  have hoperand : readOperand (n + 4) (.word "not" :: .sign "(" :: (xs ++ .sign ")" :: rest)) =
      some (.not e, rest) := by
    simp only [readOperand, hinner, Option.map_some]
  simpa using readFrom_operand 0 hoperand hrest

/-- Two operands with an operator between them. -/
theorem ReadsOperand.compare {sign : String} (hl : ReadsOperand xs e) (hr : ReadsOperand ys e')
    (ho : infixOf? (.sign sign) = some (l, build)) :
    ReadsWhole (xs ++ .sign sign :: ys) (build e e') := by
  intro rest steps hsteps hrest
  have hpos := hl.length_pos
  simp only [List.length_cons, List.length_append] at hsteps
  obtain ⟨n, rfl⟩ : ∃ n, steps = n + 4 := ⟨steps - 4, by omega⟩
  have hright : readFrom (n + 2) (l + 1) (ys ++ rest) = some (e', rest) :=
    readFrom_operand (l + 1) (hr (by omega) hrest.head?_ne) hrest
  have hleft : readOperand (n + 3) (xs ++ .sign sign :: (ys ++ rest)) =
      some (e, .sign sign :: (ys ++ rest)) :=
    hl (by omega) (by simp [ne_point_of_infixOf? ho])
  simpa using readFrom_infix hleft ho rfl (Nat.zero_le l) hright hrest

/-- An operand with a test for NULL behind it. -/
theorem ReadsOperand.tested {zs : List Lexeme} {test : Written → Written} (h : ReadsOperand xs e)
    (hzs : zs ≠ []) (hpoint : zs.head? ≠ some (.sign "."))
    (htest : ∀ rest, postfixOf? (zs ++ rest) = some (equalLevel, test, rest)) :
    ReadsWhole (xs ++ zs) (test e) := by
  intro rest steps hsteps hrest
  have hpos := h.length_pos
  have hpos' := List.length_pos_iff.mpr hzs
  rw [List.length_append] at hsteps
  obtain ⟨n, rfl⟩ : ∃ n, steps = n + 3 := ⟨steps - 3, by omega⟩
  have hoperand : readOperand (n + 2) (xs ++ (zs ++ rest)) = some (e, zs ++ rest) := by
    refine h (by omega) ?_
    cases zs with
    | nil => exact absurd rfl hzs
    | cons z zs => exact hpoint
  rw [List.append_assoc, readFrom, hoperand]
  simp only [readOperators, htest, Nat.zero_le, if_true]
  exact readOperators_closes hrest n 0 (test e)

/-- The lexemes of a condition are read as its tree. -/
theorem readsWhole_condition {c : Condition} (hc : c.IsBasic s) :
    ReadsWhole (Lexeme.ofCondition c) (ofCondition c) := by
  induction hc with
  | and _ _ ihl ihr => exact ihl.joined ihr rfl fun _ => rfl
  | or _ _ ihl ihr => exact ihl.joined ihr rfl fun _ => rfl
  | not _ ih => exact ih.not
  | compare o hl hr =>
    have hreads {l : Nat} (ho : infixOf? (.sign (Dialect.comparisonSign o)) =
        some (l, .compare o)) := (readsOperand_operation hl).compare (readsOperand_operation hr) ho
    cases o
    all_goals exact hreads rfl
  | isNull harg => exact (readsOperand_operation harg).tested (by simp) (by simp) fun _ => rfl
  | isNotNull harg => exact (readsOperand_operation harg).tested (by simp) (by simp) fun _ => rfl

/-- **The text of a condition** is read back as the tree it was written from. -/
theorem ofText?_condition {c : Condition} (hc : c.IsBasic s) :
    ofText? (Dialect.text .sqlite (Dialect.condition .sqlite c)) = some (ofCondition c) := by
  have hread : Lexeme.read (Dialect.text .sqlite (Dialect.condition .sqlite c)).toList =
      some (Lexeme.ofCondition c) := by
    rw [Dialect.text, String.toList_ofList, Lexeme.read_condition hc]
  have htree : readFrom (3 * (Lexeme.ofCondition c).length + 3) 0 (Lexeme.ofCondition c ++ []) =
      some (ofCondition c, []) :=
    readsWhole_condition hc (by omega) trivial
  rw [List.append_nil] at htree
  simp [ofText?, hread, htree]

end Written

end SqlRecords.Sqlite
