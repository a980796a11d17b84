import SqlRecords.Proofs.Dialect.Grouping
import SqlRecords.Proofs.Text.Numerals

/-!
# Operations can be told from their text

The text of an operation in SQLite forgets a few things: the name a column is selected under
and its type, how exactly a literal or a duration was given, which of the kinds of one class a
value is cast to, and whether the rows that are counted should differ. The `Skeleton` of an
operation is what is left of its tree, and it can be told from the text, at any depth and
whatever the quotes, brackets and lists in it hold.

Each call has words of its own in front of its bracket (`Head`), and the words of no call
begin with those of another. Casts and the operations that stand in brackets alone share
their head; they differ in what they have behind the first blank outside of brackets, where
their first argument ends. The members of a list are split at such blanks too.

## What is proved

* `Head.around_inj`: what is called can be told, and what it is called with.
* `Sql.separated_inj`: lists of closed pieces can be split in one way only.
* `Operation.glyphs_inj`: the label of an operation and the text of its arguments can be told.
* `Operation.chars_eq`: nothing else goes into the text.
* **`Operation.text_eq_iff_skeleton`**: two operations have the same text in SQLite if and only
  if they have the same skeleton.
-/

namespace SqlRecords

open Sql Decimal

/-! ### Skeletons -/

/-- The classes of values that SQLite casts to. -/
inductive CastClass where
  | integer
  | real
  | text
  deriving DecidableEq, Repr

/-- The name of a class. -/
def CastClass.name : CastClass → String
  | .integer => "INTEGER"
  | .real => "REAL"
  | .text => "TEXT"

/-- The class that values of a kind are in. -/
def Kind.castClass : Kind → CastClass
  | .boolean | .int8 | .int16 | .int32 | .int64 | .uint8 | .uint16 | .uint32 | .uint64 => .integer
  | .float32 | .float64 => .real
  | .text | .varchar _ | .date | .timestamp | .timestampWithTz | .json | .unknown => .text

theorem castName_sqlite (kind : Kind) : Dialect.sqlite.castName kind = kind.castClass.name := by
  cases kind <;> rfl

/-- A column without the name it is selected under and its type, or the text of a literal. -/
inductive Atom where
  | column (tableAlias : Option String) (name : String)
  | literal (text : String)
  deriving DecidableEq, Repr

/-- The atom of an operand. -/
def Operand.atom : Operand → Atom
  | .column c => .column c.tableAlias c.name
  | .value v => .literal (Dialect.sqlite.text (Dialect.literal v))

/-- What an operation says by itself, apart from its arguments. -/
inductive Label where
  | call (f : ScalarFunction)
  | part (p : DatePart)
  | arith (o : Arithmetic)
  | cast (target : CastClass)
  | coalesce
  | concat
  /-- A date moved by durations, each given as the text of its modifier. -/
  | datePlus (modifiers : List String)
  | daysBetween
  | replaceAll
  | round (decimals : UInt32)
  | trim (side : TrimSide) (chars : String)
  | aggregate (f : AggregateFunction) (operand : Atom)
  /-- The number of rows. There is nothing that could be asked to differ. -/
  | countRows
  | count (distinct : Bool) (operand : Atom)
  | atom (a : Atom)
  deriving DecidableEq, Repr

/-- The tree of an operation, with its label at every node. -/
inductive Skeleton where
  | node (label : Label) (arguments : List Skeleton)
  deriving Repr

/-- The label at the root. -/
def Skeleton.label : Skeleton → Label
  | .node label _ => label

namespace Operation

mutual

/-- The skeleton of an operation. -/
def skeleton : Operation → Skeleton
  | .call f arg => .node (.call f) [arg.skeleton]
  | .part p arg => .node (.part p) [arg.skeleton]
  | .arith o lhs rhs => .node (.arith o) [lhs.skeleton, rhs.skeleton]
  | .cast arg kind => .node (.cast kind.castClass) [arg.skeleton]
  | .coalesce args => .node .coalesce (skeletons args)
  | .concat args => .node .concat (skeletons args)
  | .datePlus date durations =>
    .node (.datePlus (durations.map Dialect.modifier)) [date.skeleton]
  | .daysBetween start finish => .node .daysBetween [start.skeleton, finish.skeleton]
  | .replaceAll arg piece substitute =>
    .node .replaceAll [arg.skeleton, piece.skeleton, substitute.skeleton]
  | .round arg decimals => .node (.round decimals) [arg.skeleton]
  | .trim side arg chars => .node (.trim side chars) [arg.skeleton]
  | .aggregate (.of f operand) => .node (.aggregate f operand.atom) []
  | .aggregate (.count _ none) => .node .countRows []
  | .aggregate (.count distinct (some operand)) => .node (.count distinct operand.atom) []
  | .column c => .node (.atom (Operand.column c).atom) []
  | .value v => .node (.atom (Operand.value v).atom) []

/-- The skeletons of some operations. -/
def skeletons : List Operation → List Skeleton
  | [] => []
  | op :: rest => op.skeleton :: skeletons rest

end

/-- The arguments of an operation. -/
def arguments : Operation → List Operation
  | .call _ arg | .part _ arg | .cast arg _ | .datePlus arg _ | .round arg _ | .trim _ arg _ =>
    [arg]
  | .arith _ lhs rhs | .daysBetween lhs rhs => [lhs, rhs]
  | .coalesce args | .concat args => args
  | .replaceAll arg piece substitute => [arg, piece, substitute]
  | .aggregate _ | .column _ | .value _ => []

theorem skeletons_eq_map (ops : List Operation) : skeletons ops = ops.map skeleton := by
  induction ops with
  | nil => rfl
  | cons op rest ih => exact congrArg (op.skeleton :: ·) ih

/-- A skeleton is made of the label and of the skeletons of the arguments. -/
theorem skeleton_eq (op : Operation) :
    op.skeleton = .node op.skeleton.label (op.arguments.map skeleton) := by
  cases op with
  | aggregate a => rcases a with _ | ⟨_, _ | _⟩ <;> rfl
  | coalesce args | concat args =>
    simp only [skeleton, Skeleton.label, arguments, skeletons_eq_map]
  | _ => rfl

/-- An argument is less than what it is an argument of. -/
theorem sizeOf_lt_of_mem_arguments {op arg : Operation} (h : arg ∈ op.arguments) :
    sizeOf arg < sizeOf op := by
  cases op with
  | coalesce args | concat args =>
    have := List.sizeOf_lt_of_mem (show arg ∈ args from h)
    simp only [coalesce.sizeOf_spec, concat.sizeOf_spec]
    omega
  | aggregate _ | column _ | value _ => cases h
  | _ =>
    simp only [arguments, List.mem_cons, List.not_mem_nil, or_false] at h
    grind

/-- What a reader sees of an operation in SQLite. -/
abbrev glyphs (op : Operation) : List Glyph := Dialect.sqlite.glyphs (Dialect.sqlite.operation op)

end Operation

/-! ### Calls -/

/-- What stands in front of a bracket. -/
inductive Head where
  | call (f : ScalarFunction)
  /-- A date that is written in a format, which a part of a date is made of. -/
  | strftime
  /-- A date as a number, which the days between two dates are made of. -/
  | julianday
  | cast
  /-- Nothing but the bracket. -/
  | group
  | coalesce
  | datetime
  | replace
  | round
  | trim (side : TrimSide)
  /-- An aggregate, or a number of rows if there is no function. -/
  | aggregate (f : Option AggregateFunction)
  deriving DecidableEq, Repr

namespace Head

/-- The heads, each once. -/
def all : List Head :=
  ScalarFunction.all.map .call ++
    [.strftime, .julianday, .cast, .group, .coalesce, .datetime, .replace, .round] ++
      TrimSide.all.map .trim ++ (none :: AggregateFunction.all.map some).map .aggregate

/-- The text of a head with its bracket. -/
def word : Head → String
  | .call f => Dialect.sqlite.callOpening f
  | .strftime => "strftime("
  | .julianday => "julianday("
  | .cast => "CAST("
  | .group => "("
  | .coalesce => "coalesce("
  | .datetime => "datetime("
  | .replace => "replace("
  | .round => "round("
  | .trim side => Dialect.trimOpening side
  | .aggregate (some f) => Dialect.aggregateOpening f
  | .aggregate none => "COUNT("

/-- A piece in brackets behind a head. -/
def around (h : Head) (p : Sql) : Sql := Sql.between h.word p ")"

theorem mem_all (h : Head) : h ∈ all := by
  cases h with
  | call f => cases f <;> decide
  | trim side => cases side <;> decide
  | aggregate f => rcases f with _ | _ | _ <;> decide
  | _ => decide

/-- No head begins with another one. -/
theorem eq_of_leading {h h' : Head} (hword : h.word.toList <+: h'.word.toList) : h = h' := by
  have hall : ∀ h ∈ all, ∀ h' ∈ all, h.word.toList <+: h'.word.toList → h = h' := by
    decide +kernel
  exact hall h h.mem_all h' h'.mem_all hword

/-- **What is called can be told**, and what it is called with. -/
theorem around_inj {d : Dialect} {h h' : Head} {p q : Sql}
    (heq : d.glyphs (h.around p) = d.glyphs (h'.around q)) : h = h' ∧ d.glyphs p = d.glyphs q := by
  simp only [around, Sql.between, List.cons_append, Dialect.glyphs_cons,
    Dialect.glyphs_append] at heq
  obtain ⟨rfl, hrest⟩ := leading_inj (fun _ _ => eq_of_leading) heq
  exact ⟨rfl, List.append_cancel_right hrest⟩

theorem wordDepth_word (h : Head) : wordDepth 0 h.word = some 1 := by
  cases h with
  | call f => cases f <;> rfl
  | trim side => cases side <;> rfl
  | aggregate f => rcases f with _ | _ | _ <;> rfl
  | _ => rfl

/-- A call is closed if what it is called with is closed within its bracket. -/
theorem closed_around {d : Dialect} {p : Sql} (h : Head) (hp : Leads d 1 p 1) :
    Closed d (h.around p) :=
  (Leads.word h.wordDepth_word hp).append (leads_word rfl)

end Head

/-! ### Lists -/

/-- Glyphs that a blank outside of brackets separates can be split in one way only. -/
theorem joined_inj {before behind : List Glyph} (hbefore : depthBehind 0 before = some 0)
    {g h : List Glyph} {gs hs : List (List Glyph)} (hgs : ∀ p ∈ g :: gs, depthBehind 0 p = some 0)
    (hhs : ∀ p ∈ h :: hs, depthBehind 0 p = some 0)
    (heq : g ++ gs.flatMap (before ++ .plain ' ' :: behind ++ ·) =
      h ++ hs.flatMap (before ++ .plain ' ' :: behind ++ ·)) : g :: gs = h :: hs := by
  have hended {p : List Glyph} (hp : depthBehind 0 p = some 0) :
      depthBehind 0 (p ++ before) = some 0 := by
    rw [depthBehind_append, hp]
    exact hbefore
  have hcons (p q : List Glyph) (qs : List (List Glyph)) :
      p ++ (q :: qs).flatMap (before ++ .plain ' ' :: behind ++ ·) =
        (p ++ before) ++ .plain ' ' ::
          (behind ++ (q ++ qs.flatMap (before ++ .plain ' ' :: behind ++ ·))) := by
    simp [List.append_assoc]
  induction gs generalizing g h hs with
  | nil =>
    cases hs with
    | nil => simpa using heq
    | cons h' hs =>
      have hg := hgs g List.mem_cons_self
      rw [List.flatMap_nil, List.append_nil, hcons] at heq
      rw [heq, depthBehind_append_blank (hended (hhs h List.mem_cons_self))] at hg
      cases hg
  | cons g' gs ih =>
    cases hs with
    | nil =>
      have hh := hhs h List.mem_cons_self
      rw [List.flatMap_nil, List.append_nil, hcons] at heq
      rw [← heq, depthBehind_append_blank (hended (hgs g List.mem_cons_self))] at hh
      cases hh
    | cons h' hs =>
      rw [hcons, hcons] at heq
      obtain ⟨hfirst, hrest⟩ := append_blank_inj (hended (hgs g List.mem_cons_self))
        (hended (hhs h List.mem_cons_self)) heq
      rw [List.append_cancel_right hfirst,
        ih (fun p hp => hgs p (List.mem_cons_of_mem g hp))
          (fun p hp => hhs p (List.mem_cons_of_mem h hp)) (List.append_cancel_left hrest)]

namespace Sql

variable {d : Dialect}

theorem glyphs_separated_cons (w : String) (p : Sql) (ps : List Sql) :
    d.glyphs (separated w (p :: ps)) =
      d.glyphs p ++ (ps.map d.glyphs).flatMap (w.toList.map .plain ++ ·) := by
  induction ps generalizing p with
  | nil => simp [separated]
  | cons q rest ih =>
    rw [separated, Dialect.glyphs_append, Dialect.glyphs_cons, ih, List.map_cons,
      List.flatMap_cons, List.append_assoc]
    · rfl
    · simp

/-- A piece that is closed and has a text. -/
def IsPiece (d : Dialect) (p : Sql) : Prop := Closed d p ∧ d.glyphs p ≠ []

theorem isPiece_string (s : String) : IsPiece d [.string s] :=
  ⟨leads_string s, List.cons_ne_nil _ _⟩

theorem isPiece_fixed (s : String) : IsPiece d [.fixed s] :=
  ⟨leads_fixed s, List.cons_ne_nil _ _⟩

theorem isPiece_toString (n : Nat) : IsPiece d [.word (toString n)] := by
  refine ⟨leads_word (wordDepth_toString n), ?_⟩
  simp [Token.glyphs, Token.chars]

/-- **Lists of pieces can be split in one way only**, if there is a blank in what separates them. -/
theorem separated_inj {w : String} (before behind : List Glyph)
    (hw : w.toList.map .plain = before ++ .plain ' ' :: behind)
    (hbefore : depthBehind 0 before = some 0) {ps qs : List Sql} (hps : ∀ p ∈ ps, IsPiece d p)
    (hqs : ∀ q ∈ qs, IsPiece d q) (h : d.glyphs (separated w ps) = d.glyphs (separated w qs)) :
    ps.map d.glyphs = qs.map d.glyphs := by
  have hnonempty {p : Sql} {rest : List Sql} (hp : d.glyphs p ≠ []) :
      d.glyphs (separated w (p :: rest)) ≠ [] := by
    rw [glyphs_separated_cons]
    exact List.append_ne_nil_of_left_ne_nil hp _
  have hclosed {ps : List Sql} (hps : ∀ p ∈ ps, IsPiece d p) :
      ∀ gs ∈ ps.map d.glyphs, depthBehind 0 gs = some 0 :=
    List.forall_mem_map.mpr fun p hp => (hps p hp).1
  cases ps with
  | nil =>
    cases qs with
    | nil => rfl
    | cons q qs => exact absurd h.symm (hnonempty (hqs q List.mem_cons_self).2)
  | cons p ps =>
    cases qs with
    | nil => exact absurd h (hnonempty (hps p List.mem_cons_self).2)
    | cons q qs =>
      rw [glyphs_separated_cons, glyphs_separated_cons, hw] at h
      exact joined_inj hbefore (hclosed hps) (hclosed hqs) h

theorem commas_inj {ps qs : List Sql} (hps : ∀ p ∈ ps, IsPiece d p) (hqs : ∀ q ∈ qs, IsPiece d q)
    (h : d.glyphs (commas ps) = d.glyphs (commas qs)) : ps.map d.glyphs = qs.map d.glyphs :=
  separated_inj [.plain ','] [] rfl rfl hps hqs h

variable {p p' q q' : Sql} {w w' : String}

/-- Two pieces with a blank between them. -/
def spaced (p q : Sql) : Sql := p ++ .word " " :: q

theorem glyphs_spaced (p q : Sql) :
    d.glyphs (spaced p q) = d.glyphs p ++ .plain ' ' :: d.glyphs q := by
  simp [spaced, Token.glyphs, Token.chars]

/-- What is before the first blank outside of brackets can be told, and what is behind it. -/
theorem spaced_inj (hp : Closed d p) (hp' : Closed d p')
    (h : d.glyphs (spaced p q) = d.glyphs (spaced p' q')) :
    d.glyphs p = d.glyphs p' ∧ d.glyphs q = d.glyphs q' := by
  rw [glyphs_spaced, glyphs_spaced] at h
  exact append_blank_inj hp hp' h

/-- A closed piece does not go on behind such a blank. -/
theorem ne_spaced (hp : Closed d p) (hq : Closed d q) (r : Sql) :
    d.glyphs p ≠ d.glyphs (spaced q r) := by
  intro h
  rw [glyphs_spaced] at h
  rw [Closed, Leads, h, depthBehind_append_blank hq] at hp
  cases hp

theorem word_inj (h : d.glyphs [.word w] = d.glyphs [.word w']) : w = w' := by
  have hinj : Function.Injective Glyph.plain := fun _ _ h => Glyph.plain.inj h
  simp only [Dialect.glyphs_cons, Dialect.glyphs_nil, List.append_nil, Token.glyphs,
    Token.chars] at h
  exact String.toList_inj.mp (List.map_injective_iff.mpr hinj h)

end Sql

/-! ### Columns and literals -/

namespace Dialect

variable {d : Dialect}

/-- Outside of quotes, a literal has the characters of a number or of NULL. -/
theorem plain_mem_literal {v : Value} {c : Char} (h : .plain c ∈ d.glyphs (literal v)) :
    IsNumeral c ∨ c ∈ "NULL".toList := by
  have hword {w : String} (hw : .plain c ∈ d.glyphs [.word w]) : c ∈ w.toList := by
    simpa [Token.glyphs, Token.chars] using hw
  cases v with
  | integer n => exact .inl (isNumeral_of_mem_toString (hword h))
  | float x =>
    have hc := hword h
    split at hc
    · exact .inl (isNumeric_write _ _ c hc)
    · exact .inr hc
  | string s => simp [literal, Token.glyphs] at h

/-- So does a column, but for the point between its table and its name. -/
theorem plain_mem_operand {x : Operand} {c : Char} (h : .plain c ∈ d.glyphs (operand x)) :
    IsNumeral c ∨ c ∈ "NULL".toList := by
  cases x with
  | column col =>
    refine .inl ?_
    simp only [operand, columnName] at h
    split at h
    · obtain rfl : c = '.' := by simpa [Token.glyphs, Token.chars] using h
      decide
    · simp [Token.glyphs] at h
  | value v => exact plain_mem_literal h

/-- A literal has no name of a column in it. -/
theorem name_notMem_literal (n : String) (v : Value) :
    .quoted '"' n ∉ Dialect.sqlite.glyphs (literal v) := by
  cases v <;> simp [literal, Token.glyphs, Token.chars]

theorem literal_ne_nil (v : Value) : d.glyphs (literal v) ≠ [] := by
  have hword {w : String} (hw : w.toList ≠ []) : d.glyphs [.word w] ≠ [] := by
    simpa [Token.glyphs, Token.chars] using hw
  cases v with
  | integer n =>
    refine hword ?_
    by_cases hneg : n.toInt < 0
    · rw [Text.toList_toString_of_neg hneg]
      exact List.cons_ne_nil _ _
    · rw [Text.toList_toString_of_nonneg hneg]
      exact Nat.toDigits_ne_nil
  | float x =>
    refine hword ?_
    split
    · exact write_ne_nil Layout.literal (ofFloat x)
    · decide
  | string s => exact List.cons_ne_nil _ _

theorem operand_ne_nil (x : Operand) : d.glyphs (operand x) ≠ [] := by
  cases x with
  | column c =>
    simp only [operand, columnName]
    split <;> simp [Token.glyphs]
  | value v => exact literal_ne_nil v

/-- **The atom of an operand can be told.** -/
theorem operand_inj {x y : Operand}
    (h : Dialect.sqlite.glyphs (operand x) = Dialect.sqlite.glyphs (operand y)) :
    x.atom = y.atom := by
  have hname (c : Column) : .quoted '"' c.name ∈ Dialect.sqlite.glyphs (columnName c) := by
    unfold columnName
    split <;> simp [Token.glyphs, identifierQuote]
  cases x with
  | column c =>
    cases y with
    | column c' =>
      simp only [operand, columnName] at h
      split at h <;> split at h <;> simp_all [Token.glyphs, Operand.atom]
    | value v => exact absurd (h ▸ hname c) (name_notMem_literal _ _)
  | value v =>
    cases y with
    | column c => exact absurd (h ▸ hname c) (name_notMem_literal _ _)
    | value v' => exact congrArg Atom.literal (text_eq_of_glyphs h)

end Dialect

/-! ### Heads and insides -/

/-- The function of an aggregate, unless rows are counted. -/
def Aggregation.function? : Aggregation → Option AggregateFunction
  | .of f _ => some f
  | .count _ _ => none

namespace Operation

open Dialect

/-- What stands in front of the bracket of an operation. Columns and literals have no bracket. -/
def head : Operation → Option Head
  | .call f _ => some (.call f)
  | .part _ _ | .cast _ _ | .daysBetween _ _ => some .cast
  | .arith _ _ _ | .concat _ => some .group
  | .coalesce _ => some .coalesce
  | .datePlus _ _ => some .datetime
  | .replaceAll _ _ _ => some .replace
  | .round _ _ => some .round
  | .trim side _ _ => some (.trim side)
  | .aggregate a => some (.aggregate a.function?)
  | .column _ | .value _ => none

/-- What stands in the bracket of an operation, or the operation if it has none. -/
def inside : Operation → Sql
  | .call _ arg => Dialect.sqlite.operation arg
  | .part p arg =>
    spaced (Head.strftime.around
      (Sql.commas [[.fixed (partFormat p)], Dialect.sqlite.operation arg])) [.word "AS INTEGER"]
  | .arith o lhs rhs =>
    spaced (Dialect.sqlite.operation lhs)
      (.word (arithmeticSign o ++ " ") :: Dialect.sqlite.operation rhs)
  | .cast arg kind =>
    spaced (Dialect.sqlite.operation arg) [.word ("AS " ++ kind.castClass.name)]
  | .coalesce args => Sql.commas (Dialect.sqlite.operations args)
  | .concat args => Sql.separated " || " (Dialect.sqlite.operations args)
  | .datePlus date durations =>
    Sql.commas (Dialect.sqlite.operation date :: durations.map fun u => [.fixed (modifier u)])
  | .daysBetween start finish =>
    spaced (Head.julianday.around (Dialect.sqlite.operation finish)) (.word "- " ::
      Head.julianday.around (Dialect.sqlite.operation start) ++ [.word " AS INTEGER"])
  | .replaceAll arg piece substitute =>
    Sql.commas [Dialect.sqlite.operation arg, Dialect.sqlite.operation piece,
      Dialect.sqlite.operation substitute]
  | .round arg decimals =>
    Sql.commas [Dialect.sqlite.operation arg, [.word (toString decimals.toNat)]]
  | .trim _ arg chars => Sql.commas [Dialect.sqlite.operation arg, [.string chars]]
  | .aggregate (.of _ x) | .aggregate (.count false (some x)) => operand x
  | .aggregate (.count _ none) => [.word "*"]
  | .aggregate (.count true (some x)) => spaced [.word "DISTINCT"] (operand x)
  | .column c => operand (.column c)
  | .value v => operand (.value v)

/-- An operation is its inside with its head around it. -/
theorem glyphs_framed (op : Operation) :
    op.glyphs = Dialect.sqlite.glyphs (op.head.elim op.inside (·.around op.inside)) := by
  rw [Operation.glyphs]
  cases op with
  | call _ _ | coalesce _ | concat _ | datePlus _ _ | replaceAll _ _ _ | column _ | value _ =>
    rw [operation]
    rfl
  | part _ _ | daysBetween _ _ =>
    rw [operation]
    simp [head, inside, Head.around, Head.word, Dialect.part, Dialect.daysBetween, Sql.between,
      spaced, Sql.commas, separated, Token.glyphs, Token.chars]
  | arith o _ _ =>
    rw [operation]
    cases o <;> simp [head, inside, Head.around, Head.word, Dialect.arith, Sql.between, spaced,
      arithmeticSign, Token.glyphs, Token.chars]
  | cast _ kind =>
    rw [operation, castName_sqlite]
    simp [head, inside, Head.around, Head.word, Sql.between, spaced, Token.glyphs, Token.chars]
  | round _ _ | trim _ _ _ =>
    rw [operation]
    simp [head, inside, Head.around, Head.word, Dialect.round, Dialect.trim, Sql.between,
      Sql.commas, separated, Token.glyphs, Token.chars]
  | aggregate a =>
    rw [operation]
    rcases a with _ | ⟨_ | _, _ | x⟩
    case count.true.some => simp [head, Aggregation.function?, inside, Head.around, Head.word,
      aggregation, Sql.between, spaced, Token.glyphs, Token.chars]
    all_goals rfl

variable {op op' : Operation}

theorem bracket_notMem_glyphs (h : op.head = none) : .plain '(' ∉ op.glyphs := by
  have hoperand (x : Operand) : .plain '(' ∉ Dialect.sqlite.glyphs (operand x) := fun hmem =>
    absurd (plain_mem_operand hmem) (by decide)
  cases op with
  | column c => exact hoperand (.column c)
  | value v => exact hoperand (.value v)
  | _ => cases h

theorem bracket_mem_glyphs_around (h : Head) (p : Sql) :
    .plain '(' ∈ Dialect.sqlite.glyphs (h.around p) := by
  have hword : '(' ∈ h.word.toList := by
    have hall : ∀ h ∈ Head.all, '(' ∈ h.word.toList := by decide
    exact hall h h.mem_all
  simp only [Head.around, Sql.between, List.cons_append, glyphs_cons]
  exact List.mem_append_left _ (List.mem_map_of_mem hword)

/-- No operation looks like a call of something else. -/
theorem glyphs_ne_around {h : Head} (hhead : op.head ≠ some h) (p : Sql) :
    op.glyphs ≠ Dialect.sqlite.glyphs (h.around p) := by
  intro heq
  cases hop : op.head with
  | none => exact bracket_notMem_glyphs hop (heq ▸ bracket_mem_glyphs_around h p)
  | some k =>
    rw [glyphs_framed, hop] at heq
    exact hhead (hop.trans (congrArg some (Head.around_inj heq).1))

/-- **The head of an operation can be told**, and so can its inside. -/
theorem head_inside_inj (h : op.glyphs = op'.glyphs) :
    op.head = op'.head ∧
      Dialect.sqlite.glyphs op.inside = Dialect.sqlite.glyphs op'.inside := by
  cases hop : op.head with
  | none =>
    cases hop' : op'.head with
    | none =>
      rw [glyphs_framed, glyphs_framed, hop, hop'] at h
      exact ⟨rfl, h⟩
    | some k =>
      rw [glyphs_framed op', hop'] at h
      exact absurd h (glyphs_ne_around (by simp [hop]) _)
  | some k =>
    cases hop' : op'.head with
    | none =>
      rw [glyphs_framed op, hop] at h
      exact absurd h.symm (glyphs_ne_around (by simp [hop']) _)
    | some k' =>
      rw [glyphs_framed, glyphs_framed, hop, hop'] at h
      obtain ⟨rfl, hinside⟩ := Head.around_inj h
      exact ⟨rfl, hinside⟩

/-- An operation is a piece. -/
theorem isPiece (op : Operation) : IsPiece .sqlite (Dialect.sqlite.operation op) := by
  refine ⟨closed_operation op, fun hempty => ?_⟩
  cases hop : op.head with
  | none =>
    cases op with
    | column c => exact operand_ne_nil (.column c) hempty
    | value v => exact operand_ne_nil (.value v) hempty
    | _ => cases hop
  | some h =>
    have hframed := glyphs_framed op
    rw [Operation.glyphs, hop, hempty] at hframed
    exact List.not_mem_nil (hframed ▸ bracket_mem_glyphs_around h op.inside)

theorem isPiece_operations (ops : List Operation) :
    ∀ p ∈ Dialect.sqlite.operations ops, IsPiece .sqlite p := by
  rw [operations_eq_map]
  exact List.forall_mem_map.mpr fun op _ => op.isPiece

theorem map_glyphs_operations (ops : List Operation) :
    (Dialect.sqlite.operations ops).map Dialect.sqlite.glyphs = ops.map Operation.glyphs := by
  rw [operations_eq_map, List.map_map]
  rfl

theorem closed_strftime (p : DatePart) (arg : Operation) : Closed .sqlite
    (Head.strftime.around
      (Sql.commas [[.fixed (partFormat p)], Dialect.sqlite.operation arg])) := by
  refine Head.closed_around _ (leads_separated rfl ?_)
  exact List.forall_mem_cons.mpr ⟨leads_fixed _, List.forall_mem_singleton.mpr
    ((closed_operation arg).leads 1)⟩

theorem closed_julianday (arg : Operation) :
    Closed .sqlite (Head.julianday.around (Dialect.sqlite.operation arg)) :=
  Head.closed_around _ ((closed_operation arg).leads 1)

/-! ### Operations with the same head -/

/-- Only parts of dates are made of a written date, -/
theorem ne_strftime (op : Operation) (p : Sql) :
    op.glyphs ≠ Dialect.sqlite.glyphs (Head.strftime.around p) :=
  glyphs_ne_around (by cases op <;> nofun) p

/-- and only the days between two dates of their numbers. -/
theorem ne_julianday (op : Operation) (p : Sql) :
    op.glyphs ≠ Dialect.sqlite.glyphs (Head.julianday.around p) :=
  glyphs_ne_around (by cases op <;> nofun) p

theorem cast_ne_part {arg date : Operation} {kind : Kind} {p : DatePart} :
    (cast arg kind).glyphs ≠ (part p date).glyphs := by
  intro h
  obtain ⟨harg, -⟩ :=
    spaced_inj (closed_operation arg) (closed_strftime p date) (head_inside_inj h).2
  exact ne_strftime arg _ harg

theorem cast_ne_daysBetween {arg start finish : Operation} {kind : Kind} :
    (cast arg kind).glyphs ≠ (daysBetween start finish).glyphs := by
  intro h
  obtain ⟨harg, -⟩ :=
    spaced_inj (closed_operation arg) (closed_julianday finish) (head_inside_inj h).2
  exact ne_julianday arg _ harg

theorem part_ne_daysBetween {date start finish : Operation} {p : DatePart} :
    (part p date).glyphs ≠ (daysBetween start finish).glyphs := by
  intro h
  obtain ⟨hfirst, -⟩ :=
    spaced_inj (closed_strftime p date) (closed_julianday finish) (head_inside_inj h).2
  cases (Head.around_inj hfirst).1

theorem arith_ne_concat {o : Arithmetic} {lhs rhs : Operation} {args : List Operation} :
    (arith o lhs rhs).glyphs ≠ (concat args).glyphs := by
  intro h
  have hinside := (head_inside_inj h).2
  have hlhs := closed_operation (d := .sqlite) lhs
  rcases args with _ | ⟨a, _ | ⟨b, rest⟩⟩
  · exact lhs.isPiece.2 (List.append_eq_nil_iff.mp ((glyphs_spaced _ _).symm.trans hinside)).1
  · exact ne_spaced (closed_operation a) hlhs _ hinside.symm
  · have hsecond : Dialect.sqlite.glyphs (concat (a :: b :: rest)).inside =
        Dialect.sqlite.glyphs (spaced (Dialect.sqlite.operation a)
          (.word "|| " :: separated " || " (Dialect.sqlite.operations (b :: rest)))) := by
      simp [inside, operations, separated, spaced, Token.glyphs, Token.chars]
    obtain ⟨-, hsign⟩ := spaced_inj hlhs (closed_operation a) (hinside.trans hsecond)
    cases o <;> cases hsign

/-! ### Operations with the same head and different parts -/

theorem part_inj {p p' : DatePart} {arg arg' : Operation}
    (h : (part p arg).glyphs = (part p' arg').glyphs) : p = p' ∧ arg.glyphs = arg'.glyphs := by
  have hpieces (p : DatePart) (arg : Operation) :
      ∀ q ∈ [[Token.fixed (partFormat p)], Dialect.sqlite.operation arg], IsPiece .sqlite q :=
    List.forall_mem_cons.mpr ⟨isPiece_fixed _, List.forall_mem_singleton.mpr arg.isPiece⟩
  obtain ⟨hdate, -⟩ :=
    spaced_inj (closed_strftime p arg) (closed_strftime p' arg') (head_inside_inj h).2
  obtain ⟨hformat, harg⟩ := List.cons_eq_cons.mp
    (commas_inj (hpieces p arg) (hpieces p' arg') (Head.around_inj hdate).2)
  refine ⟨?_, (List.cons_eq_cons.mp harg).1⟩
  revert hformat
  cases p <;> cases p' <;> decide

theorem arith_inj {o o' : Arithmetic} {lhs lhs' rhs rhs' : Operation}
    (h : (arith o lhs rhs).glyphs = (arith o' lhs' rhs').glyphs) :
    o = o' ∧ lhs.glyphs = lhs'.glyphs ∧ rhs.glyphs = rhs'.glyphs := by
  have hsign (o o' : Arithmetic)
      (h : (arithmeticSign o ++ " ").toList <+: (arithmeticSign o' ++ " ").toList) : o = o' := by
    cases o <;> cases o' <;> first | rfl | (revert h; decide)
  obtain ⟨hlhs, hrest⟩ :=
    spaced_inj (closed_operation lhs) (closed_operation lhs') (head_inside_inj h).2
  simp only [glyphs_cons] at hrest
  obtain ⟨ho, hrhs⟩ := leading_inj hsign hrest
  exact ⟨ho, hlhs, hrhs⟩

theorem cast_inj {arg arg' : Operation} {kind kind' : Kind}
    (h : (cast arg kind).glyphs = (cast arg' kind').glyphs) :
    kind.castClass = kind'.castClass ∧ arg.glyphs = arg'.glyphs := by
  obtain ⟨harg, hname⟩ :=
    spaced_inj (closed_operation arg) (closed_operation arg') (head_inside_inj h).2
  refine ⟨?_, harg⟩
  revert hname
  cases kind.castClass <;> cases kind'.castClass <;> decide

theorem concat_inj {args args' : List Operation}
    (h : (concat args).glyphs = (concat args').glyphs) :
    args.map Operation.glyphs = args'.map Operation.glyphs := by
  rw [← map_glyphs_operations, ← map_glyphs_operations]
  exact separated_inj [] ("|| ".toList.map .plain) rfl rfl (isPiece_operations args)
    (isPiece_operations args') (head_inside_inj h).2

theorem coalesce_inj {args args' : List Operation}
    (h : (coalesce args).glyphs = (coalesce args').glyphs) :
    args.map Operation.glyphs = args'.map Operation.glyphs := by
  rw [← map_glyphs_operations, ← map_glyphs_operations]
  exact commas_inj (isPiece_operations args) (isPiece_operations args') (head_inside_inj h).2

theorem datePlus_inj {date date' : Operation} {durations durations' : List Duration}
    (h : (datePlus date durations).glyphs = (datePlus date' durations').glyphs) :
    durations.map modifier = durations'.map modifier ∧ date.glyphs = date'.glyphs := by
  have hpieces (date : Operation) (durations : List Duration) :
      ∀ p ∈ Dialect.sqlite.operation date :: durations.map (fun u => [Token.fixed (modifier u)]),
        IsPiece .sqlite p :=
    List.forall_mem_cons.mpr ⟨date.isPiece, List.forall_mem_map.mpr fun u _ => isPiece_fixed _⟩
  have hinj : Function.Injective fun m : String => Dialect.sqlite.glyphs [.fixed m] := by
    intro m m' hm
    simpa [Token.glyphs] using hm
  obtain ⟨hdate, hmodifiers⟩ := List.cons_eq_cons.mp
    (commas_inj (hpieces date durations) (hpieces date' durations') (head_inside_inj h).2)
  refine ⟨List.map_injective_iff.mpr hinj ?_, hdate⟩
  simpa only [List.map_map, Function.comp_def] using hmodifiers

theorem daysBetween_inj {start start' finish finish' : Operation}
    (h : (daysBetween start finish).glyphs = (daysBetween start' finish').glyphs) :
    start.glyphs = start'.glyphs ∧ finish.glyphs = finish'.glyphs := by
  obtain ⟨hfinish, hrest⟩ :=
    spaced_inj (closed_julianday finish) (closed_julianday finish') (head_inside_inj h).2
  simp only [List.cons_append, glyphs_cons, glyphs_append, List.append_cancel_left_eq,
    List.append_cancel_right_eq] at hrest
  exact ⟨(Head.around_inj hrest).2, (Head.around_inj hfinish).2⟩

theorem replaceAll_inj {arg arg' piece piece' substitute substitute' : Operation}
    (h : (replaceAll arg piece substitute).glyphs = (replaceAll arg' piece' substitute').glyphs) :
    [arg, piece, substitute].map Operation.glyphs =
      [arg', piece', substitute'].map Operation.glyphs :=
  commas_inj (isPiece_operations [arg, piece, substitute])
    (isPiece_operations [arg', piece', substitute']) (head_inside_inj h).2

theorem round_inj {arg arg' : Operation} {decimals decimals' : UInt32}
    (h : (round arg decimals).glyphs = (round arg' decimals').glyphs) :
    decimals = decimals' ∧ arg.glyphs = arg'.glyphs := by
  have hpieces (arg : Operation) (decimals : UInt32) :
      ∀ p ∈ [Dialect.sqlite.operation arg, [.word (toString decimals.toNat)]], IsPiece .sqlite p :=
    List.forall_mem_cons.mpr ⟨arg.isPiece, List.forall_mem_singleton.mpr (isPiece_toString _)⟩
  obtain ⟨harg, hdecimals⟩ := List.cons_eq_cons.mp
    (commas_inj (hpieces arg decimals) (hpieces arg' decimals') (head_inside_inj h).2)
  refine ⟨UInt32.toNat_inj.mp ?_, harg⟩
  have hvalue := congrArg (fun w : String => Text.digitsValue w.toList)
    (word_inj (List.cons_eq_cons.mp hdecimals).1)
  simpa [Text.digitsValue_toDigits] using hvalue

theorem trim_inj {side side' : TrimSide} {arg arg' : Operation} {chars chars' : String}
    (h : (trim side arg chars).glyphs = (trim side' arg' chars').glyphs) :
    side = side' ∧ chars = chars' ∧ arg.glyphs = arg'.glyphs := by
  have hpieces (arg : Operation) (chars : String) :
      ∀ p ∈ [Dialect.sqlite.operation arg, [.string chars]], IsPiece .sqlite p :=
    List.forall_mem_cons.mpr ⟨arg.isPiece, List.forall_mem_singleton.mpr (isPiece_string _)⟩
  obtain ⟨hhead, hinside⟩ := head_inside_inj h
  obtain ⟨harg, hchars⟩ := List.cons_eq_cons.mp
    (commas_inj (hpieces arg chars) (hpieces arg' chars') hinside)
  cases hhead
  refine ⟨rfl, ?_, harg⟩
  simpa [Token.glyphs] using (List.cons_eq_cons.mp hchars).1

/-- The number of rows is not the number of values of an operand. -/
theorem star_ne_operand (x : Operand) :
    Dialect.sqlite.glyphs [.word "*"] ≠ Dialect.sqlite.glyphs (operand x) := by
  intro h
  have hstar : .plain '*' ∈ Dialect.sqlite.glyphs [.word "*"] := List.mem_cons_self
  exact absurd (plain_mem_operand (h ▸ hstar)) (by decide)

/-- What is counted can be told, and whether its values should differ, if anything is counted. -/
theorem count_inj {distinct distinct' : Bool} {x x' : Option Operand}
    (h : (aggregate (.count distinct x)).glyphs = (aggregate (.count distinct' x')).glyphs) :
    (aggregate (.count distinct x)).skeleton = (aggregate (.count distinct' x')).skeleton := by
  have hstar : Closed .sqlite [.word "*"] := leads_word rfl
  have hdistinct : Closed .sqlite [.word "DISTINCT"] := leads_word rfl
  have hrows (b : Bool) : (aggregate (.count b none)).inside = [.word "*"] := by cases b <;> rfl
  have hinside := (head_inside_inj h).2
  cases x with
  | none =>
    rw [hrows] at hinside
    cases x' with
    | none => rfl
    | some x' =>
      cases distinct' with
      | false => exact absurd hinside (star_ne_operand x')
      | true => exact absurd hinside (ne_spaced hstar hdistinct _)
  | some x =>
    cases x' with
    | none =>
      rw [hrows] at hinside
      cases distinct with
      | false => exact absurd hinside.symm (star_ne_operand x)
      | true => exact absurd hinside.symm (ne_spaced hstar hdistinct _)
    | some x' =>
      suffices hcount : distinct = distinct' ∧ x.atom = x'.atom by
        simp only [skeleton, hcount]
      cases distinct with
      | false =>
        cases distinct' with
        | false => exact ⟨rfl, operand_inj hinside⟩
        | true => exact absurd hinside (ne_spaced (closed_operand x) hdistinct _)
      | true =>
        cases distinct' with
        | false => exact absurd hinside.symm (ne_spaced (closed_operand x') hdistinct _)
        | true => exact ⟨rfl, operand_inj (spaced_inj hdistinct hdistinct hinside).2⟩

theorem aggregate_inj {a a' : Aggregation} (h : (aggregate a).glyphs = (aggregate a').glyphs) :
    (aggregate a).skeleton = (aggregate a').skeleton := by
  obtain ⟨hhead, hinside⟩ := head_inside_inj h
  cases a with
  | of f x =>
    cases a' with
    | of f' x' =>
      cases hhead
      exact congrArg (fun atom => Skeleton.node (.aggregate f atom) []) (operand_inj hinside)
    | count _ _ => cases hhead
  | count distinct x =>
    cases a' with
    | of _ _ => cases hhead
    | count distinct' x' => exact count_inj h

/-! ### Operations can be told -/

/-- **The label of an operation can be told**, and so can the text of its arguments. -/
theorem glyphs_inj (h : op.glyphs = op'.glyphs) :
    op.skeleton.label = op'.skeleton.label ∧
      op.arguments.map Operation.glyphs = op'.arguments.map Operation.glyphs := by
  obtain ⟨hhead, hinside⟩ := head_inside_inj h
  cases op with
  | call f arg =>
    cases op' with
    | call f' arg' =>
      cases hhead
      exact ⟨rfl, congrArg ([·]) hinside⟩
    | _ => cases hhead
  | part p arg =>
    cases op' with
    | part p' arg' =>
      obtain ⟨rfl, harg⟩ := part_inj h
      exact ⟨rfl, congrArg ([·]) harg⟩
    | cast _ _ => exact absurd h.symm cast_ne_part
    | daysBetween _ _ => exact absurd h part_ne_daysBetween
    | _ => cases hhead
  | arith o lhs rhs =>
    cases op' with
    | arith o' lhs' rhs' =>
      obtain ⟨rfl, hlhs, hrhs⟩ := arith_inj h
      exact ⟨rfl, congrArg₂ ([·, ·]) hlhs hrhs⟩
    | concat _ => exact absurd h arith_ne_concat
    | _ => cases hhead
  | cast arg kind =>
    cases op' with
    | cast arg' kind' =>
      obtain ⟨hclass, harg⟩ := cast_inj h
      exact ⟨congrArg Label.cast hclass, congrArg ([·]) harg⟩
    | part _ _ => exact absurd h cast_ne_part
    | daysBetween _ _ => exact absurd h cast_ne_daysBetween
    | _ => cases hhead
  | coalesce args =>
    cases op' with
    | coalesce args' => exact ⟨rfl, coalesce_inj h⟩
    | _ => cases hhead
  | concat args =>
    cases op' with
    | concat args' => exact ⟨rfl, concat_inj h⟩
    | arith _ _ _ => exact absurd h.symm arith_ne_concat
    | _ => cases hhead
  | datePlus date durations =>
    cases op' with
    | datePlus date' durations' =>
      obtain ⟨hmodifiers, hdate⟩ := datePlus_inj h
      exact ⟨congrArg Label.datePlus hmodifiers, congrArg ([·]) hdate⟩
    | _ => cases hhead
  | daysBetween start finish =>
    cases op' with
    | daysBetween start' finish' =>
      obtain ⟨hstart, hfinish⟩ := daysBetween_inj h
      exact ⟨rfl, congrArg₂ ([·, ·]) hstart hfinish⟩
    | part _ _ => exact absurd h.symm part_ne_daysBetween
    | cast _ _ => exact absurd h.symm cast_ne_daysBetween
    | _ => cases hhead
  | replaceAll arg piece substitute =>
    cases op' with
    | replaceAll arg' piece' substitute' => exact ⟨rfl, replaceAll_inj h⟩
    | _ => cases hhead
  | round arg decimals =>
    cases op' with
    | round arg' decimals' =>
      obtain ⟨rfl, harg⟩ := round_inj h
      exact ⟨rfl, congrArg ([·]) harg⟩
    | _ => cases hhead
  | trim side arg chars =>
    cases op' with
    | trim side' arg' chars' =>
      obtain ⟨rfl, rfl, harg⟩ := trim_inj h
      exact ⟨rfl, congrArg ([·]) harg⟩
    | _ => cases hhead
  | aggregate a =>
    cases op' with
    | aggregate a' => exact ⟨congrArg Skeleton.label (aggregate_inj h), rfl⟩
    | _ => cases hhead
  | column c =>
    cases op' with
    | column _ | value _ => exact ⟨congrArg Label.atom (operand_inj hinside), rfl⟩
    | _ => cases hhead
  | value v =>
    cases op' with
    | column _ | value _ => exact ⟨congrArg Label.atom (operand_inj hinside), rfl⟩
    | _ => cases hhead

/-- What tells the members of one list apart from those of another does so for the lists. -/
theorem map_eq_map_of_mem {α β γ : Type} {f : α → β} {g : α → γ} {xs ys : List α}
    (h : xs.map f = ys.map f) (hfg : ∀ x ∈ xs, ∀ y, f x = f y → g x = g y) :
    xs.map g = ys.map g := by
  induction xs generalizing ys with
  | nil => rw [List.map_eq_nil_iff.mp h.symm]
  | cons x xs ih =>
    obtain ⟨y, ys, rfl, hy, hys⟩ := List.map_eq_cons_iff.mp h.symm
    have hrest := ih hys.symm fun z hz => hfg z (List.mem_cons_of_mem x hz)
    exact congrArg₂ List.cons (hfg x List.mem_cons_self y hy.symm) hrest

/-- Operations that a reader sees alike have the same skeleton. -/
theorem skeleton_eq_of_glyphs (op op' : Operation) (h : op.glyphs = op'.glyphs) :
    op.skeleton = op'.skeleton := by
  obtain ⟨hlabel, harguments⟩ := glyphs_inj h
  have hskeletons : op.arguments.map skeleton = op'.arguments.map skeleton :=
    map_eq_map_of_mem harguments fun arg _ arg' => skeleton_eq_of_glyphs arg arg'
  rw [skeleton_eq op, skeleton_eq op', hlabel, hskeletons]
termination_by sizeOf op
decreasing_by exact sizeOf_lt_of_mem_arguments ‹_›

end Operation

/-! ### The text of a skeleton -/

/-- An atom as SQLite writes it. -/
def Atom.sql : Atom → Sql
  | .column (some t) name => [.name t, .word ".", .name name]
  | .column none name => [.name name]
  | .literal text => [.word text]

/-- A label as SQLite writes it, with its arguments. -/
def Label.sql : Label → List Sql → Sql
  | .call f, args => Sql.between (Dialect.sqlite.callOpening f) args.flatten ")"
  | .part p, args => Dialect.sqlite.part p args.flatten
  | .arith o, args =>
    Sql.between "(" (Sql.separated (" " ++ Dialect.arithmeticSign o ++ " ") args) ")"
  | .cast target, args => Sql.between "CAST(" args.flatten (" AS " ++ target.name ++ ")")
  | .coalesce, args => Sql.between "coalesce(" (Sql.commas args) ")"
  | .concat, args => Dialect.sqlite.concat args
  | .datePlus modifiers, args =>
    Sql.between "datetime(" (Sql.commas (args ++ modifiers.map fun m => [.fixed m])) ")"
  | .daysBetween, args =>
    Sql.between "CAST(julianday(" (Sql.separated ") - julianday(" args.reverse) ") AS INTEGER)"
  | .replaceAll, args => Sql.between "replace(" (Sql.commas args) ")"
  | .round decimals, args => Dialect.sqlite.round args.flatten decimals
  | .trim side chars, args => Dialect.sqlite.trim side args.flatten chars
  | .aggregate f x, _ => Sql.between (Dialect.aggregateOpening f) x.sql ")"
  | .countRows, _ => [.word "COUNT(*)"]
  | .count distinct x, _ =>
    Sql.between (if distinct then "COUNT(DISTINCT " else "COUNT(") x.sql ")"
  | .atom a, _ => a.sql

mutual

/-- A skeleton as SQLite writes it. -/
def Skeleton.sql : Skeleton → Sql
  | .node label arguments => label.sql (Skeleton.sqls arguments)

/-- Skeletons one by one. -/
def Skeleton.sqls : List Skeleton → List Sql
  | [] => []
  | s :: rest => s.sql :: Skeleton.sqls rest

end

namespace Operation

open Dialect

theorem chars_separated {d : Dialect} (w : String) : ∀ ps : List Sql,
    d.chars (separated w ps) = w.toList.intercalate (ps.map d.chars)
  | [] => rfl
  | [p] => by simp [separated]
  | p :: q :: rest => by
    simp only [separated, chars_append, chars_cons, chars_separated w (q :: rest), List.map_cons,
      List.intercalate_cons_cons, Token.chars, List.append_assoc]

theorem chars_commas {d : Dialect} (ps : List Sql) :
    d.chars (Sql.commas ps) = ", ".toList.intercalate (ps.map d.chars) :=
  chars_separated ", " ps

theorem chars_atom (x : Operand) :
    Dialect.sqlite.chars (operand x) = Dialect.sqlite.chars x.atom.sql := by
  cases x with
  | column c =>
    simp only [operand, columnName, Operand.atom]
    cases c.tableAlias <;> rfl
  | value v => simp [operand, Operand.atom, Atom.sql, Token.chars, Dialect.text]

mutual

/-- **Nothing else goes into the text**: an operation is written like its skeleton. -/
theorem chars_eq : ∀ op : Operation,
    Dialect.sqlite.chars (Dialect.sqlite.operation op) = Dialect.sqlite.chars op.skeleton.sql
  | .call f arg => by
    simp [operation, skeleton, Skeleton.sql, Skeleton.sqls, Label.sql, Sql.between, chars_eq arg]
  | .part p arg => by
    simp [operation, skeleton, Skeleton.sql, Skeleton.sqls, Label.sql, Dialect.part, chars_eq arg]
  | .arith o lhs rhs => by
    simp [operation, skeleton, Skeleton.sql, Skeleton.sqls, Label.sql, Dialect.arith, Sql.between,
      separated, chars_eq lhs, chars_eq rhs]
  | .cast arg kind => by
    simp [operation, skeleton, Skeleton.sql, Skeleton.sqls, Label.sql, Sql.between,
      castName_sqlite, chars_eq arg]
  | .coalesce args => by
    simp [operation, skeleton, Skeleton.sql, Label.sql, Sql.between, chars_commas,
      chars_operations args]
  | .concat args => by
    simp [operation, skeleton, Skeleton.sql, Label.sql, Dialect.concat, Sql.between,
      chars_separated, chars_operations args]
  | .datePlus date durations => by
    simp [operation, skeleton, Skeleton.sql, Skeleton.sqls, Label.sql, Dialect.datePlus,
      Sql.between, chars_commas, chars_eq date, Function.comp_def]
  | .daysBetween start finish => by
    simp [operation, skeleton, Skeleton.sql, Skeleton.sqls, Label.sql, Dialect.daysBetween,
      Sql.between, separated, chars_eq start, chars_eq finish]
  | .replaceAll arg piece substitute => by
    simp [operation, skeleton, Skeleton.sql, Skeleton.sqls, Label.sql, Sql.between, chars_commas,
      chars_eq arg, chars_eq piece, chars_eq substitute]
  | .round arg decimals => by
    simp [operation, skeleton, Skeleton.sql, Skeleton.sqls, Label.sql, Dialect.round, Sql.between,
      chars_eq arg]
  | .trim side arg chars => by
    simp [operation, skeleton, Skeleton.sql, Skeleton.sqls, Label.sql, Dialect.trim, chars_eq arg]
  | .aggregate (.of f x) => by
    simp [operation, skeleton, Skeleton.sql, Label.sql, aggregation, Sql.between, chars_atom]
  | .aggregate (.count distinct none) => by cases distinct <;> rfl
  | .aggregate (.count distinct (some x)) => by
    cases distinct <;>
      simp [operation, skeleton, Skeleton.sql, Label.sql, aggregation, Sql.between, chars_atom]
  | .column c => chars_atom (.column c)
  | .value v => chars_atom (.value v)

theorem chars_operations : ∀ ops : List Operation,
    (Dialect.sqlite.operations ops).map Dialect.sqlite.chars =
      (Skeleton.sqls (skeletons ops)).map Dialect.sqlite.chars
  | [] => rfl
  | op :: rest => congrArg₂ List.cons (chars_eq op) (chars_operations rest)

end

/-- **Operations can be told from their text in SQLite**, as far as their skeletons differ, and no
further. -/
theorem text_eq_iff_skeleton (op op' : Operation) :
    Dialect.sqlite.text (Dialect.sqlite.operation op) =
        Dialect.sqlite.text (Dialect.sqlite.operation op') ↔
      op.skeleton = op'.skeleton := by
  refine ⟨fun h => ?_, fun h => ?_⟩
  · exact skeleton_eq_of_glyphs op op'
      ((text_eq_iff (apart_operation .sqlite op) (apart_operation .sqlite op')).mp h)
  · have hchars := chars_eq op'
    rw [← h, ← chars_eq op] at hchars
    exact text_eq_iff_chars.mpr hchars.symm

end Operation

end SqlRecords
