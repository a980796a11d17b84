import SqlRecords.Proofs.Dialect.Apart

/-!
# Conditions can be told from their text

Comparisons, null tests and LIKE are written without brackets around their operands, and
the operands may hold any text between quotes, any brackets and any lists. The text can
still be split in one way only, because every operation is closed: outside of quotes its
brackets match, and it holds no blank outside of brackets. So the first blank outside of
quotes and brackets ends the first operand of a condition, and the words behind that blank
say what kind of condition it is; no such words begin with others.

`depthBehind` goes through the glyphs of a text and counts brackets. `Sql.Leads` says of a
piece of SQL that it leads from one depth to another, with no blank outside of brackets.

## What is proved

* `Dialect.text_eq_iff`: of tokens that keep apart, the text is the same if and only if a
  reader sees the same.
* `Dialect.closed_operation`: an operation is closed.
* `Dialect.glyphs_condition_inj`: the first blank outside of quotes and brackets splits a
  condition.
* **`Dialect.text_condition_eq_iff`**: two conditions have the same text if and only if
  they are the same tree, over operations with the same text and the same patterns.
-/

namespace SqlRecords

open Decimal

/-! ### Text and glyphs -/

/-- The characters that show a glyph. -/
def Glyph.chars : Glyph → List Char
  | .plain c => [c]
  | .quoted quote content => Text.enclosed quote content.toList

namespace Dialect

variable {d : Dialect}

/-- The glyphs of a piece of SQL tell its characters. -/
theorem chars_eq_flatMap (sql : Sql) : d.chars sql = (d.glyphs sql).flatMap Glyph.chars := by
  have hplain (s : List Char) : (s.map Glyph.plain).flatMap Glyph.chars = s := by
    induction s with
    | nil => rfl
    | cons c rest ih => simpa [Glyph.chars] using ih
  induction sql with
  | nil => rfl
  | cons t rest ih =>
    rw [chars_cons, glyphs_cons, List.flatMap_append, ih]
    cases t with
    | word w => exact congrArg (· ++ _) (hplain _).symm
    | place i => exact congrArg (· ++ _) (hplain _).symm
    | _ => simp [Token.glyphs, Token.chars, Glyph.chars]

theorem text_eq_iff_chars {p q : Sql} : d.text p = d.text q ↔ d.chars p = d.chars q :=
  String.ofList_inj

theorem text_eq_of_glyphs {p q : Sql} (h : d.glyphs p = d.glyphs q) : d.text p = d.text q := by
  rw [text_eq_iff_chars, chars_eq_flatMap, chars_eq_flatMap, h]

/-- Tokens that keep apart have the same text if and only if a reader sees the same. -/
theorem text_eq_iff {p q : Sql} (hp : p.Apart) (hq : q.Apart) :
    d.text p = d.text q ↔ d.glyphs p = d.glyphs q := by
  refine ⟨fun h => ?_, text_eq_of_glyphs⟩
  obtain ⟨b, hp⟩ := hp
  obtain ⟨b', hq⟩ := hq
  have hended : d.text (p ++ [.word ";"]) = d.text (q ++ [.word ";"]) := by
    simp only [text, chars_append, String.ofList_append] at h ⊢
    rw [h]
  have hscan := (scan_text hp).symm.trans ((congrArg d.scan hended).trans (scan_text hq))
  simpa using hscan

end Dialect

/-! ### Reading step by step -/

section Runs

variable {σ : Type} {step : σ → Glyph → Option σ} {a b c : σ} {d : Dialect} {p q : Sql} {w : String}

/-- Characters that change nothing lead nowhere. -/
theorem foldlM_plain {s : List Char} (h : ∀ c ∈ s, step a (.plain c) = some a) :
    (s.map Glyph.plain).foldlM step a = some a := by
  induction s with
  | nil => rfl
  | cons c rest ih =>
    rw [List.map_cons, List.foldlM_cons, h c List.mem_cons_self]
    exact ih fun x hx => h x (List.mem_cons_of_mem c hx)

namespace Sql

/-- A reader of a piece of SQL who goes from one state to the next by its glyphs comes from one
state to another. -/
def Runs (step : σ → Glyph → Option σ) (d : Dialect) (a : σ) (p : Sql) (b : σ) : Prop :=
  (d.glyphs p).foldlM step a = some b

theorem runs_nil : Runs step d a [] a := rfl

theorem Runs.append (hp : Runs step d a p b) (hq : Runs step d b q c) :
    Runs step d a (p ++ q) c := by
  rw [Runs, Dialect.glyphs_append, List.foldlM_append]
  exact Option.bind_eq_some_iff.mpr ⟨b, hp, hq⟩

theorem Runs.word (hw : Runs step d a [.word w] b) (hp : Runs step d b p c) :
    Runs step d a (.word w :: p) c :=
  Runs.append (p := [.word w]) hw hp

theorem runs_separated (hw : Runs step d a [.word w] a) : ∀ {pieces : List Sql},
    (∀ p ∈ pieces, Runs step d a p a) → Runs step d a (separated w pieces) a
  | [], _ => runs_nil
  | [p], h => h p (List.mem_singleton_self p)
  | p :: q :: rest, h =>
    (h p List.mem_cons_self).append
      (.word hw (runs_separated hw fun r (hr : r ∈ q :: rest) => h r (List.mem_cons_of_mem p hr)))

end Sql

end Runs

/-! ### The depth of brackets -/

/-- The depth of brackets behind a glyph that is read at some depth, unless a bracket ends that was
not begun, or there is a blank outside of brackets. -/
def Glyph.depthBehind (depth : Nat) : Glyph → Option Nat
  | .plain '(' => some (depth + 1)
  | .plain ')' => if depth = 0 then none else some (depth - 1)
  | .plain ' ' => if depth = 0 then none else some depth
  | _ => some depth

/-- The depth of brackets behind some glyphs. -/
def depthBehind (depth : Nat) (gs : List Glyph) : Option Nat := gs.foldlM Glyph.depthBehind depth

/-- The depth of brackets behind a word. -/
def wordDepth (depth : Nat) (w : String) : Option Nat := depthBehind depth (w.toList.map .plain)

variable {a b c e : Nat}

theorem depthBehind_append (gs hs : List Glyph) :
    depthBehind a (gs ++ hs) = (depthBehind a gs).bind fun b => depthBehind b hs :=
  List.foldlM_append

theorem Glyph.depthBehind_add {g : Glyph} (k : Nat) (h : g.depthBehind a = some b) :
    g.depthBehind (a + k) = some (b + k) := by
  unfold Glyph.depthBehind at h ⊢
  split at h <;> simp_all <;> omega

/-- Inside of more brackets the same glyphs lead equally far. -/
theorem depthBehind_add (k : Nat) : ∀ {a : Nat} {gs : List Glyph},
    depthBehind a gs = some b → depthBehind (a + k) gs = some (b + k)
  | a, [], h => by
    cases h
    rfl
  | a, g :: gs, h => by
    obtain ⟨c, hc, hgs⟩ := Option.bind_eq_some_iff.mp (List.foldlM_cons.symm.trans h)
    rw [depthBehind, List.foldlM_cons, Glyph.depthBehind_add k hc]
    exact depthBehind_add k hgs

/-- What goes on behind a blank outside of brackets is not without such blanks. -/
theorem depthBehind_append_blank {gs hs : List Glyph} (h : depthBehind 0 gs = some 0) :
    depthBehind 0 (gs ++ .plain ' ' :: hs) = none := by
  rw [depthBehind_append, h]
  rfl

/-- A blank outside of brackets ends glyphs without such a blank, so it splits what they stand
in. -/
theorem append_blank_inj {gs gs' hs hs' : List Glyph} (hg : depthBehind 0 gs = some 0)
    (hg' : depthBehind 0 gs' = some 0) (h : gs ++ .plain ' ' :: hs = gs' ++ .plain ' ' :: hs') :
    gs = gs' ∧ hs = hs' := by
  rcases List.append_eq_append_iff.mp h with ⟨ms, hms, hrest⟩ | ⟨ms, hms, hrest⟩
  · cases ms with
    | nil => exact ⟨by simpa using hms.symm, by simpa using hrest⟩
    | cons m ms =>
      obtain ⟨rfl, -⟩ := List.cons.inj hrest
      rw [hms, depthBehind_append_blank hg] at hg'
      cases hg'
  · cases ms with
    | nil => exact ⟨by simpa using hms, by simpa using hrest.symm⟩
    | cons m ms =>
      obtain ⟨rfl, -⟩ := List.cons.inj hrest
      rw [hms, depthBehind_append_blank hg'] at hg
      cases hg

/-! ### Words -/

/-- Of words that never begin with one another, the one that some glyphs begin with can be told. -/
theorem leading_inj {κ : Type} {words : κ → String}
    (hfree : ∀ k k', (words k).toList <+: (words k').toList → k = k') {k k' : κ}
    {gs gs' : List Glyph}
    (h : (words k).toList.map .plain ++ gs = (words k').toList.map .plain ++ gs') :
    k = k' ∧ gs = gs' := by
  have hinj : Function.Injective Glyph.plain := fun _ _ h => Glyph.plain.inj h
  have hk : k = k' := by
    rcases List.append_eq_append_iff.mp h with ⟨ms, hms, -⟩ | ⟨ms, hms, -⟩
    · exact hfree k k' ((List.prefix_map_iff_of_injective hinj).mp ⟨ms, hms.symm⟩)
    · exact (hfree k' k ((List.prefix_map_iff_of_injective hinj).mp ⟨ms, hms.symm⟩)).symm
  subst hk
  exact ⟨rfl, List.append_cancel_left h⟩

theorem wordDepth_append {v w : String} (hv : wordDepth a v = some b)
    (hw : wordDepth b w = some c) : wordDepth a (v ++ w) = some c := by
  rw [wordDepth, String.toList_append, List.map_append, depthBehind_append]
  exact Option.bind_eq_some_iff.mpr ⟨b, hv, hw⟩

/-- Characters of numbers are neither brackets nor blanks. -/
theorem depthBehind_of_isNumeric {s : List Char} (h : IsNumeric s) :
    depthBehind a (s.map .plain) = some a := by
  refine foldlM_plain fun c hc => ?_
  have hnumeral := h c hc
  unfold Glyph.depthBehind
  split
  · next hx => cases hx; exact absurd hnumeral (by decide)
  · next hx => cases hx; exact absurd hnumeral (by decide)
  · next hx => cases hx; exact absurd hnumeral (by decide)
  · rfl

theorem wordDepth_toString_int (n : Int) : wordDepth a (toString n) = some a :=
  depthBehind_of_isNumeric fun _ => isNumeral_of_mem_toString

theorem wordDepth_toString (n : Nat) : wordDepth a (toString n) = some a :=
  wordDepth_toString_int n

theorem wordDepth_write (l : Layout) (u : Unpacked) : wordDepth a (l.write u) = some a :=
  depthBehind_of_isNumeric (isNumeric_write l u)

/-! ### Pieces -/

namespace Sql

variable {d : Dialect} {p q : Sql}

/-- A piece of SQL leads from one depth of brackets to another, with no blank outside of
brackets. -/
def Leads (d : Dialect) (a : Nat) (p : Sql) (b : Nat) : Prop := depthBehind a (d.glyphs p) = some b

/-- A piece of SQL whose brackets match, with no blank outside of them. -/
abbrev Closed (d : Dialect) (p : Sql) : Prop := Leads d 0 p 0

theorem leads_nil : Leads d a [] a := rfl

theorem Leads.append (hp : Leads d a p b) (hq : Leads d b q c) : Leads d a (p ++ q) c :=
  Runs.append hp hq

theorem Leads.word {w : String} (hw : wordDepth a w = some b) (hp : Leads d b p c) :
    Leads d a (.word w :: p) c :=
  Leads.append (p := [.word w]) (by simpa [Leads, wordDepth, Token.glyphs, Token.chars] using hw) hp

theorem leads_word {w : String} (hw : wordDepth a w = some b) : Leads d a [.word w] b :=
  .word hw leads_nil

theorem leads_name (n : String) : Leads d a [.name n] a := rfl

theorem leads_string (s : String) : Leads d a [.string s] a := rfl

theorem leads_fixed (s : String) : Leads d a [.fixed s] a := rfl

/-- A closed piece can stand at any depth. -/
theorem Closed.leads (hp : Closed d p) (a : Nat) : Leads d a p a := by
  have h := depthBehind_add a hp
  rwa [Nat.zero_add] at h

theorem Leads.between {before after : String} (hb : wordDepth a before = some b)
    (hp : Closed d p) (ha : wordDepth b after = some c) : Leads d a (between before p after) c :=
  (Leads.word hb (hp.leads b)).append (leads_word ha)

/-- Two closed pieces with words before, between and behind them. -/
theorem Leads.joined {before middle after : String} (hb : wordDepth a before = some b)
    (hp : Closed d p) (hm : wordDepth b middle = some c) (hq : Closed d q)
    (ha : wordDepth c after = some e) :
    Leads d a (.word before :: p ++ .word middle :: q ++ [.word after]) e :=
  ((Leads.word hb (hp.leads b)).append (.word hm (hq.leads c))).append (leads_word ha)

theorem leads_separated {w : String} (hw : wordDepth a w = some a) {pieces : List Sql}
    (h : ∀ p ∈ pieces, Leads d a p a) : Leads d a (separated w pieces) a :=
  runs_separated (leads_word hw) h

/-- A list in brackets, whose pieces need not be closed themselves. -/
theorem closed_list {opening separator : String} {pieces : List Sql}
    (ho : wordDepth 0 opening = some 1) (hs : wordDepth 1 separator = some 1)
    (h : ∀ p ∈ pieces, Leads d 1 p 1) :
    Closed d (between opening (separated separator pieces) ")") :=
  (Leads.word ho (leads_separated hs h)).append (leads_word rfl)

end Sql

open Sql

/-! ### Operations are closed -/

namespace Dialect

variable {d : Dialect}

theorem closed_literal (v : Value) : Closed d (literal v) := by
  cases v with
  | integer n => exact leads_word (wordDepth_toString_int _)
  | float x =>
    refine leads_word ?_
    split
    · exact wordDepth_write _ _
    · rfl
  | string s => exact leads_string s

theorem closed_columnName (c : Column) : Closed d (columnName c) := by
  unfold columnName
  split
  · exact (leads_name _).append (.word rfl (leads_name _))
  · exact leads_name _

theorem closed_part (p : DatePart) {arg : Sql} (h : Closed d arg) : Closed d (d.part p arg) := by
  cases d with
  | sqlite =>
    have hformat : Leads .sqlite 2 (.fixed (partFormat p) :: .word ", " :: arg) 2 :=
      (leads_fixed _).append (.word rfl (h.leads 2))
    exact (Leads.word rfl hformat).append (leads_word rfl)
  | postgres => exact .between (b := 1) (by cases p <;> rfl) h rfl
  | mysql => cases p <;> exact .between rfl h rfl

theorem closed_arith (o : Arithmetic) {lhs rhs : Sql} (hl : Closed d lhs) (hr : Closed d rhs) :
    Closed d (d.arith o lhs rhs) := by
  cases d <;> cases o <;> exact .joined rfl hl rfl hr rfl

theorem closed_round {arg : Sql} (h : Closed d arg) (decimals : UInt32) :
    Closed d (d.round arg decimals) := by
  have hn {b : Nat} {opening : String} (ho : wordDepth b opening = some 1) :
      wordDepth b (opening ++ toString decimals.toNat ++ ")") = some 0 :=
    wordDepth_append (wordDepth_append ho (wordDepth_toString _)) rfl
  cases d with
  | postgres => exact .between (b := 2) rfl h (hn rfl)
  | _ => exact .between (b := 1) rfl h (hn rfl)

theorem closed_trim (side : TrimSide) {arg : Sql} (h : Closed d arg) (chars : String) :
    Closed d (d.trim side arg chars) := by
  cases d with
  | sqlite =>
    have hopening : wordDepth 0 (trimOpening side) = some 1 := by cases side <;> rfl
    exact (Leads.word hopening (h.leads 1)).append
      (.word rfl ((leads_string chars).append (leads_word rfl)))
  | _ =>
    have hopening : wordDepth 0 ("TRIM(" ++ trimWord side ++ " ") = some 1 := by cases side <;> rfl
    exact (Leads.word hopening ((leads_string chars).append (.word rfl (h.leads 1)))).append
      (leads_word rfl)

theorem closed_concat {args : List Sql} (h : ∀ p ∈ args, Closed d p) :
    Closed d (d.concat args) := by
  cases d <;> exact closed_list rfl rfl fun p hp => (h p hp).leads 1

theorem closed_daysBetween {start finish : Sql} (hs : Closed d start) (hf : Closed d finish) :
    Closed d (d.daysBetween start finish) := by
  cases d <;> exact .joined rfl hf rfl hs rfl

theorem wordDepth_intervalWords (u : Duration) : wordDepth 1 (intervalWords u) = some 1 := by
  unfold intervalWords
  split <;> exact wordDepth_append (wordDepth_toString_int _) rfl

theorem closed_datePlus {date : Sql} (h : Closed d date) (durations : List Duration) :
    Closed d (d.datePlus date durations) := by
  cases d with
  | sqlite =>
    refine closed_list rfl rfl fun p hp => ?_
    rcases List.mem_cons.mp hp with rfl | hp
    · exact h.leads 1
    · obtain ⟨u, -, rfl⟩ := List.mem_map.mp hp
      exact leads_fixed _
  | postgres =>
    -- An interval has a blank in it, but stands in the brackets of the sum.
    refine closed_list rfl rfl fun p hp => ?_
    rcases List.mem_cons.mp hp with rfl | hp
    · exact h.leads 1
    · obtain ⟨u, -, rfl⟩ := List.mem_map.mp hp
      exact .word rfl (leads_fixed _)
  | mysql =>
    unfold datePlus
    induction durations generalizing date with
    | nil => exact h
    | cons u rest ih =>
      refine ih (.between (b := 1) rfl h ?_)
      exact wordDepth_append (wordDepth_append rfl (wordDepth_intervalWords u)) rfl

theorem closed_operand (x : Operand) : Closed d (operand x) := by
  cases x with
  | column c => exact closed_columnName c
  | value v => exact closed_literal v

theorem closed_aggregation (a : Aggregation) : Closed d (aggregation a) := by
  unfold aggregation
  split
  · exact .between (b := 1) (by next f _ => cases f <;> rfl) (closed_operand _) rfl
  · exact leads_word rfl
  · exact .between rfl (closed_operand _) rfl
  · exact .between rfl (closed_operand _) rfl

/-- The name of a kind may end in a length, in brackets of its own. -/
theorem wordDepth_ofLength {opening : String} (ho : wordDepth 1 opening = some 2) (n : Nat) :
    wordDepth 1 (opening ++ toString n ++ ")") = some 1 :=
  wordDepth_append (wordDepth_append ho (wordDepth_toString n)) rfl

theorem wordDepth_castName (kind : Kind) : wordDepth 1 (d.castName kind) = some 1 := by
  cases d with
  | sqlite =>
    cases kind with
    | varchar n => exact (rfl : wordDepth 1 "TEXT" = some 1)
    | _ => rfl
  | _ =>
    cases kind with
    | varchar n => exact wordDepth_ofLength rfl _
    | _ => rfl

mutual

/-- **An operation is closed**: outside of quotes its brackets match, and it has no blank outside of
them. -/
theorem closed_operation : ∀ op : Operation, Closed d (d.operation op)
  | .call f arg => by
    rw [operation]
    exact .between (b := 1) (by cases d <;> cases f <;> rfl) (closed_operation arg) rfl
  | .part p arg => by
    rw [operation]
    exact closed_part p (closed_operation arg)
  | .arith o lhs rhs => by
    rw [operation]
    exact closed_arith o (closed_operation lhs) (closed_operation rhs)
  | .cast arg kind => by
    rw [operation]
    refine .between (b := 1) rfl (closed_operation arg) ?_
    exact wordDepth_append (wordDepth_append rfl (wordDepth_castName kind)) rfl
  | .coalesce args => by
    rw [operation]
    exact closed_list rfl rfl fun p hp => (closed_operations args p hp).leads 1
  | .concat args => by
    rw [operation]
    exact closed_concat (closed_operations args)
  | .datePlus date durations => by
    rw [operation]
    exact closed_datePlus (closed_operation date) durations
  | .daysBetween start finish => by
    rw [operation]
    exact closed_daysBetween (closed_operation start) (closed_operation finish)
  | .replaceAll arg piece substitute => by
    rw [operation]
    refine closed_list rfl rfl fun p hp => ?_
    simp only [List.mem_cons, List.not_mem_nil, or_false] at hp
    rcases hp with rfl | rfl | rfl
    · exact (closed_operation arg).leads 1
    · exact (closed_operation piece).leads 1
    · exact (closed_operation substitute).leads 1
  | .round arg decimals => by
    rw [operation]
    exact closed_round (closed_operation arg) decimals
  | .trim side arg chars => by
    rw [operation]
    exact closed_trim side (closed_operation arg) chars
  | .aggregate a => by
    rw [operation]
    exact closed_aggregation a
  | .column c => by
    rw [operation]
    exact closed_columnName c
  | .value v => by
    rw [operation]
    exact closed_literal v

/-- So is each of some operations. -/
theorem closed_operations : ∀ ops : List Operation, ∀ p ∈ d.operations ops, Closed d p
  | [], p, hp => by
    rw [operations] at hp
    cases hp
  | op :: rest, p, hp => by
    rw [operations] at hp
    rcases List.mem_cons.mp hp with rfl | hp
    · exact closed_operation op
    · exact closed_operations rest p hp

end

theorem operations_eq_map (d : Dialect) (ops : List Operation) :
    d.operations ops = ops.map d.operation := by
  induction ops with
  | nil => rfl
  | cons op rest ih => rw [operations, ih, List.map_cons]

/-- Inside of brackets, those of a condition match too. -/
theorem leads_condition : ∀ c : Condition, Leads d 1 (d.condition c) 1
  | .and lhs rhs | .or lhs rhs => by
    have hjoined {middle : String} (hm : wordDepth 2 middle = some 2) :
        Leads d 1
          (.word "(" :: d.condition lhs ++ .word middle :: d.condition rhs ++ [.word ")"]) 1 :=
      ((Leads.word rfl (depthBehind_add 1 (leads_condition lhs))).append
        (.word hm (depthBehind_add 1 (leads_condition rhs)))).append (leads_word rfl)
    exact hjoined rfl
  | .not c => (Leads.word rfl (depthBehind_add 1 (leads_condition c))).append (leads_word rfl)
  | .compare o lhs rhs =>
    ((closed_operation lhs).leads 1).append
      (.word (by cases o <;> rfl) ((closed_operation rhs).leads 1))
  | .isNull arg | .isNotNull arg => ((closed_operation arg).leads 1).append (leads_word rfl)
  | .like arg pattern | .notLike arg pattern =>
    ((closed_operation arg).leads 1).append (.word rfl (leads_string pattern))

end Dialect

/-! ### Conditions are split -/

/-- The kinds of condition. -/
inductive Connective where
  | and
  | or
  | not
  | compare (o : Comparison)
  | isNull
  | isNotNull
  | like
  | notLike
  deriving DecidableEq, Repr

namespace Connective

/-- The kinds of condition, each once. -/
def all : List Connective :=
  [.and, .or, .not] ++ Comparison.all.map .compare ++ [.isNull, .isNotNull, .like, .notLike]

/-- What a condition has behind the first blank outside of brackets. -/
def words : Connective → String
  | .and => "AND ("
  | .or => "OR ("
  | .not => "("
  | .compare o => Dialect.comparisonSign o ++ " "
  | .isNull => "IS NULL"
  | .isNotNull => "IS NOT NULL"
  | .like => "LIKE "
  | .notLike => "NOT LIKE "

theorem mem_all (k : Connective) : k ∈ all := by
  cases k with
  | compare o => cases o <;> decide
  | _ => decide

/-- The words of no kind begin with those of another one. -/
theorem eq_of_leading {k k' : Connective} (h : k.words.toList <+: k'.words.toList) : k = k' := by
  have hall : ∀ k ∈ all, ∀ k' ∈ all, k.words.toList <+: k'.words.toList → k = k' := by decide
  exact hall k k.mem_all k' k'.mem_all h

/-- So the kind of a condition can be told from what begins with its words. -/
theorem words_append_inj {k k' : Connective} {gs gs' : List Glyph}
    (h : k.words.toList.map .plain ++ gs = k'.words.toList.map .plain ++ gs') :
    k = k' ∧ gs = gs' :=
  leading_inj (fun _ _ => eq_of_leading) h

end Connective

namespace Dialect

variable {d : Dialect}

/-- The kind of a condition. -/
def connective : Condition → Connective
  | .and _ _ => .and
  | .or _ _ => .or
  | .not _ => .not
  | .compare o _ _ => .compare o
  | .isNull _ => .isNull
  | .isNotNull _ => .isNotNull
  | .like _ _ => .like
  | .notLike _ _ => .notLike

/-- What a condition begins with, up to the first blank outside of brackets. -/
def opening (d : Dialect) : Condition → Sql
  | .and lhs _ | .or lhs _ => Sql.between "(" (d.condition lhs) ")"
  | .not _ => [.word "NOT"]
  | .compare _ arg _ | .isNull arg | .isNotNull arg | .like arg _ | .notLike arg _ => d.operation arg

/-- What a condition ends with, behind the words of its kind. -/
def ending (d : Dialect) : Condition → Sql
  | .and _ c | .or _ c | .not c => d.condition c ++ [.word ")"]
  | .compare _ _ rhs => d.operation rhs
  | .isNull _ | .isNotNull _ => []
  | .like _ pattern | .notLike _ pattern => [.string pattern]

theorem closed_opening (c : Condition) : Closed d (d.opening c) := by
  cases c with
  | and lhs _ | or lhs _ => exact (Leads.word rfl (leads_condition lhs)).append (leads_word rfl)
  | not _ => exact leads_word rfl
  | _ => exact closed_operation _

/-- What is inside of brackets can be told from what has them around it. -/
theorem glyphs_bracketed {p q : Sql}
    (h : d.glyphs (Sql.between "(" p ")") = d.glyphs (Sql.between "(" q ")")) :
    d.glyphs p = d.glyphs q := by
  simpa [Sql.between] using h

theorem glyphs_ended {p q : Sql} (h : d.glyphs (p ++ [.word ")"]) = d.glyphs (q ++ [.word ")"])) :
    d.glyphs p = d.glyphs q := by
  simpa using h

theorem glyphs_condition (c : Condition) :
    d.glyphs (d.condition c) = d.glyphs (d.opening c) ++ .plain ' ' ::
      ((connective c).words.toList.map .plain ++ d.glyphs (d.ending c)) := by
  cases c <;>
    simp [condition, opening, ending, connective, Connective.words, Sql.between, Token.glyphs,
      Token.chars]

/-- **The first blank outside of quotes and brackets** splits a condition: what is before it, the
kind of the condition and what is behind it can be told from the whole. -/
theorem glyphs_condition_inj {c c' : Condition}
    (h : d.glyphs (d.condition c) = d.glyphs (d.condition c')) :
    d.glyphs (d.opening c) = d.glyphs (d.opening c') ∧ connective c = connective c' ∧
      d.glyphs (d.ending c) = d.glyphs (d.ending c') := by
  rw [glyphs_condition, glyphs_condition] at h
  obtain ⟨hopening, hrest⟩ := append_blank_inj (closed_opening c) (closed_opening c') h
  exact ⟨hopening, Connective.words_append_inj hrest⟩

/-! ### The tree of a condition -/

/-- Two conditions are the same tree: they are made alike out of operations that have the same text
and of the same patterns. -/
inductive SameTree (d : Dialect) : Condition → Condition → Prop
  | and {lhs lhs' rhs rhs' : Condition} (hl : SameTree d lhs lhs') (hr : SameTree d rhs rhs') :
      SameTree d (.and lhs rhs) (.and lhs' rhs')
  | or {lhs lhs' rhs rhs' : Condition} (hl : SameTree d lhs lhs') (hr : SameTree d rhs rhs') :
      SameTree d (.or lhs rhs) (.or lhs' rhs')
  | not {c c' : Condition} (h : SameTree d c c') : SameTree d (.not c) (.not c')
  | compare {o : Comparison} {lhs lhs' rhs rhs' : Operation}
      (hl : d.text (d.operation lhs) = d.text (d.operation lhs'))
      (hr : d.text (d.operation rhs) = d.text (d.operation rhs')) :
      SameTree d (.compare o lhs rhs) (.compare o lhs' rhs')
  | isNull {arg arg' : Operation} (h : d.text (d.operation arg) = d.text (d.operation arg')) :
      SameTree d (.isNull arg) (.isNull arg')
  | isNotNull {arg arg' : Operation} (h : d.text (d.operation arg) = d.text (d.operation arg')) :
      SameTree d (.isNotNull arg) (.isNotNull arg')
  | like {arg arg' : Operation} {pattern : String}
      (h : d.text (d.operation arg) = d.text (d.operation arg')) :
      SameTree d (.like arg pattern) (.like arg' pattern)
  | notLike {arg arg' : Operation} {pattern : String}
      (h : d.text (d.operation arg) = d.text (d.operation arg')) :
      SameTree d (.notLike arg pattern) (.notLike arg' pattern)

/-- The same tree has the same text. -/
theorem SameTree.text_eq {c c' : Condition} (h : SameTree d c c') :
    d.text (d.condition c) = d.text (d.condition c') := by
  simp only [text_eq_iff_chars]
  induction h with
  | and _ _ ihl ihr | or _ _ ihl ihr => simp only [condition, chars_append, chars_cons, ihl, ihr]
  | not _ ih => simp only [condition, Sql.between, chars_append, chars_cons, ih]
  | compare hl hr =>
    simp only [condition, chars_append, chars_cons, text_eq_iff_chars.mp hl,
      text_eq_iff_chars.mp hr]
  | isNull h | isNotNull h | like h | notLike h =>
    simp only [condition, chars_append, text_eq_iff_chars.mp h]

/-- A condition is the same tree as one that a reader sees alike. -/
theorem sameTree_of_glyphs {c c' : Condition}
    (h : d.glyphs (d.condition c) = d.glyphs (d.condition c')) : SameTree d c c' := by
  induction c generalizing c' with
  | and lhs rhs ihl ihr =>
    obtain ⟨hopening, hkind, hending⟩ := glyphs_condition_inj h
    cases c' with
    | and lhs' rhs' => exact .and (ihl (glyphs_bracketed hopening)) (ihr (glyphs_ended hending))
    | _ => cases hkind
  | or lhs rhs ihl ihr =>
    obtain ⟨hopening, hkind, hending⟩ := glyphs_condition_inj h
    cases c' with
    | or lhs' rhs' => exact .or (ihl (glyphs_bracketed hopening)) (ihr (glyphs_ended hending))
    | _ => cases hkind
  | not c ih =>
    obtain ⟨-, hkind, hending⟩ := glyphs_condition_inj h
    cases c' with
    | not c' => exact .not (ih (glyphs_ended hending))
    | _ => cases hkind
  | compare o lhs rhs =>
    obtain ⟨hopening, hkind, hending⟩ := glyphs_condition_inj h
    cases c' with
    | compare o' lhs' rhs' =>
      cases hkind
      exact .compare (text_eq_of_glyphs hopening) (text_eq_of_glyphs hending)
    | _ => cases hkind
  | isNull arg =>
    obtain ⟨hopening, hkind, -⟩ := glyphs_condition_inj h
    cases c' with
    | isNull arg' => exact .isNull (text_eq_of_glyphs hopening)
    | _ => cases hkind
  | isNotNull arg =>
    obtain ⟨hopening, hkind, -⟩ := glyphs_condition_inj h
    cases c' with
    | isNotNull arg' => exact .isNotNull (text_eq_of_glyphs hopening)
    | _ => cases hkind
  | like arg pattern =>
    obtain ⟨hopening, hkind, hending⟩ := glyphs_condition_inj h
    cases c' with
    | like arg' pattern' =>
      cases hending
      exact .like (text_eq_of_glyphs hopening)
    | _ => cases hkind
  | notLike arg pattern =>
    obtain ⟨hopening, hkind, hending⟩ := glyphs_condition_inj h
    cases c' with
    | notLike arg' pattern' =>
      cases hending
      exact .notLike (text_eq_of_glyphs hopening)
    | _ => cases hkind

/-- **A condition can be told from its text**, in every dialect: two conditions have the same text
if and only if they are the same tree, down to the comparison signs and the sides of their operands,
over operations that have the same text, and with the same patterns. -/
theorem text_condition_eq_iff (d : Dialect) (c c' : Condition) :
    d.text (d.condition c) = d.text (d.condition c') ↔ SameTree d c c' := by
  rw [text_eq_iff (apart_condition d c) (apart_condition d c')]
  refine ⟨sameTree_of_glyphs, fun h => ?_⟩
  exact (text_eq_iff (apart_condition d c) (apart_condition d c')).mp h.text_eq

end Dialect

end SqlRecords
