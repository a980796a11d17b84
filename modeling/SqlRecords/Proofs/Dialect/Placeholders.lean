import SqlRecords.Proofs.Dialect.Renaming
import SqlRecords.Proofs.Text.Numerals

/-!
# The placeholders of an INSERT

A reader who knows the quotes of a dialect finds the placeholders of a text by the characters that
can begin one (`IsMark`), outside of quotes, each with the digits behind it. No word of an INSERT
holds such a character, and no digit stands behind a place of a bound value, so this reader finds
the places and nothing else, whatever the names of the table and the columns are.

## What is proved

* `Glyph.placeholders_unmarked`, `Glyph.placeholders_place`: what is found in the tokens that
  bind no value, and in one that does.
* **`Dialect.placeholders_insert`**: an INSERT has one placeholder for each of its columns, in
  order.
-/

namespace SqlRecords

/-! ### The placeholders that a reader sees -/

/-- The character can begin a placeholder. -/
def IsMark (c : Char) : Prop := c = '?' ∨ c = '$' ∨ c = ':' ∨ c = '@'

instance : DecidablePred IsMark := fun c =>
  inferInstanceAs (Decidable (c = '?' ∨ c = '$' ∨ c = ':' ∨ c = '@'))

namespace Glyph

/-- The digits that some glyphs begin with. -/
def leadingDigits : List Glyph → List Char
  | .plain c :: rest => if c.isDigit then c :: leadingDigits rest else []
  | _ => []

/-- The placeholders among some glyphs: each mark outside of quotes with the digits behind it. -/
def placeholders : List Glyph → List String
  | [] => []
  | .quoted _ _ :: rest => placeholders rest
  | .plain c :: rest =>
    if IsMark c then String.ofList (c :: leadingDigits rest) :: placeholders rest
    else placeholders rest

end Glyph

namespace Dialect

/-- The placeholders that a reader sees in a text, in order, unless it ends inside quotes. -/
def placeholders (d : Dialect) (text : String) : Option (List String) :=
  (d.scan text).map Glyph.placeholders

/-- How the place of a bound value is written, counted from 1. -/
def placeholder (d : Dialect) (i : Nat) : String :=
  match d with
  | .postgres => "$" ++ toString i
  | .sqlite | .mysql => "?"

end Dialect

/-! ### Tokens that bind no value -/

/-- No character of the text can begin a placeholder. -/
def HasNoMark (w : String) : Prop := ∀ c ∈ w.toList, ¬IsMark c

-- By the characters of the text; another instance would look at all there are.
instance (w : String) : Decidable (HasNoMark w) :=
  List.decidableBAll (fun c => ¬IsMark c) w.toList

/-- The token is no placeholder and does not look like one. -/
def Token.IsUnmarked : Token → Prop
  | .word w => HasNoMark w
  | .name _ | .string _ | .fixed _ => True
  | .place _ => False

/-- No token is a placeholder or looks like one. -/
def Sql.Unmarked (p : Sql) : Prop := ∀ t ∈ p, t.IsUnmarked

namespace Sql

variable {p q : Sql} {w : String}

theorem unmarked_nil : Unmarked [] := List.forall_mem_nil _

theorem Unmarked.append (hp : p.Unmarked) (hq : q.Unmarked) : (p ++ q).Unmarked :=
  List.forall_mem_append.mpr ⟨hp, hq⟩

theorem Unmarked.word (hw : HasNoMark w) (hp : p.Unmarked) :
    Unmarked (.word w :: p) := List.forall_mem_cons.mpr ⟨hw, hp⟩

theorem Unmarked.name (n : String) (hp : p.Unmarked) : Unmarked (.name n :: p) :=
  List.forall_mem_cons.mpr ⟨trivial, hp⟩

theorem Unmarked.between {before after : String} (hb : HasNoMark before)
    (ha : HasNoMark after) (hp : p.Unmarked) :
    (Sql.between before p after).Unmarked :=
  (hp.append (unmarked_nil.word ha)).word hb

theorem unmarked_commas : ∀ {pieces : List Sql}, (∀ p ∈ pieces, p.Unmarked) →
    (commas pieces).Unmarked
  | [], _ => unmarked_nil
  | [p], h => h p List.mem_cons_self
  | p :: _ :: _, h =>
    (h p List.mem_cons_self).append
      ((unmarked_commas fun q hq => h q (List.mem_cons_of_mem p hq)).word (by decide))

end Sql

namespace Glyph

/-! ### What the reader finds -/

variable {d : Dialect} {rest : List Glyph}

/-- There is no placeholder among characters that cannot begin one. -/
theorem placeholders_plain {s : List Char} (h : ∀ c ∈ s, ¬IsMark c) :
    placeholders (s.map .plain ++ rest) = placeholders rest := by
  induction s with
  | nil => rfl
  | cons c s ih =>
    obtain ⟨hc, hs⟩ := List.forall_mem_cons.mp h
    rw [List.map_cons, List.cons_append, placeholders, if_neg hc, ih hs]

/-- There is none among tokens that bind no value. -/
theorem placeholders_unmarked {p : Sql} (h : p.Unmarked) :
    placeholders (d.glyphs p ++ rest) = placeholders rest := by
  induction p with
  | nil => rfl
  | cons t p ih =>
    obtain ⟨ht, hp⟩ := List.forall_mem_cons.mp h
    rw [Dialect.glyphs_cons, List.append_assoc, ← ih hp]
    cases t with
    | word w => exact placeholders_plain ht
    | place i => exact ht.elim
    | _ => rfl

theorem leadingDigits_digits {s : List Char} (h : ∀ c ∈ s, c.isDigit = true) :
    leadingDigits (s.map .plain ++ rest) = s ++ leadingDigits rest := by
  induction s with
  | nil => rfl
  | cons c s ih =>
    obtain ⟨hc, hs⟩ := List.forall_mem_cons.mp h
    rw [List.map_cons, List.cons_append, leadingDigits, if_pos hc, ih hs, List.cons_append]

theorem not_isMark_of_isDigit {c : Char} (h : c.isDigit = true) : ¬IsMark c := by
  rintro (rfl | rfl | rfl | rfl) <;> cases h

/-- A place that no digit stands behind is found as it is written. -/
theorem placeholders_place {i : Nat} (h : leadingDigits rest = []) :
    placeholders ((Token.place i).glyphs d ++ rest) = d.placeholder i :: placeholders rest := by
  cases d with
  | postgres =>
    have hdigits : ∀ c ∈ (toString i).toList, c.isDigit = true := fun _ =>
      Text.isDigit_of_mem_toString
    have hglyphs : (Token.place i).glyphs .postgres =
        .plain '$' :: (toString i).toList.map .plain := rfl
    have htext : String.ofList ('$' :: (toString i).toList) = "$" ++ toString i :=
      String.toList_inj.mp (by simp)
    rw [hglyphs, List.cons_append, placeholders, if_pos (by decide), leadingDigits_digits hdigits,
      h, List.append_nil, htext,
      placeholders_plain fun c hc => not_isMark_of_isDigit (hdigits c hc), Dialect.placeholder]
  | sqlite =>
    have hglyphs : (Token.place i).glyphs .sqlite = [.plain '?'] := rfl
    rw [hglyphs, List.singleton_append, placeholders, if_pos (by decide), h]
    rfl
  | mysql =>
    have hglyphs : (Token.place i).glyphs .mysql = [.plain '?'] := rfl
    rw [hglyphs, List.singleton_append, placeholders, if_pos (by decide), h]
    rfl

/-- Places with commas between them are found in order. -/
theorem placeholders_places (h : leadingDigits rest = []) : ∀ positions : List Nat,
    placeholders (d.glyphs (Sql.commas (positions.map fun i => [.place i])) ++ rest) =
      positions.map d.placeholder ++ placeholders rest
  | [] => rfl
  | [i] => by
    have hpiece : Sql.commas ([i].map fun i => [Token.place i]) = [.place i] := rfl
    rw [hpiece, Dialect.glyphs_cons, Dialect.glyphs_nil, List.append_nil, placeholders_place h,
      List.map_singleton, List.singleton_append]
  | i :: j :: positions => by
    have ih := placeholders_places h (j :: positions)
    have hcomma : HasNoMark ", " := by decide
    have hpieces : Sql.commas ((i :: j :: positions).map fun i => [Token.place i]) =
        .place i :: .word ", " :: Sql.commas ((j :: positions).map fun i => [.place i]) := rfl
    rw [hpieces, Dialect.glyphs_cons, Dialect.glyphs_cons, List.append_assoc, List.append_assoc,
      placeholders_place (by rfl), List.map_cons (f := d.placeholder), List.cons_append, ← ih]
    exact congrArg _ (placeholders_plain hcomma)

end Glyph

namespace Dialect

open Sql

variable (d : Dialect)

/-! ### The pieces of an INSERT -/

theorem unmarked_columnNames (columns : List Column) : (columnNames columns).Unmarked := by
  refine unmarked_commas fun p hp => ?_
  obtain ⟨c, -, rfl⟩ := List.mem_map.mp hp
  exact unmarked_nil.name c.name

theorem unmarked_tableName (t : Table) : (tableName t).Unmarked := by
  unfold tableName
  split
  · exact ((unmarked_nil.name _).word (by decide)).name _
  · exact unmarked_nil.name _

theorem unmarked_overwrites (columns : List Column) :
    (commas (columns.map d.overwrite)).Unmarked := by
  refine unmarked_commas fun p hp => ?_
  obtain ⟨c, -, rfl⟩ := List.mem_map.mp hp
  cases d with
  | sqlite | postgres => exact ((unmarked_nil.name _).word (by decide)).name _
  | mysql => exact (((unmarked_nil.word (by decide)).name _).word (by decide)).name _

theorem unmarked_onConflict (s : Insert) : (d.onConflict s).Unmarked := by
  refine ((unmarked_columnNames _).between (by decide) (by decide)).append ?_
  split
  · exact unmarked_nil.word (by decide)
  · exact (unmarked_overwrites d _).word (by decide)

/-- Behind its rows, an INSERT binds no values. -/
theorem insert_eq_insertRows (s : Insert) : ∃ opening tail,
    HasNoMark opening ∧ Unmarked tail ∧
      d.insert s = insertRows opening s.table s.columns ++ tail := by
  have hend : Unmarked [.word ";"] := unmarked_nil.word (by decide)
  unfold insert
  split
  · exact ⟨_, _, by decide, hend, rfl⟩
  · split
    · exact ⟨_, _, by decide, hend, rfl⟩
    · exact ⟨_, _, by decide, (unmarked_nil.word (by decide)).append hend,
        List.append_assoc ..⟩
    · exact ⟨_, _, by decide, (unmarked_onConflict _ s).append hend, List.append_assoc ..⟩
    · exact ⟨_, _, by decide, (unmarked_onConflict _ s).append hend, List.append_assoc ..⟩
    · split
      · exact ⟨_, _, by decide, hend, rfl⟩
      · exact ⟨_, _, by decide, ((unmarked_overwrites _ _).word (by decide)).append hend,
          List.append_assoc ..⟩

/-- **An INSERT has one placeholder for each of its columns**, in order, and nothing else outside of
quotes that could be taken for one. -/
theorem placeholders_insert (s : Insert) :
    d.placeholders (d.compile (.insert s)) =
      some ((List.range s.columns.length).map fun i => d.placeholder (i + 1)) := by
  obtain ⟨opening, tail, hopening, htail, hs⟩ := insert_eq_insertRows d s
  have hbefore : Unmarked (.word opening :: tableName s.table ++
      between " (" (columnNames s.columns) ")" ++ [.word " VALUES ("]) :=
    (((unmarked_tableName _).word hopening).append
      ((unmarked_columnNames _).between (by decide) (by decide))).append
        (unmarked_nil.word (by decide))
  have hbehind : Unmarked (.word ")" :: tail) := htail.word (by decide)
  generalize hb : (.word opening :: tableName s.table ++
      between " (" (columnNames s.columns) ")" ++ [.word " VALUES ("] : Sql) = before at hbefore
  have hsplit : d.statement (.insert s) =
      before ++ (places s.columns.length ++ .word ")" :: tail) := by
    rw [statement, hs, insertRows, ← hb]
    simp only [between, List.cons_append, List.append_assoc, List.nil_append]
  have hnone : Glyph.placeholders (d.glyphs (.word ")" :: tail)) = [] := by
    rw [← List.append_nil (d.glyphs _), Glyph.placeholders_unmarked hbehind, Glyph.placeholders]
  have hplaces : places s.columns.length =
      commas (((List.range s.columns.length).map (· + 1)).map fun i => [.place i]) := by
    rw [places, List.map_map]
    rfl
  rw [placeholders, scan_compile, Option.map_some, hsplit, glyphs_append, glyphs_append,
    Glyph.placeholders_unmarked hbefore, hplaces, Glyph.placeholders_places (by rfl), hnone,
    List.map_map, List.append_nil]
  rfl

end Dialect

end SqlRecords
