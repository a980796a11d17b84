import SqlRecords.Dialect.Token

/-!
# Text read by its quotes alone

A reader who knows the quotes of a dialect and nothing else goes through a text from
left to right. Outside of quotes every character stands for itself; a quote opens a
quoted token, which ends at the next quote of its kind, but two of them in a row stand
for one. `Dialect.scan` says what such a reader sees. It is defined on the text, so
what it finds does not depend on the tokens that the text was made of.

`Sql.Fits` says of tokens that they keep apart: the words hold no quote and no
semicolon, and no quoted token stands right behind another one. `scan_text` then says
that the reader sees these very tokens.
-/

namespace SqlRecords

open Text

/-! ### The reader -/

/-- What a reader sees. -/
inductive Glyph where
  /-- A character outside of quotes. -/
  | plain (c : Char)
  /-- A quoted token: its quote, and what it stands for. -/
  | quoted (quote : Char) (content : String)
  deriving DecidableEq, Repr

/-- What is left of a glyph when a quoted token stands for nothing. -/
def Glyph.emptied : Glyph → Glyph
  | .plain c => .plain c
  | .quoted quote _ => .quoted quote ""

/-- Where a reader is. -/
inductive ReaderPlace where
  /-- Outside of quotes. -/
  | outside
  /-- Inside a quoted token. -/
  | inside (quote : Char) (content : List Char)
  /-- Behind a quote inside a quoted token, which ends it unless another one follows. -/
  | behindQuote (quote : Char) (content : List Char)

/-- What a reader has seen, and where the reader is. -/
structure Reading where
  /-- What was seen. -/
  seen : List Glyph
  /-- Where the reader is. -/
  place : ReaderPlace

namespace Dialect

/-- The character opens a quoted token. -/
def isQuote (d : Dialect) (c : Char) : Bool := c == d.identifierQuote || c == '\''

/-- Reads a character outside of quotes. -/
def readOutside (d : Dialect) (seen : List Glyph) (c : Char) : Reading :=
  if d.isQuote c then ⟨seen, .inside c []⟩ else ⟨seen ++ [.plain c], .outside⟩

/-- Reads a character. -/
def readChar (d : Dialect) (r : Reading) (c : Char) : Reading :=
  match r.place with
  | .outside => d.readOutside r.seen c
  | .inside quote content =>
    if c = quote then ⟨r.seen, .behindQuote quote content⟩
    else ⟨r.seen, .inside quote (content ++ [c])⟩
  | .behindQuote quote content =>
    if c = quote then ⟨r.seen, .inside quote (content ++ [c])⟩
    else d.readOutside (r.seen ++ [.quoted quote (String.ofList content)]) c

/-- Reads some characters. -/
def readChars (d : Dialect) (r : Reading) (s : List Char) : Reading := s.foldl d.readChar r

/-- What was seen of a text at its end, unless that is inside quotes. -/
def seenAtEnd (r : Reading) : Option (List Glyph) :=
  match r.place with
  | .outside => some r.seen
  | .inside _ _ => none
  | .behindQuote quote content => some (r.seen ++ [.quoted quote (String.ofList content)])

/-- What a reader sees of a text, unless it ends inside quotes. -/
def scan (d : Dialect) (text : String) : Option (List Glyph) :=
  seenAtEnd (d.readChars ⟨[], .outside⟩ text.toList)

/-- What a reader sees of a text outside of quotes, and where which quotes are. -/
def outline (d : Dialect) (text : String) : Option (List Glyph) :=
  (d.scan text).map (List.map Glyph.emptied)

theorem readChars_append (d : Dialect) (r : Reading) (s t : List Char) :
    d.readChars r (s ++ t) = d.readChars (d.readChars r s) t := List.foldl_append

@[simp] theorem readChars_nil (d : Dialect) (r : Reading) : d.readChars r [] = r := rfl

@[simp] theorem readChars_cons (d : Dialect) (r : Reading) (c : Char) (s : List Char) :
    d.readChars r (c :: s) = d.readChars (d.readChar r c) s := rfl

end Dialect

/-! ### Tokens that keep apart -/

/-- The character is no quote of any dialect and no semicolon. -/
def IsClean (c : Char) : Prop := c ≠ '"' ∧ c ≠ '\x60' ∧ c ≠ '\'' ∧ c ≠ ';'

instance (c : Char) : Decidable (IsClean c) :=
  inferInstanceAs (Decidable (c ≠ '"' ∧ c ≠ '\x60' ∧ c ≠ '\'' ∧ c ≠ ';'))

/-- The text can stand as a word. -/
def Clean (w : String) : Prop := ∀ c ∈ w.toList, IsClean c

-- By the characters of the text; another instance would look at all there are.
instance (w : String) : Decidable (Clean w) := List.decidableBAll IsClean w.toList

theorem isClean_of_isDigit {c : Char} (h : c.isDigit = true) : IsClean c := by
  refine ⟨?_, ?_, ?_, ?_⟩ <;>
  · rintro rfl
    cases h

theorem clean_ofList {s : List Char} : Clean (String.ofList s) ↔ ∀ c ∈ s, IsClean c := by
  rw [Clean, String.toList_ofList]

theorem isClean_of_mem_toDigits {n : Nat} {c : Char} (h : c ∈ Nat.toDigits 10 n) : IsClean c :=
  isClean_of_isDigit (Nat.isDigit_of_mem_toDigits (by decide) (by decide) h)

theorem clean_toString (n : Nat) : Clean (toString n) := by
  intro c hc
  rw [Nat.toString_eq_repr, Nat.toList_repr] at hc
  exact isClean_of_mem_toDigits hc

/-- A place is written like a word. -/
theorem isClean_of_mem_place (d : Dialect) (i : Nat) :
    ∀ c ∈ (Token.place i).chars d, IsClean c := by
  intro c hc
  cases d with
  | postgres =>
    rcases List.mem_cons.mp hc with rfl | hc
    · decide
    · exact clean_toString i c hc
  | _ =>
    obtain rfl := List.mem_singleton.mp hc
    decide

/-- Tokens that keep apart, behind a quoted token or not, and whether what follows them stands right
behind a quoted token. -/
inductive Sql.Fits : Bool → Sql → Bool → Prop
  /-- No tokens. -/
  | nil {b : Bool} : Sql.Fits b [] b
  /-- A word. Where it is empty, nothing keeps apart what is before and behind it. -/
  | word {b b' : Bool} {w : String} {rest : Sql} (hw : Clean w)
      (h : Sql.Fits (b && w.toList.isEmpty) rest b') : Sql.Fits b (.word w :: rest) b'
  /-- A name. -/
  | name {b : Bool} {n : String} {rest : Sql} (h : Sql.Fits true rest b) :
      Sql.Fits false (.name n :: rest) b
  /-- A string. -/
  | string {b : Bool} {s : String} {rest : Sql} (h : Sql.Fits true rest b) :
      Sql.Fits false (.string s :: rest) b
  /-- A string of the dialect. -/
  | fixed {b : Bool} {s : String} {rest : Sql} (h : Sql.Fits true rest b) :
      Sql.Fits false (.fixed s :: rest) b
  /-- The place of a value. -/
  | place {b b' : Bool} {i : Nat} {rest : Sql} (h : Sql.Fits false rest b') :
      Sql.Fits b (.place i :: rest) b'

/-- What a reader sees of a token. -/
def Token.glyphs (d : Dialect) : Token → List Glyph
  | .name n => [.quoted d.identifierQuote n]
  | .string s | .fixed s => [.quoted '\'' s]
  | t => (t.chars d).map .plain

/-- What a reader sees of some tokens. -/
def Dialect.glyphs (d : Dialect) (sql : Sql) : List Glyph := sql.flatMap (Token.glyphs d)

namespace Dialect

variable {d : Dialect}

@[simp] theorem glyphs_nil : d.glyphs [] = [] := rfl

@[simp] theorem glyphs_cons (t : Token) (sql : Sql) :
    d.glyphs (t :: sql) = t.glyphs d ++ d.glyphs sql := by simp [glyphs]

@[simp] theorem glyphs_append (a b : Sql) : d.glyphs (a ++ b) = d.glyphs a ++ d.glyphs b := by
  simp [glyphs]

/-! ### What the reader sees of each token -/

/-- A reader has seen some glyphs, the last of them being a quoted token that just ended, or not. -/
inductive Shows (d : Dialect) : Bool → List Glyph → Reading → Prop
  /-- Outside of quotes. -/
  | outside (seen : List Glyph) : Shows d false seen ⟨seen, .outside⟩
  /-- At the end of a quoted token. -/
  | ended (seen : List Glyph) (quote : Char) (content : List Char) (h : d.isQuote quote = true) :
      Shows d true (seen ++ [.quoted quote (String.ofList content)])
        ⟨seen, .behindQuote quote content⟩

variable {b : Bool} {seen : List Glyph} {r : Reading}

/-- A character that is no quote is seen as it is. -/
theorem Shows.readChar (h : Shows d b seen r) {c : Char} (hc : d.isQuote c = false) :
    d.readChar r c = ⟨seen ++ [.plain c], .outside⟩ := by
  cases h with
  | outside seen => simp [Dialect.readChar, readOutside, hc]
  | ended seen quote content hq =>
    have hne : c ≠ quote := by
      rintro rfl
      rw [hq] at hc
      cases hc
    simp [Dialect.readChar, readOutside, hc, hne]

/-- Characters that are no quotes are seen as they are. -/
theorem Shows.readChars {s : List Char} (h : Shows d b seen r)
    (hs : ∀ c ∈ s, d.isQuote c = false) :
    Shows d (b && s.isEmpty) (seen ++ s.map .plain) (d.readChars r s) := by
  induction s generalizing b seen r with
  | nil => simpa using h
  | cons c rest ih =>
    rw [readChars_cons, h.readChar (hs c List.mem_cons_self)]
    have := ih (.outside (seen ++ [.plain c])) fun x hx => hs x (List.mem_cons_of_mem c hx)
    simpa using this

/-- Inside quotes, a text that is written with its quotes doubled is read as it is. -/
theorem readChars_doubled (seen : List Glyph) (quote : Char) (s content : List Char) :
    d.readChars ⟨seen, .inside quote content⟩ (doubled quote s) =
      ⟨seen, .inside quote (content ++ s)⟩ := by
  induction s generalizing content with
  | nil => simp
  | cons c rest ih =>
    rw [doubled]
    split
    · next h =>
      subst h
      rw [readChars_cons, readChars_cons]
      simp only [Dialect.readChar, if_true]
      rw [ih]
      simp
    · next h =>
      rw [readChars_cons]
      simp only [Dialect.readChar, if_neg h]
      rw [ih]
      simp

/-- A quoted token that stands by itself is read as one. -/
theorem Shows.readEnclosed (h : Shows d false seen r) {quote : Char}
    (hq : d.isQuote quote = true) (s : String) :
    Shows d true (seen ++ [.quoted quote s]) (d.readChars r (enclosed quote s.toList)) := by
  cases h with
  | outside =>
    rw [enclosed, List.cons_append, readChars_cons, readChars_append]
    simp only [Dialect.readChar, readOutside, hq, if_true]
    rw [readChars_doubled]
    simp only [readChars_cons, readChars_nil, Dialect.readChar, if_true, List.nil_append]
    have := Shows.ended (d := d) seen quote s.toList hq
    rwa [String.ofList_toList] at this

theorem isQuote_of_isClean {c : Char} (hc : IsClean c) : d.isQuote c = false := by
  obtain ⟨h₁, h₂, h₃, -⟩ := hc
  cases d <;> simp [isQuote, identifierQuote, h₁, h₂, h₃]

theorem chars_place_ne_nil (i : Nat) : (Token.place i).chars d ≠ [] := by
  cases d <;> simp [Token.chars]

/-- The reader sees tokens that keep apart. -/
theorem Shows.readSql {b' : Bool} {sql : Sql} (hf : sql.Fits b b') (h : Shows d b seen r) :
    Shows d b' (seen ++ d.glyphs sql) (d.readChars r (d.chars sql)) := by
  induction hf generalizing seen r with
  | nil => simpa using h
  | word hw _ ih =>
    rw [chars_cons, readChars_append, glyphs_cons, ← List.append_assoc]
    exact ih (h.readChars fun c hc => isQuote_of_isClean (hw c hc))
  | @place b b' i rest _ ih =>
    rw [chars_cons, readChars_append, glyphs_cons, ← List.append_assoc]
    have := h.readChars fun c hc => isQuote_of_isClean (isClean_of_mem_place d i c hc)
    rw [List.isEmpty_eq_false_iff.mpr (chars_place_ne_nil i), Bool.and_false] at this
    exact ih this
  | name _ ih | string _ ih | fixed _ ih =>
    rw [chars_cons, readChars_append, glyphs_cons, ← List.append_assoc]
    exact ih (h.readEnclosed (by cases d <;> rfl) _)

/-- **The reader sees the tokens**: of tokens that keep apart and the semicolon that ends them, the
reader sees each as what it is. -/
theorem scan_text {sql : Sql} (hf : sql.Fits false b) :
    d.scan (d.text (sql ++ [.word ";"])) = some (d.glyphs (sql ++ [.word ";"])) := by
  have hsql := Shows.readSql (d := d) hf (.outside [])
  have hend : d.readChars (d.readChars ⟨[], .outside⟩ (d.chars sql)) (d.chars [.word ";"]) =
      ⟨[] ++ d.glyphs sql ++ [.plain ';'], .outside⟩ := hsql.readChar (by cases d <;> rfl)
  rw [scan, text, String.toList_ofList, chars_append, readChars_append, hend, glyphs_append]
  rfl

/-- No semicolon outside of quotes is among tokens that keep apart. -/
theorem semicolon_notMem_glyphs {b' : Bool} {sql : Sql} (hf : sql.Fits b b') :
    Glyph.plain ';' ∉ d.glyphs sql := by
  have hword {s : List Char} (hs : ∀ c ∈ s, IsClean c) : Glyph.plain ';' ∉ s.map Glyph.plain := by
    intro h
    obtain ⟨c, hc, he⟩ := List.mem_map.mp h
    cases he
    exact (hs ';' hc).2.2.2 rfl
  induction hf with
  | nil => exact List.not_mem_nil
  | @word _ _ w _ hw _ ih =>
    rw [glyphs_cons, List.mem_append, not_or]
    exact ⟨hword hw, ih⟩
  | @place _ _ i _ _ ih =>
    rw [glyphs_cons, List.mem_append, not_or]
    exact ⟨hword (isClean_of_mem_place d i), ih⟩
  | name _ ih | string _ ih | fixed _ ih =>
    rw [glyphs_cons, List.mem_append, not_or]
    exact ⟨by simp [Token.glyphs], ih⟩

end Dialect

end SqlRecords
