import Mathlib.Data.Bool.AllAny
import SqlRecords.Proofs.Text.Numerals
import SqlRecords.Sqlite.Lexeme

/-!
# Texts and their lexemes

`Lexeme.ReadsAs s ls` says that a text is cut into some lexemes. For each kind of
lexeme there is a rule that puts it in front of a text that has been cut already. What
follows must not be taken for a part of the lexeme: behind a name stands no second
quote, and behind a number no digit, point or exponent.

## What is proved

* `ReadsAs.cons`: one step of the reader, for any lexeme that `readFirst` finds. An
  operator between blanks is an instance of it.
* `ReadsAs.lone`, `ReadsAs.minus`, `ReadsAs.point`: signs in front of anything that
  does not make them a longer lexeme.
* `ReadsAs.word`, `ReadsAs.name`, `ReadsAs.string`, `ReadsAs.number`: the lexemes that
  carry data read back as the data they were written from.
* `ReadsAs.keywords`: words, blanks and such signs are cut in front of anything as they are alone.
-/

namespace SqlRecords.Sqlite.Lexeme

open Text Decimal

/-- The lexemes of a text, found in as many steps as it has characters, or in more. -/
def ReadsAs (s : List Char) (ls : List Lexeme) : Prop :=
  ∀ steps, s.length ≤ steps → readWithin steps s = some ls

/-- What follows ends a name, string or number: nothing, a blank, a closing bracket, a comma or a
semicolon. -/
def Stops : List Char → Prop
  | [] => True
  | c :: _ => c = ' ' ∨ c = ')' ∨ c = ',' ∨ c = ';'

/-- What follows ends a word. -/
def EndsWord (rest : List Char) : Prop := ∀ c ∈ rest.head?, inWord c = false

/-- The signs that stand alone: no longer one begins with them, and no number. -/
def loneSigns : List Char := ['(', ')', ',', '*', '?', ';']

variable {rest : List Char} {ls : List Lexeme}

theorem stops_blank : Stops (' ' :: rest) := .inl rfl

theorem stops_bracket : Stops (')' :: rest) := .inr (.inl rfl)

theorem stops_comma : Stops (',' :: rest) := .inr (.inr (.inl rfl))

theorem stops_semicolon : Stops (';' :: rest) := .inr (.inr (.inr rfl))

theorem Stops.head?_ne {c : Char} (hrest : Stops rest) (hc : c ∉ [' ', ')', ',', ';']) :
    rest.head? ≠ some c := by
  cases rest with
  | nil => simp
  | cons d rest =>
    rintro heq
    injection heq with heq
    subst heq
    rcases hrest with rfl | rfl | rfl | rfl <;> simp at hc

theorem endsWord_cons {c : Char} (hc : inWord c = false) : EndsWord (c :: rest) := by
  rintro d ⟨⟩
  exact hc

theorem Stops.endsWord (hrest : Stops rest) : EndsWord rest := by
  cases rest with
  | nil => exact nofun
  | cons c rest => rcases hrest with rfl | rfl | rfl | rfl <;> exact endsWord_cons rfl

theorem readsAs_nil : ReadsAs [] [] := by
  intro steps _
  cases steps <;> rfl

theorem ReadsAs.read {s : List Char} (h : ReadsAs s ls) : Lexeme.read s = some ls :=
  h s.length (Nat.le_refl _)

/-! ### One step of the reader -/

/-- A blank separates lexemes. -/
theorem ReadsAs.blank (h : ReadsAs rest ls) : ReadsAs (' ' :: rest) ls := by
  intro steps hs
  cases steps with
  | zero => exact absurd hs (by simp)
  | succ steps => exact h steps (by simpa using hs)

/-- A lexeme in front of a text, where there is neither a blank nor a comment. -/
theorem ReadsAs.cons {c : Char} {s : List Char} {l : Lexeme} (h : ReadsAs rest ls)
    (hblank : (c == ' ' || (9 ≤ c.toNat && c.toNat ≤ 13)) = false)
    (hcomment : c = '-' → s.head? ≠ some '-') (hfirst : readFirst (c :: s) = some (l, rest))
    (hlen : rest.length ≤ s.length) : ReadsAs (c :: s) (l :: ls) := by
  intro steps hs
  cases steps with
  | zero => exact absurd hs (by simp)
  | succ steps =>
    have hrest : readWithin steps rest = some ls := h steps (by simp at hs; omega)
    rw [readWithin, hblank, hfirst]
    · simp [hrest]
    · rintro more rfl rfl
      exact hcomment rfl rfl

/-! ### Signs -/

/-- No sign of two characters begins with one of these. -/
theorem longSigns_contains_eq_false {c : Char} (hc : c ∈ '-' :: '.' :: loneSigns)
    (s : List Char) : longSigns.contains (String.ofList (c :: s)) = false := by
  have hne : ∀ c ∈ '-' :: '.' :: loneSigns,
      c ≠ '!' ∧ c ≠ '<' ∧ c ≠ '>' ∧ c ≠ '=' ∧ c ≠ '|' :=
    List.all_iff_forall_prop.mp (by decide)
  simp [longSigns, ← String.toList_inj, hne c hc]

theorem readFirst_sign {c : Char} (hc : c ∈ '-' :: '.' :: loneSigns)
    (hpoint : c = '.' → rest.head?.any Char.isDigit = false) :
    readFirst (c :: rest) = some (.sign (String.singleton c), rest) := by
  have hlong := longSigns_contains_eq_false hc (rest.take 1)
  have hplain : ∀ c ∈ '-' :: '.' :: loneSigns, c.isDigit = false ∧ startsWord c = false ∧
      c ≠ '"' ∧ c ≠ '\'' ∧ shortSigns.contains c = true :=
    List.all_iff_forall_prop.mp (by decide)
  obtain ⟨hdigit, hword, hname, hstring, hshort⟩ := hplain c hc
  have hnumber : (c == '.' && rest.head?.any Char.isDigit) = false := by
    by_cases h : c = '.'
    · simp [h, hpoint h]
    · simp [h]
  rw [readFirst, hdigit, hnumber, hword, List.take_succ_cons, hlong, hshort] <;> simp_all

theorem plain_of_lone : ∀ c ∈ loneSigns, c ≠ '.' ∧ c ≠ '-' ∧
    (c == ' ' || (9 ≤ c.toNat && c.toNat ≤ 13)) = false :=
  List.all_iff_forall_prop.mp (by decide)

theorem readFirst_lone {c : Char} (hc : c ∈ loneSigns) (s : List Char) :
    readFirst (c :: s) = some (.sign (String.singleton c), s) :=
  readFirst_sign (List.mem_cons_of_mem _ (List.mem_cons_of_mem _ hc))
    fun heq => absurd heq (plain_of_lone c hc).1

/-- A sign that stands alone is a lexeme whatever follows. -/
theorem ReadsAs.lone (h : ReadsAs rest ls) (c : Char) (hc : c ∈ loneSigns := by decide) :
    ReadsAs (c :: rest) (.sign (String.singleton c) :: ls) :=
  have ⟨_, hminus, hblank⟩ := plain_of_lone c hc
  h.cons hblank (fun heq => absurd heq hminus) (readFirst_lone hc rest) (Nat.le_refl _)

/-- A minus sign, which two of would begin a comment. -/
theorem ReadsAs.minus (h : ReadsAs rest ls) (hnext : rest.head? ≠ some '-') :
    ReadsAs ('-' :: rest) (.sign "-" :: ls) :=
  h.cons rfl (fun _ => hnext) (readFirst_sign (by simp) (by simp)) (Nat.le_refl _)

/-- A point, which a digit behind would make a number of. -/
theorem ReadsAs.point (h : ReadsAs rest ls) (hnext : rest.head?.any Char.isDigit = false) :
    ReadsAs ('.' :: rest) (.sign "." :: ls) :=
  h.cons rfl (by simp) (readFirst_sign (by simp) fun _ => hnext) (Nat.le_refl _)

/-! ### Words -/

theorem le_toNat_of_startsWord {c : Char} (hc : startsWord c = true) : 65 ≤ c.toNat := by
  by_contra hlt
  have hsmall : ∀ n < 65, startsWord (Char.ofNat n) = false := by decide
  have hfalse := hsmall c.toNat (by omega)
  rw [Char.ofNat_toNat, hc] at hfalse
  cases hfalse

theorem ne_of_startsWord {c d : Char} (hc : startsWord c = true) (hd : d.toNat < 65) : c ≠ d := by
  rintro rfl
  have := le_toNat_of_startsWord hc
  omega

theorem not_blank_of_startsWord {c : Char} (hc : startsWord c = true) :
    (c == ' ' || (9 ≤ c.toNat && c.toNat ≤ 13)) = false := by
  have hlarge := le_toNat_of_startsWord hc
  simp [ne_of_startsWord hc (d := ' ') (by decide)]
  omega

/-- A word goes on as long as it can. -/
theorem readFirst_word {c : Char} (hc : startsWord c = true) (s : List Char) :
    readFirst (c :: s) = some (.word (String.ofList ((c :: s.takeWhile inWord).map Char.toLower)),
      s.dropWhile inWord) := by
  have hdigit : c.isDigit = false := by
    have hlarge := le_toNat_of_startsWord hc
    simp only [Char.isDigit, Bool.and_eq_false_iff, decide_eq_false_iff_not]
    right
    rw [UInt32.le_iff_toNat_le]
    exact fun hle => absurd (Nat.le_trans hlarge hle) (by decide)
  have hword : inWord c = true := by simp [inWord, hc]
  rw [readFirst, List.takeWhile_cons_of_pos hword, List.dropWhile_cons_of_pos hword]
  · simp [hdigit, hc, ne_of_startsWord hc (d := '.') (by decide)]
  · exact ne_of_startsWord hc (by decide)
  · exact ne_of_startsWord hc (by decide)

/-- A word is one lexeme, whose letters become small. -/
theorem ReadsAs.word (h : ReadsAs rest ls) (hrest : EndsWord rest) (c : Char) (w : List Char)
    (hc : startsWord c = true) (hw : w.all inWord = true) :
    ReadsAs (c :: (w ++ rest)) (.word (String.ofList ((c :: w).map Char.toLower)) :: ls) := by
  have hwhole : ∀ d ∈ w, inWord d = true := fun d hd => List.all_eq_true.mp hw d hd
  have hstop : rest.takeWhile inWord = [] ∧ rest.dropWhile inWord = rest := by
    cases rest with
    | nil => exact ⟨rfl, rfl⟩
    | cons d rest => simp [hrest d rfl]
  have hfirst := readFirst_word hc (w ++ rest)
  rw [List.takeWhile_append_of_pos hwhole, List.dropWhile_append_of_pos hwhole, hstop.1, hstop.2,
    List.append_nil] at hfirst
  exact h.cons (not_blank_of_startsWord hc)
    (fun heq => absurd heq (ne_of_startsWord hc (by decide))) hfirst (by simp)

/-! ### Keywords -/

/-- The character is a letter, a blank or a sign that stands alone. -/
def isPlain (c : Char) : Bool := startsWord c || c == ' ' || loneSigns.contains c

theorem endsWord_dropWhile (w : List Char) (hrest : EndsWord rest) :
    EndsWord (w.dropWhile inWord ++ rest) := by
  have hhead := List.head?_dropWhile_not inWord w
  cases hdrop : w.dropWhile inWord with
  | nil => exact hrest
  | cons d more =>
    rw [hdrop] at hhead
    rintro c ⟨⟩
    exact hhead

/-- Where there is neither a blank nor a minus sign, a lexeme is read first, then the others. -/
theorem readWithin_cons {steps : Nat} {c : Char} {s more : List Char} {l : Lexeme}
    (hminus : c ≠ '-') (hblank : (c == ' ' || (9 ≤ c.toNat && c.toNat ≤ 13)) = false)
    (hfirst : readFirst (c :: s) = some (l, more))
    (hread : readWithin (steps + 1) (c :: s) = some ls) :
    ∃ ls', ls = l :: ls' ∧ readWithin steps more = some ls' := by
  rw [readWithin, hblank, hfirst] at hread
  · simp only [Bool.false_eq_true, if_false, Option.bind_eq_bind, Option.bind_some,
      Option.pure_def, Option.bind_eq_some_iff, Option.some.injEq] at hread
    obtain ⟨ls', hls', rfl⟩ := hread
    exact ⟨ls', rfl, hls'⟩
  · rintro more rfl rfl
    exact hminus rfl

theorem ReadsAs.plain (h : ReadsAs rest ls) (hrest : EndsWord rest) :
    ∀ {steps : Nat} {w : List Char} {ws : List Lexeme}, readWithin steps w = some ws →
      w.all isPlain = true → ReadsAs (w ++ rest) (ws ++ ls)
  | steps, [], ws, hread, _ => by
    cases steps <;> cases hread <;> exact h
  | steps + 1, c :: w, ws, hread, hw => by
    obtain ⟨hc, hw⟩ : isPlain c = true ∧ w.all isPlain = true := by
      rw [List.all_cons, Bool.and_eq_true] at hw
      exact hw
    by_cases hletter : startsWord c = true
    · obtain ⟨ws', rfl, hmore⟩ := readWithin_cons (ne_of_startsWord hletter (by decide))
        (not_blank_of_startsWord hletter) (readFirst_word hletter w) hread
      have hall : (w.dropWhile inWord).all isPlain = true :=
        List.all_eq_true.mpr fun d hd =>
          List.all_eq_true.mp hw d ((List.dropWhile_sublist inWord).subset hd)
      have hword := (h.plain hrest hmore hall).word (endsWord_dropWhile w hrest) c
        (w.takeWhile inWord) hletter List.all_takeWhile
      rwa [← List.append_assoc, List.takeWhile_append_dropWhile] at hword
    by_cases hblank : c = ' '
    · subst hblank
      exact (h.plain hrest (show readWithin steps w = some ws from hread) hw).blank
    have hlone : c ∈ loneSigns := by simpa [isPlain, hletter, hblank] using hc
    obtain ⟨-, hminus, hspace⟩ := plain_of_lone c hlone
    obtain ⟨ws', rfl, hmore⟩ := readWithin_cons hminus hspace (readFirst_lone hlone w) hread
    exact (h.plain hrest hmore hw).lone c hlone

/-- Words, blanks and signs that stand alone are cut in front of a text as they are alone. -/
theorem ReadsAs.keywords (h : ReadsAs rest ls) (hrest : EndsWord rest) (w : String)
    (ws : List Lexeme) (hread : Lexeme.read w.toList = some ws) (hw : w.toList.all isPlain = true) :
    ReadsAs (w.toList ++ rest) (ws ++ ls) := h.plain hrest hread hw

/-! ### Names and strings -/

/-- Quoting is undone by reading up to the quote that has no second one behind it. -/
theorem readQuoted_doubled {quote : Char} (s : List Char) (hrest : rest.head? ≠ some quote) :
    readQuoted quote (doubled quote s ++ quote :: rest) = some (s, rest) := by
  induction s with
  | nil =>
    cases rest with
    | nil => simp [readQuoted]
    | cons d more =>
      have hd : d ≠ quote := by simpa using hrest
      simp [readQuoted, hd]
  | cons c s ih =>
    by_cases hc : c = quote
    · subst hc
      simp [doubled, readQuoted, ih]
    · have hstep (t : List Char) : readQuoted quote (c :: t) =
          (readQuoted quote t).map fun p => (c :: p.1, p.2) := by
        rw [readQuoted.eq_def]
        simp [hc]
      simp [doubled, hc, hstep, ih]

theorem length_le_of_enclosed (quote : Char) (s rest : List Char) :
    rest.length ≤ (doubled quote s ++ quote :: rest).length := by
  simp only [List.length_append, List.length_cons]
  omega

/-- A quoted name reads back as the name. -/
theorem ReadsAs.name (n : String) (h : ReadsAs rest ls) (hnext : rest.head? ≠ some '"') :
    ReadsAs (enclosed '"' n.toList ++ rest) (.name n :: ls) := by
  have hread := readQuoted_doubled n.toList hnext
  simp only [enclosed, List.cons_append, List.append_assoc, List.nil_append]
  refine h.cons rfl (by simp) ?_ (length_le_of_enclosed ..)
  rw [readFirst, hread]
  simp

/-- A quoted string reads back as the string. -/
theorem ReadsAs.string (s : String) (h : ReadsAs rest ls) (hnext : rest.head? ≠ some '\'') :
    ReadsAs (enclosed '\'' s.toList ++ rest) (.string s :: ls) := by
  have hread := readQuoted_doubled s.toList hnext
  simp only [enclosed, List.cons_append, List.append_assoc, List.nil_append]
  refine h.cons rfl (by simp) ?_ (length_le_of_enclosed ..)
  rw [readFirst, hread]
  simp

/-! ### Numbers -/

theorem spanDigits_toDigits (n : Nat) (hrest : Stops rest) :
    spanDigits (Nat.toDigits 10 n ++ rest) = (Nat.toDigits 10 n, rest) := by
  refine spanDigits_append (fun _ => isDigit_of_mem_toDigits) ?_
  cases rest with
  | nil => rfl
  | cons c rest => rcases hrest with rfl | rfl | rfl | rfl <;> rfl

/-- The digits of a whole number are read back as that number. -/
theorem readNumber_toDigits (n : Nat) (hrest : Stops rest) :
    readNumber (Nat.toDigits 10 n ++ rest) = some (.number true ⟨false, n, 0⟩, rest) := by
  have hne : (Nat.toDigits 10 n).isEmpty = false := by simp [Nat.toDigits_ne_nil]
  have hmantissa : readMantissa (Nat.toDigits 10 n ++ rest) = some ((n, 0), rest) := by
    simp only [readMantissa, spanDigits_toDigits n hrest, hne, digitsValue_toDigits]
    cases rest with
    | nil => simp
    | cons c rest => rcases hrest with rfl | rfl | rfl | rfl <;> simp
  have hpower : readPower rest = none := by
    cases rest with
    | nil => rfl
    | cons c rest => rcases hrest with rfl | rfl | rfl | rfl <;> rfl
  have hrun : (Nat.toDigits 10 n ++ rest).takeWhile Char.isDigit = Nat.toDigits 10 n :=
    congrArg Prod.fst (spanDigits_toDigits n hrest)
  simp [readNumber, hmantissa, hpower, hrun]

/-- The digits of a whole number are one lexeme. -/
theorem ReadsAs.number (n : Nat) (h : ReadsAs rest ls) (hrest : Stops rest) :
    ReadsAs (Nat.toDigits 10 n ++ rest) (.number true ⟨false, n, 0⟩ :: ls) := by
  have hread := readNumber_toDigits n hrest
  cases hdigits : Nat.toDigits 10 n with
  | nil => exact absurd hdigits Nat.toDigits_ne_nil
  | cons c digits =>
    have hc : c.isDigit = true :=
      Nat.isDigit_of_mem_toDigits (by omega) (by omega) (hdigits ▸ List.mem_cons_self)
    rw [hdigits] at hread
    have hbounds : 48 ≤ c.toNat ∧ c.toNat ≤ 57 := by
      simpa [Char.isDigit, UInt32.le_iff_toNat_le] using hc
    have hne : ∀ d : Char, d.toNat < 48 → c ≠ d := by
      rintro d hd rfl
      omega
    refine h.cons ?_ (fun e => absurd e (hne '-' (by decide))) ?_ ?_
    · simp [hne ' ' (by decide)]
      omega
    · rw [List.cons_append, readFirst, hc] at *
      · exact hread
      · exact hne '"' (by decide)
      · exact hne '\'' (by decide)
    · simp

end SqlRecords.Sqlite.Lexeme
