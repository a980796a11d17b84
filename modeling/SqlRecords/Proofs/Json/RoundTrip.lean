import SqlRecords.Field.Structured
import SqlRecords.Proofs.Text.Numerals

/-!
# JSON documents survive their cells

A document is written without blanks and read by a strict reader. What the reader needs to know of
what follows a value is that it does not go on with a number; behind a value in a document there is
a comma, a closing bracket or nothing (`Json.Stops`). Arrays and objects are written alike, as
items between commas (`Json.listChars`), and one lemma says when they are read back, whatever their
items are.

The reader gives up where arrays and objects are nested too deep. It does so on the text of a
value that is nested deeper than it may be, and on no other text of a value.

## What is proved

* `Json.readString_quoted`: any string is read back, whatever is escaped in it.
* `Json.readNumber_toString`: so is any whole number of 64 bits, signed or unsigned.
* `Json.readList_listChars`: a list is read back exactly if all its items are.
* `Json.readValue_chars`: a value is read back exactly if it is not nested too deep.
* `Json.IsValue.canonical_eq`: its objects have their members in order already.
* **`Field.fromCell_toCell_document`**: which documents survive their cells, and what the others
  give.
-/

namespace SqlRecords

open Text

namespace Json

/-! ### Values -/

/-- A value whose numbers are whole. The members of an object have different keys, and are in the
order of these. -/
inductive IsValue : Json → Prop where
  | null : IsValue .null
  | bool (b : Bool) : IsValue (.bool b)
  | int {n : Int} : isWhole n = true → IsValue (.int n)
  | str (s : String) : IsValue (.str s)
  | arr {items : List Json} : (∀ j ∈ items, IsValue j) → IsValue (.arr items)
  | obj {members : List (String × Json)} : members.Pairwise (·.1 < ·.1) →
      (∀ m ∈ members, IsValue m.2) → IsValue (.obj members)

mutual

/-- How many arrays and objects are nested in each other. -/
def depth : Json → Nat
  | .arr items => itemsDepth items + 1
  | .obj members => membersDepth members + 1
  | _ => 0

/-- How deep the items of an array are nested. -/
def itemsDepth : List Json → Nat
  | [] => 0
  | j :: rest => max j.depth (itemsDepth rest)

/-- How deep the members of an object are nested. -/
def membersDepth : List (String × Json) → Nat
  | [] => 0
  | (_, v) :: rest => max v.depth (membersDepth rest)

end

theorem itemsDepth_le {d : Nat} {items : List Json} :
    itemsDepth items ≤ d ↔ ∀ j ∈ items, j.depth ≤ d := by
  induction items with
  | nil => simp [itemsDepth]
  | cons j rest ih => rw [itemsDepth, Nat.max_le, ih, List.forall_mem_cons]

theorem membersDepth_le {d : Nat} {members : List (String × Json)} :
    membersDepth members ≤ d ↔ ∀ m ∈ members, m.2.depth ≤ d := by
  induction members with
  | nil => simp [membersDepth]
  | cons m rest ih => rw [membersDepth, Nat.max_le, ih, List.forall_mem_cons]

/-! ### Strings -/

/-- The control characters are written with two hexadecimal digits. -/
theorem hexUnit_hexDigit : ∀ n < 0x20,
    hexUnit '0' '0' (hexDigit (n / 16)) (hexDigit (n % 16)) = some n := by
  decide

theorem readString_control {c : Char} (h : c.toNat < 0x20) (rest : List Char) :
    readString ('\\' :: 'u' :: '0' :: '0' :: hexDigit (c.toNat / 16) :: hexDigit (c.toNat % 16) ::
      rest) = (readString rest).map fun (s, rest) => (c :: s, rest) := by
  have hlow : ¬0xD800 ≤ c.toNat ∧ ¬0xDC00 ≤ c.toNat := by omega
  rw [readString.eq_def]
  simp only [hexUnit_hexDigit c.toNat h]
  simp [hlow]
  cases readString rest <;> rfl

/-- A character with an escape of its own. -/
theorem readString_letter {c letter : Char} (h : escaped letter = some c) (rest : List Char) :
    readString ('\\' :: letter :: rest) =
      (readString rest).map fun (s, rest) => (c :: s, rest) := by
  have hletter : letter ≠ 'u' := by
    rintro rfl
    cases h
  rw [readString, h]
  · cases readString rest <;> rfl
  · simp [hletter]

/-- An escaped character is read back. -/
theorem readString_escape (c : Char) (rest : List Char) :
    readString (escape c ++ rest) = (readString rest).map fun (s, rest) => (c :: s, rest) := by
  unfold escape
  split_ifs with hquote hslash hb hf hn hr ht hcontrol
  · obtain rfl := eq_of_beq hquote
    exact readString_letter rfl rest
  · obtain rfl := eq_of_beq hslash
    exact readString_letter rfl rest
  · obtain rfl := eq_of_beq hb
    exact readString_letter rfl rest
  · obtain rfl := eq_of_beq hf
    exact readString_letter rfl rest
  · obtain rfl := eq_of_beq hn
    exact readString_letter rfl rest
  · obtain rfl := eq_of_beq hr
    exact readString_letter rfl rest
  · obtain rfl := eq_of_beq ht
    exact readString_letter rfl rest
  · exact readString_control hcontrol rest
  · have hplain : (decide (c.toNat < 0x20) || c == '\\') = false := by simp_all
    rw [List.singleton_append, readString, hplain]
    · cases readString rest <;> rfl
    all_goals simp_all

/-- **Strings are read back.** -/
theorem readString_quoted (s : List Char) (rest : List Char) :
    readString (s.flatMap escape ++ '"' :: rest) = some (s, rest) := by
  induction s with
  | nil => rfl
  | cons c s ih =>
    rw [List.flatMap_cons, List.append_assoc, readString_escape, ih]
    rfl

/-! ### Numbers -/

/-- What follows a value in a document: it ends there, or the value was an item. -/
def Stops (rest : List Char) : Prop := ∀ c ∈ rest.head?, c = ',' ∨ c = ']' ∨ c = '\x7d'

theorem Stops.nil : Stops [] := nofun

theorem Stops.cons {c : Char} {rest : List Char} (h : c = ',' ∨ c = ']' ∨ c = '\x7d') :
    Stops (c :: rest) := by
  intro d hd
  cases hd
  exact h

theorem Stops.readFraction {rest : List Char} (h : Stops rest) :
    readFraction rest = some (none, rest) := by
  unfold Json.readFraction
  split
  · have hdot := h '.' rfl
    simp at hdot
  · rfl

theorem Stops.readExponent {rest : List Char} (h : Stops rest) :
    readExponent rest = some (none, rest) := by
  cases rest with
  | nil => rfl
  | cons c rest =>
    have hc : (c == 'e' || c == 'E') = false := by
      rcases h c rfl with rfl | rfl | rfl <;> rfl
    simp only [Json.readExponent, hc]
    rfl

theorem Stops.no_digit {rest : List Char} (h : Stops rest) :
    rest.head?.any Char.isDigit = false := by
  cases rest with
  | nil => rfl
  | cons c rest => rcases h c rfl with rfl | rfl | rfl <;> rfl

/-- A whole number behind its sign is what its digits spell. -/
theorem wholeNumber_toDigits {n : Int} (hn : isWhole n = true) :
    wholeNumber (decide (n < 0)) (Nat.toDigits 10 n.natAbs) = some (.int n) := by
  have hnought : ¬((decide (n < 0) && n.natAbs == 0) = true) := by
    simp only [Bool.and_eq_true, decide_eq_true_eq, beq_iff_eq]
    omega
  have hvalue : (if decide (n < 0) = true then -(n.natAbs : Int) else n.natAbs) = n := by
    simp only [decide_eq_true_eq]
    split <;> omega
  simp only [wholeNumber, digitsValue_toDigits, hnought, hvalue, hn, if_true]
  rfl

/-- **Whole numbers are read back.** -/
theorem readNumber_toString {n : Int} (hn : isWhole n = true) {rest : List Char} (h : Stops rest) :
    readNumber ((toString n).toList ++ rest) = some (.int n, rest) := by
  have hspan : spanDigits (Nat.toDigits 10 n.natAbs ++ rest) = (Nat.toDigits 10 n.natAbs, rest) :=
    spanDigits_append (fun _ => isDigit_of_mem_toDigits) h.no_digit
  unfold readNumber
  split
  next negative body hsign =>
    have hparts : negative = decide (n < 0) ∧ body = Nat.toDigits 10 n.natAbs ++ rest := by
      by_cases hneg : n < 0
      · rw [toList_toString_of_neg hneg] at hsign
        cases hsign
        exact ⟨(decide_eq_true hneg).symm, rfl⟩
      · obtain ⟨c, digits, hdigits, -, -, hminus⟩ := toDigits_eq_cons n.natAbs
        rw [toList_toString_of_nonneg hneg, hdigits] at hsign
        simp only [List.cons_append] at hsign
        split at hsign
        · next hcons =>
          cases hcons
          exact absurd rfl hminus
        · cases hsign
          exact ⟨(decide_eq_false hneg).symm, by rw [hdigits]; rfl⟩
    obtain ⟨rfl, rfl⟩ := hparts
    simp only [hspan]
    split
    · next hnil => exact absurd hnil Nat.toDigits_ne_nil
    · next hdigits =>
      have hnought : n.natAbs = 0 := by
        by_contra hne
        exact toDigits_head_ne_nought hne (by rw [hdigits]; rfl)
      rw [hnought] at hdigits
      cases hdigits
    · simp only [h.readFraction, h.readExponent, Option.bind_eq_bind, Option.bind_some,
        wholeNumber_toDigits hn]
      rfl

/-! ### Lists -/

/-- The items of an array or an object, which `close` closes. -/
def listChars {α : Type} (write : α → List Char) (close : Char) : List α → List Char
  | [] => [close]
  | [x] => write x ++ [close]
  | x :: rest => write x ++ ',' :: listChars write close rest

/-- A text that begins with no blank and with no closing bracket. -/
def Opens (s : List Char) : Prop :=
  ∃ c rest, s = c :: rest ∧ c ∉ [' ', '\t', '\n', '\r', ']', '\x7d']

theorem skipBlanks_cons {c : Char} (h : c ∉ [' ', '\t', '\n', '\r']) (rest : List Char) :
    skipBlanks (c :: rest) = c :: rest := by
  apply List.dropWhile_cons_of_neg
  simpa [and_assoc] using h

theorem Opens.skipBlanks {s : List Char} (h : Opens s) (rest : List Char) :
    skipBlanks (s ++ rest) = s ++ rest := by
  obtain ⟨c, s, rfl, hc⟩ := h
  exact skipBlanks_cons (fun hmem => hc (by simp_all)) _

/-- A reader reads an item where it stands in a list, if it is one that may be read. -/
structure IsItem {α : Type} (item : ItemReader α) (write : α → List Char) (ok : α → Prop)
    [DecidablePred ok] (x : α) : Prop where
  opens : Opens (write x)
  reads : ∀ rest, Stops rest → item (write x ++ rest) = if ok x then some (x, rest) else none

section

variable {α : Type} {item : ItemReader α} {write : α → List Char} {ok : α → Prop}
  [DecidablePred ok] {close : Char}

theorem length_le_listChars : ∀ xs : List α, xs.length ≤ (listChars write close xs).length
  | [] => Nat.zero_le _
  | [x] => by simp [listChars]
  | x :: y :: rest => by
    have ih := length_le_listChars (y :: rest)
    simp only [listChars, List.length_append, List.length_cons] at ih ⊢
    omega

theorem readItems_listChars (hclose : close = ']' ∨ close = '\x7d') (rest : List Char) :
    ∀ {xs : List α} {n : Nat}, xs ≠ [] → xs.length ≤ n → (∀ x ∈ xs, IsItem item write ok x) →
      readItems item close n (listChars write close xs ++ rest) =
        if ∀ x ∈ xs, ok x then some (xs, rest) else none
  | [], _, hne, _, _ => absurd rfl hne
  | [x], n + 1, _, _, hitems => by
    have hx := hitems x List.mem_cons_self
    have hcut : skipBlanks (close :: rest) = close :: rest :=
      skipBlanks_cons (by rcases hclose with rfl | rfl <;> decide) rest
    have htext : listChars write close [x] ++ rest = write x ++ close :: rest :=
      List.append_assoc _ _ _
    rw [htext, readItems, hx.opens.skipBlanks, hx.reads _ (.cons (.inr hclose))]
    by_cases hok : ok x
    · simp [hok, hcut]
    · simp [hok]
  | x :: y :: xs, n + 1, _, hlen, hitems => by
    have hx := hitems x List.mem_cons_self
    have hcomma : (',' == close) = false := by rcases hclose with rfl | rfl <;> rfl
    have htext : listChars write close (x :: y :: xs) ++ rest =
        write x ++ ',' :: (listChars write close (y :: xs) ++ rest) := List.append_assoc _ _ _
    have ih := readItems_listChars hclose rest (n := n) (List.cons_ne_nil y xs)
      (Nat.le_of_succ_le_succ hlen) fun z hz => hitems z (List.mem_cons_of_mem x hz)
    rw [htext, readItems, hx.opens.skipBlanks, hx.reads _ (.cons (.inl rfl))]
    by_cases hok : ok x
    · have hall : (∀ z ∈ x :: y :: xs, ok z) ↔ ∀ z ∈ y :: xs, ok z := by simp [hok]
      have hcut := skipBlanks_cons (c := ',') (by decide) (listChars write close (y :: xs) ++ rest)
      rw [if_pos hok]
      simp only [Option.bind_eq_bind, Option.bind_some, hcut, hcomma, ih, hall]
      by_cases hrest : ∀ z ∈ y :: xs, ok z
      · rw [if_pos hrest, if_pos hrest]
        rfl
      · rw [if_neg hrest, if_neg hrest]
        rfl
    · rw [if_neg hok, if_neg fun hall => hok (hall x List.mem_cons_self)]
      rfl

/-- **A list is read back** exactly if all its items are. -/
theorem readList_listChars (hclose : close = ']' ∨ close = '\x7d') {xs : List α}
    (hitems : ∀ x ∈ xs, IsItem item write ok x) (rest : List Char) :
    readList item close (listChars write close xs ++ rest) =
      if ∀ x ∈ xs, ok x then some (xs, rest) else none := by
  cases xs with
  | nil =>
    have hcut : skipBlanks (close :: rest) = close :: rest :=
      skipBlanks_cons (by rcases hclose with rfl | rfl <;> decide) rest
    simp [readList, listChars, hcut]
  | cons x xs =>
    obtain ⟨c, tail, htail, hc⟩ := (hitems x List.mem_cons_self).opens
    obtain ⟨more, htext⟩ : ∃ more, listChars write close (x :: xs) = c :: more := by
      cases xs <;> exact ⟨_, by simp only [listChars, htail]; rfl⟩
    have hne : ¬(c == close) = true := by rcases hclose with rfl | rfl <;> simp_all
    have hlen : (x :: xs).length ≤ (listChars write close (x :: xs)).length :=
      length_le_listChars (x :: xs)
    have hread := readItems_listChars hclose rest (n := (c :: more ++ rest).length)
      (List.cons_ne_nil x xs) (by rw [← htext, List.length_append]; omega) hitems
    rw [htext] at hread ⊢
    rw [readList, List.cons_append, skipBlanks_cons (fun hmem => hc (by simp_all)), ← hread]
    exact if_neg hne

end

/-! ### Values -/

/-- The characters of a member. -/
def memberText (m : String × Json) : List Char := quoted m.1 ++ ':' :: m.2.chars

theorem itemChars_eq : ∀ items : List Json, itemChars items = listChars chars ']' items
  | [] => rfl
  | [_] => rfl
  | j :: k :: rest => congrArg (j.chars ++ ',' :: ·) (itemChars_eq (k :: rest))

theorem memberChars_eq : ∀ members : List (String × Json),
    memberChars members = listChars memberText '\x7d' members
  | [] => rfl
  | [_] => rfl
  | m :: n :: rest => congrArg (memberText m ++ ',' :: ·) (memberChars_eq (n :: rest))

theorem IsValue.opens {j : Json} (h : j.IsValue) : Opens j.chars := by
  cases h with
  | null => exact ⟨'n', _, rfl, by decide⟩
  | bool b => cases b <;> exact ⟨_, _, rfl, by decide⟩
  | @int n hn =>
    by_cases hneg : n < 0
    · exact ⟨'-', _, toList_toString_of_neg hneg, by decide⟩
    · obtain ⟨c, rest, hdigits, hc, -⟩ := toDigits_eq_cons n.natAbs
      refine ⟨c, rest, (toList_toString_of_nonneg hneg).trans hdigits, fun hmem => ?_⟩
      simp only [List.mem_cons, List.not_mem_nil, or_false] at hmem
      rcases hmem with rfl | rfl | rfl | rfl | rfl | rfl <;> cases hc
  | str s => exact ⟨'"', _, rfl, by decide⟩
  | arr h => exact ⟨'[', _, rfl, by decide⟩
  | obj hkeys h => exact ⟨'\x7b', _, rfl, by decide⟩

/-- A number is read as such. -/
theorem readValue_toString (n : Int) (d : Nat) (rest : List Char) :
    readValue d ((toString n).toList ++ rest) = readNumber ((toString n).toList ++ rest) := by
  obtain ⟨c, tail, htail, hc⟩ : ∃ c tail, (toString n).toList = c :: tail ∧
      (c = '-' ∨ c.isDigit = true) := by
    by_cases hneg : n < 0
    · exact ⟨'-', _, toList_toString_of_neg hneg, .inl rfl⟩
    · obtain ⟨c, tail, hdigits, hc, -⟩ := toDigits_eq_cons n.natAbs
      exact ⟨c, tail, (toList_toString_of_nonneg hneg).trans hdigits, .inr hc⟩
  rw [htail, List.cons_append, readValue.eq_def]
  split
  all_goals first
    | rfl
    | next hword =>
      obtain ⟨rfl, -⟩ := List.cons.inj hword
      rcases hc with hc | hc <;> cases hc

/-- A member is read if its value is. -/
theorem readMember_memberText {m : String × Json} (h : m.2.IsValue) {d : Nat} {rest : List Char}
    (hread : readValue d (m.2.chars ++ rest) = if m.2.depth ≤ d then some (m.2, rest) else none) :
    readMember (readValue d) (memberText m ++ rest) =
      if m.2.depth ≤ d then some (m, rest) else none := by
  have htext : memberText m ++ rest =
      '"' :: (m.1.toList.flatMap escape ++ '"' :: ':' :: (m.2.chars ++ rest)) := by
    simp [memberText, quoted]
  have hcut := skipBlanks_cons (c := ':') (by decide) (m.2.chars ++ rest)
  rw [htext, readMember]
  simp only [readString_quoted, Option.bind_eq_bind, Option.bind_some, hcut, h.opens.skipBlanks,
    hread, String.ofList_toList]
  split <;> rfl

/-- **A value is read back** exactly if it is not nested too deep. -/
theorem readValue_chars {j : Json} (h : j.IsValue) (d : Nat) {rest : List Char}
    (hrest : Stops rest) :
    readValue d (j.chars ++ rest) = if j.depth ≤ d then some (j, rest) else none := by
  induction h generalizing d rest with
  | null =>
    refine .trans ?_ (if_pos (Nat.zero_le d)).symm
    rw [readValue.eq_def]
    rfl
  | bool b =>
    refine .trans ?_ (if_pos (Nat.zero_le d)).symm
    rw [readValue.eq_def]
    cases b <;> rfl
  | @int n hn =>
    refine .trans ?_ (if_pos (Nat.zero_le d)).symm
    rw [← readNumber_toString hn hrest]
    exact readValue_toString n d rest
  | str s =>
    refine .trans ?_ (if_pos (Nat.zero_le d)).symm
    have hread := readString_quoted s.toList rest
    have htext : (str s).chars ++ rest = '"' :: (s.toList.flatMap escape ++ '"' :: rest) := by
      simp [chars, quoted]
    rw [htext, readValue.eq_def]
    simp only [hread, Option.map_some, String.ofList_toList]
  | @arr items h ih =>
    have hdepth : (arr items).depth = itemsDepth items + 1 := rfl
    cases d with
    | zero => rw [hdepth]; rfl
    | succ d =>
      have hitems : ∀ j ∈ items, IsItem (readValue d) chars (·.depth ≤ d) j := fun j hj =>
        ⟨(h j hj).opens, fun _ => ih j hj d⟩
      have hread := readList_listChars (.inl rfl) hitems rest
      rw [← itemChars_eq] at hread
      rw [hdepth, chars, List.cons_append, readValue.eq_def]
      simp only [hread, Nat.add_le_add_iff_right, itemsDepth_le]
      split <;> rfl
  | @obj members hkeys h ih =>
    have hdepth : (obj members).depth = membersDepth members + 1 := rfl
    cases d with
    | zero => rw [hdepth]; rfl
    | succ d =>
      have hitems : ∀ m ∈ members, IsItem (readMember (readValue d)) memberText (·.2.depth ≤ d) m :=
        fun m hm => ⟨⟨'"', _, rfl, by decide⟩, fun rest hrest =>
          readMember_memberText (h m hm) (ih m hm d hrest)⟩
      have hread := readList_listChars (.inr rfl) hitems rest
      rw [← memberChars_eq] at hread
      rw [hdepth, chars, List.cons_append, readValue.eq_def]
      simp only [hread, Nat.add_le_add_iff_right, membersDepth_le]
      split <;> rfl

/-! ### Objects in order -/

/-- A member whose key is behind all others goes to the end. -/
theorem putMember_append {key : String} {v : Json} : ∀ {members : List (String × Json)},
    (∀ m ∈ members, m.1 < key) → putMember key v members = members ++ [(key, v)]
  | [], _ => rfl
  | (k, w) :: rest, h => by
    have hk : k < key := h (k, w) List.mem_cons_self
    have ih := putMember_append (v := v) fun m hm => h m (List.mem_cons_of_mem (k, w) hm)
    rw [putMember, if_neg (String.lt_asymm hk), if_neg (String.ne_of_lt hk).symm, ih]
    rfl

theorem canonicalMembers_append : ∀ {members done : List (String × Json)},
    (done ++ members).Pairwise (·.1 < ·.1) → (∀ m ∈ members, m.2.canonical = m.2) →
      canonicalMembers members done = done ++ members
  | [], done, _, _ => by rw [canonicalMembers, List.append_nil]
  | (k, v) :: rest, done, hkeys, hvalues => by
    have hbefore : ∀ m ∈ done, m.1 < k := fun m hm =>
      (List.pairwise_append.mp hkeys).2.2 m hm (k, v) List.mem_cons_self
    have hall : done ++ (k, v) :: rest = done ++ [(k, v)] ++ rest := by simp
    rw [canonicalMembers, hvalues (k, v) List.mem_cons_self, putMember_append hbefore,
      canonicalMembers_append (hall ▸ hkeys) fun m hm => hvalues m (List.mem_cons_of_mem _ hm),
      hall]

theorem canonicalItems_eq : ∀ {items : List Json}, (∀ j ∈ items, j.canonical = j) →
    canonicalItems items = items
  | [], _ => rfl
  | j :: rest, h => by
    rw [canonicalItems, h j List.mem_cons_self,
      canonicalItems_eq fun k hk => h k (List.mem_cons_of_mem j hk)]

/-- **The members of a value are in order.** -/
theorem IsValue.canonical_eq {j : Json} (h : j.IsValue) : j.canonical = j := by
  induction h with
  | null => rfl
  | bool b => rfl
  | int hn => rfl
  | str s => rfl
  | arr h ih => rw [canonical, canonicalItems_eq ih]
  | obj hkeys h ih => rw [canonical, @canonicalMembers_append _ [] hkeys ih, List.nil_append]

/-- **A document is read back** exactly if it is not nested too deep. -/
theorem parse_text {j : Json} (h : j.IsValue) (d : Nat) :
    parse d j.text = if j.depth ≤ d then some j else none := by
  have hread := readValue_chars h d .nil
  have hcut := h.opens.skipBlanks []
  rw [List.append_nil] at hread hcut
  rw [parse, text, String.toList_ofList, hcut, hread]
  by_cases hdepth : j.depth ≤ d
  · rw [if_pos hdepth, if_pos hdepth]
    rfl
  · rw [if_neg hdepth, if_neg hdepth]

/-- Arrays in each other, and nothing else. -/
def nested : Nat → Json
  | 0 => .arr []
  | n + 1 => .arr [nested n]

theorem isValue_nested : ∀ n, (nested n).IsValue
  | 0 => .arr nofun
  | n + 1 => .arr fun j hj => by
    rw [List.mem_singleton.mp hj]
    exact isValue_nested n

end Json

namespace Field

open Json

/-- **Documents survive their cells** if arrays and objects are nested at most so deep as a reader
goes: what is read is the document that was written, whatever its strings and keys are. A document
that is nested deeper is written all the same, and its text is then refused. -/
theorem fromCell_toCell_document {j : Json} (h : j.IsValue) :
    document.fromCell (document.toCell j) =
      if j.depth ≤ documentDepth then .ok j
      else .error (unreadable "json" j.text omittedReason) := by
  have hread : readDocument j.text = if j.depth ≤ documentDepth then some j else none := by
    rw [readDocument, parse_text h]
    split
    · rw [Option.map_some, h.canonical_eq]
    · rfl
  by_cases hdepth : j.depth ≤ documentDepth
  · rw [if_pos hdepth] at hread ⊢
    simp only [document, ofText, hread]
  · rw [if_neg hdepth] at hread ⊢
    simp only [document, ofText, hread]

/-- A document with everything that is escaped, and with the least and the greatest number. -/
def crowded : Json :=
  .obj [("", .arr [.int (-9223372036854775808), .int 18446744073709551615, .obj [], .null]),
    ("\x00\"\\/\x1f\n", .obj [("a", .str "\x7fé\u2028😀"), ("b", .arr [.bool true, .int 0])])]

/-- The document is read back, and it is so at the bottom of as many arrays as there may be. -/
theorem fromCell_toCell_document_crowded :
    crowded.IsValue ∧ document.fromCell (document.toCell crowded) = .ok crowded := by
  have hnumbers : (Json.arr [.int (-9223372036854775808), .int 18446744073709551615, .obj [],
      .null]).IsValue := by
    refine .arr ?_
    simp only [List.forall_mem_cons]
    exact ⟨.int (by decide), .int (by decide), .obj .nil nofun, .null, nofun⟩
  have hstrings : (Json.obj [("a", .str "\x7fé\u2028😀"),
      ("b", .arr [.bool true, .int 0])]).IsValue := by
    refine .obj (by decide +kernel) ?_
    simp only [List.forall_mem_cons]
    refine ⟨.str _, .arr ?_, nofun⟩
    simp only [List.forall_mem_cons]
    exact ⟨.bool true, .int (by decide), nofun⟩
  have hvalue : crowded.IsValue := by
    refine .obj (by decide +kernel) ?_
    simp only [List.forall_mem_cons]
    exact ⟨hnumbers, hstrings, nofun⟩
  exact ⟨hvalue, (fromCell_toCell_document hvalue).trans (if_pos (by decide))⟩

/-- **Not all documents survive**: one is nested too deep. -/
theorem document_nested_too_deep :
    ¬∀ j : Json, j.IsValue → document.fromCell (document.toCell j) = .ok j := by
  intro h
  have hlost : (document.fromCell (document.toCell (nested 127))).isOk = false := by
    decide +kernel
  rw [h _ (isValue_nested 127)] at hlost
  cases hlost

end Field

end SqlRecords
