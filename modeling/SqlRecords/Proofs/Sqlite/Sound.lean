import SqlRecords.Proofs.Sqlite.Inserting

/-!
# Rows in order, and no key twice

The rows of a table stand in the order of their ids, and no two of them share a key
(`StoredTable.Sound`). Whatever is done with a row keeps it like this: a row is checked against
all others before it is added or put in place of another one, and rows that are taken away leave
the others as they were.

`insert_cases` and `change_ok` say once what an INSERT and a change of a row can do. Whether a row
is new, or comes in place of another one, it went through `checkKeys`.

## What is proved

* `StoredTable.checkKeys_eq_ok_iff`: what is checked of a row.
* **`StoredTable.insert_cases`**: the ways an INSERT of one row can go.
* `StoredTable.Sound.add`, `StoredTable.Sound.replace`, `StoredTable.Sound.filter`: what keeps a
  table sound.
* `StoredTable.Sound.nextId_ok`: the row id that a sound table gives next.
* **`Tables.updateRows_sound`**: an UPDATE of any rows keeps their table sound.
-/

namespace SqlRecords.Sqlite

namespace StoredTable

variable {t t' : StoredTable} {row : StoredRow}

/-! ### Checks -/

/-- No row but one that is left out shares the key. -/
theorem conflict?_eq_none_iff {without : Option Int} {k : Key} :
    t.conflict? without row k = none ↔
      ∀ r ∈ t.rows, some r.id ≠ without → k.shared row r = false := by
  simp only [conflict?, List.find?_eq_none, Bool.and_eq_true, bne_iff_ne, not_and,
    Bool.not_eq_true]

/-- A row that shares the key. -/
theorem conflict?_eq_some {k : Key} {old : StoredRow} (h : t.conflict? none row k = some old) :
    old ∈ t.rows ∧ k.shared row old = true := by
  have hfound := List.find?_some h
  rw [Bool.and_eq_true] at hfound
  exact ⟨List.mem_of_find?_eq_some h, hfound.2⟩

/-- A row is checked against all others but one that is left out. -/
theorem checkKeys_eq_ok_iff {without : Option Int} : ∀ {keys : List Key},
    t.checkKeys without row keys = .ok () ↔
      ∀ k ∈ keys, ∀ r ∈ t.rows, some r.id ≠ without → k.shared row r = false
  | [] => by simp [checkKeys]
  | k :: keys => by
    rw [checkKeys, List.forall_mem_cons, ← checkKeys_eq_ok_iff, ← conflict?_eq_none_iff]
    cases t.conflict? without row k <;> simp

/-! ### Places -/

theorem mem_place {rows : List StoredRow} {r : StoredRow} :
    r ∈ place row rows ↔ r = row ∨ r ∈ rows := by
  rw [(place_perm row rows).mem_iff, List.mem_cons]

/-- A row whose id is new finds its place in the order of the ids. -/
theorem place_sorted : ∀ {rows : List StoredRow}, rows.Pairwise (·.id < ·.id) →
    (∀ r ∈ rows, r.id ≠ row.id) → (place row rows).Pairwise (·.id < ·.id)
  | [], _, _ => List.pairwise_singleton _ _
  | r :: rest, hsorted, hnew => by
    obtain ⟨hfirst, hrest⟩ := List.pairwise_cons.mp hsorted
    unfold place
    split
    · next hlt =>
      refine .cons (fun r' hr' => ?_) hsorted
      rcases List.mem_cons.mp hr' with rfl | hr'
      · exact hlt
      · exact Int.lt_trans hlt (hfirst r' hr')
    · next hge =>
      have hne := hnew r List.mem_cons_self
      refine .cons (fun r' hr' => ?_)
        (place_sorted hrest fun r' hr' => hnew r' (List.mem_cons_of_mem r hr'))
      rcases mem_place.mp hr' with rfl | hr'
      · omega
      · exact hfirst r' hr'

/-! ### Sound tables -/

/-- The rows stand in the order of their ids, and no two share a key. -/
structure Sound (t : StoredTable) : Prop where
  /-- The ids increase. -/
  sorted : t.rows.Pairwise (·.id < ·.id)
  /-- Rows that share a key both ways are the same. -/
  apart : ∀ row ∈ t.rows, ∀ other ∈ t.rows, ∀ k ∈ t.keys, k.shared row other = true →
    k.shared other row = true → row = other

namespace Sound

/-- A row is found by its id. -/
theorem eq_of_id (h : t.Sound) {other : StoredRow} (hrow : row ∈ t.rows) (hother : other ∈ t.rows)
    (hid : row.id = other.id) : row = other := by
  refine h.apart row hrow other hother .rowId List.mem_cons_self ?_ ?_
  · exact beq_iff_eq.mpr hid
  · exact beq_iff_eq.mpr hid.symm

/-- The rows are any one of them, and those with other ids. -/
theorem mem_rows_iff (h : t.Sound) {old r : StoredRow} (hold : old ∈ t.rows) :
    r ∈ t.rows ↔ r = old ∨ r ∈ t.rows ∧ r.id ≠ old.id := by
  constructor
  · intro hr
    by_cases hid : r.id = old.id
    · exact .inl (h.eq_of_id hr hold hid)
    · exact .inr ⟨hr, hid⟩
  · rintro (rfl | ⟨hr, -⟩)
    · exact hold
    · exact hr

/-- A table without rows. -/
theorem empty (rule : TableRule) (lastId : Int) : Sound ⟨rule, [], lastId⟩ := ⟨.nil, nofun⟩

/-- Rows that are taken away leave the others as they were. -/
theorem filter (h : t.Sound) (p : StoredRow → Bool) :
    Sound { t with rows := t.rows.filter p } where
  sorted := h.sorted.filter p
  apart row hrow other hother :=
    h.apart row (List.mem_filter.mp hrow).1 other (List.mem_filter.mp hother).1

/-- The greatest id ever given makes no difference. -/
theorem withLastId (h : t.Sound) (lastId : Int) : Sound { t with lastId } := ⟨h.sorted, h.apart⟩

/-- A row that shares no key with the others is put in its place. -/
theorem ofPlace {rows : List StoredRow} {lastId : Int} (h : Sound { t with rows })
    (hnew : ∀ k ∈ t.keys, ∀ r ∈ rows, k.shared row r = false) :
    Sound { t with rows := place row rows, lastId } := by
  have hids : ∀ r ∈ rows, r.id ≠ row.id := by
    intro r hr hid
    have hshared := hnew .rowId List.mem_cons_self r hr
    simp [Key.shared, hid] at hshared
  refine ⟨place_sorted h.sorted hids, ?_⟩
  intro r hr r' hr' k hk hshared hshared'
  rcases mem_place.mp hr with hfirst | hold <;> rcases mem_place.mp hr' with hfirst' | hold'
  · rw [hfirst, hfirst']
  · rw [hfirst, hnew k hk r' hold'] at hshared
    cases hshared
  · rw [hfirst', hnew k hk r hold] at hshared'
    cases hshared'
  · exact h.apart r hold r' hold' k hk hshared hshared'

/-- A row that was checked against all others is added. -/
theorem add (h : t.Sound) (hchecked : t.checkKeys none row t.keys = .ok ()) :
    (t.add row).Sound :=
  ofPlace h fun k hk r hr => checkKeys_eq_ok_iff.mp hchecked k hk r hr nofun

/-- A row that was checked against all others is put in place of another one. -/
theorem replace (h : t.Sound) {id : Int}
    (hchecked : t.checkKeys (some id) row t.keys = .ok ()) : (t.replace id row).Sound := by
  refine ofPlace (h.filter (·.id != id)) fun k hk r hr => ?_
  obtain ⟨hr, hid⟩ := List.mem_filter.mp hr
  have hne : some r.id ≠ some id := fun hsame => by simp [Option.some.inj hsame] at hid
  exact checkKeys_eq_ok_iff.mp hchecked k hk r hr hne

end Sound

theorem mem_replace {id : Int} {r : StoredRow} :
    r ∈ (t.replace id row).rows ↔ r = row ∨ r ∈ t.rows ∧ r.id ≠ id := by
  simp [replace, remove, mem_place]

/-! ### Row ids -/

namespace Sound

/-- The next id is one more than the greatest, unless ids are never given again. -/
theorem nextId_eq (h : t.Sound) (hnumbered : t.rule.numbered = false) :
    ∃ last, (last = 0 ∨ ∃ r ∈ t.rows, r.id = last) ∧ (∀ r ∈ t.rows, r.id ≤ last) ∧
      t.nextId =
        if maxId < last + 1 then .error "database or disk is full" else .ok (last + 1) := by
  obtain hnil | ⟨rows, r, hrows⟩ := List.eq_nil_or_concat t.rows
  · refine ⟨0, .inl rfl, by simp [hnil], ?_⟩
    simp [nextId, hnil, hnumbered]
  · have hsorted := h.sorted
    rw [hrows, List.concat_eq_append] at hsorted
    refine ⟨r.id, .inr ⟨r, by simp [hrows], rfl⟩, fun r' hr' => ?_, ?_⟩
    · rw [hrows, List.concat_eq_append, List.mem_append, List.mem_singleton] at hr'
      rcases hr' with hr' | rfl
      · exact Int.le_of_lt ((List.pairwise_append.mp hsorted).2.2 r' hr' r (by simp))
      · exact Int.le_refl _
    · simp [nextId, hrows, hnumbered]

/-- The next id is greater than all others. -/
theorem lt_nextId (h : t.Sound) {id : Int} (hid : t.nextId = .ok id) :
    ∀ r ∈ t.rows, r.id < id := by
  intro r hr
  obtain hnil | ⟨rows, last, hrows⟩ := List.eq_nil_or_concat t.rows
  · rw [hnil] at hr
    cases hr
  · have hsorted := h.sorted
    rw [hrows, List.concat_eq_append] at hsorted hr
    have hle : r.id ≤ last.id := by
      rcases List.mem_append.mp hr with hr | hr
      · exact Int.le_of_lt ((List.pairwise_append.mp hsorted).2.2 r hr last (by simp))
      · exact Int.le_of_eq (congrArg _ (List.mem_singleton.mp hr))
    simp only [nextId, hrows, List.concat_eq_append, List.getLast?_append, List.getLast?_singleton,
      Option.some_or] at hid
    split at hid <;> split at hid <;> cases hid <;> omega

/-- The next id is greater than all others, and not much. -/
theorem nextId_ok (h : t.Sound) (hnumbered : t.rule.numbered = false) {id : Int}
    (hid : t.nextId = .ok id) :
    (∀ r ∈ t.rows, r.id < id) ∧ ∀ n : Nat, (∀ r ∈ t.rows, r.id ≤ n) → id ≤ n + 1 := by
  refine ⟨h.lt_nextId hid, fun n hn => ?_⟩
  obtain ⟨last, hlast, -, hnext⟩ := h.nextId_eq hnumbered
  rw [hnext] at hid
  split at hid
  · cases hid
  · cases hid
    obtain rfl | ⟨r, hr, rfl⟩ := hlast
    · omega
    · have := hn r hr
      omega

/-- There is a next id if all ids are less than the greatest possible one. -/
theorem nextId_accepts (h : t.Sound) (hnumbered : t.rule.numbered = false)
    (hroom : ∀ r ∈ t.rows, r.id < maxId) : ∃ id, t.nextId = .ok id := by
  obtain ⟨last, hlast, -, hnext⟩ := h.nextId_eq hnumbered
  refine ⟨last + 1, hnext.trans (if_neg ?_)⟩
  obtain rfl | ⟨r, hr, rfl⟩ := hlast
  · decide
  · have := hroom r hr
    omega

end Sound

/-! ### What is done with a row -/

/-- A column is changed, or keeps its value. -/
theorem getElem?_changed {columns : List Nat} {value : Nat → Stored} {i : Nat}
    (hi : i < row.values.length) :
    (changed row columns value)[i]? = some (if i ∈ columns then value i else row.value i) := by
  rw [changed, List.getElem?_map, List.getElem?_range hi]
  simp only [Option.map_some, List.contains_iff_mem]

/-- A row that is changed is checked against all others. It keeps its id, or the column of the row id
is among those that are changed. -/
theorem change_ok {columns : List Nat} {value : Nat → Stored}
    (h : t.change row columns value = .ok t') :
    ∃ id, (id = row.id ∨ ∃ i ∈ columns, t.rule.rowId = some i ∧ idOf (value i) = .ok id) ∧
      t.checkKeys (some row.id) (t.rowOf id (changed row columns value)) t.keys = .ok () ∧
      t' = t.replace row.id (t.rowOf id (changed row columns value)) := by
  have hrest : ∀ {result : Except String Int}, (do
      let id ← result
      t.checkNulls (changed row columns value)
      t.checkKeys (some row.id) (t.rowOf id (changed row columns value)) t.keys
      return t.replace row.id (t.rowOf id (changed row columns value))) = .ok t' →
      ∃ id, result = .ok id ∧
        t.checkKeys (some row.id) (t.rowOf id (changed row columns value)) t.keys = .ok () ∧
        t' = t.replace row.id (t.rowOf id (changed row columns value)) := by
    intro result hresult
    simp only [Except.bind_eq_ok_iff, Except.pure_eq_ok_iff] at hresult
    obtain ⟨id, hid, -, -, ⟨⟩, hchecked, rfl⟩ := hresult
    exact ⟨id, hid, hchecked, rfl⟩
  unfold change at h
  split at h
  · next i hi =>
    split at h
    · next hmem =>
      obtain ⟨id, hid, hchanged⟩ := hrest h
      exact ⟨id, .inr ⟨i, List.contains_iff_mem.mp hmem, hi, hid⟩, hchanged⟩
    · obtain ⟨id, ⟨⟩, hchanged⟩ := hrest h
      exact ⟨row.id, .inl rfl, hchanged⟩
  · obtain ⟨id, ⟨⟩, hchanged⟩ := hrest h
    exact ⟨row.id, .inl rfl, hchanged⟩

/-- A row can be changed if its new values pass the checks and its row id is not among them. -/
theorem change_accepts {columns : List Nat} {value : Nat → Stored}
    (hid : ∀ i, t.rule.rowId = some i → i ∉ columns)
    (hnulls : t.checkNulls (changed row columns value) = .ok ())
    (hchecked : t.checkKeys (some row.id) (t.rowOf row.id (changed row columns value)) t.keys =
      .ok ()) :
    t.change row columns value =
      .ok (t.replace row.id (t.rowOf row.id (changed row columns value))) := by
  unfold change
  cases hrowId : t.rule.rowId with
  | none => simp [hnulls, hchecked, bind, Except.bind, pure, Except.pure]
  | some i => simp [hid i hrowId, hnulls, hchecked, bind, Except.bind, pure, Except.pure]

/-- **The ways an INSERT of one row can go**, unless it makes way for the row by taking others away.
The row is added, it is left out, or a row that shares the key takes some of its values. -/
theorem insert_cases {insertion : Insertion} {given : List Stored}
    (hkept : insertion.onConflict ≠ .replace) (h : t.insert insertion given = .ok t') :
    ∃ id, Insertion.newId t (insertion.values t.rule given) = .ok id ∧
      t.checkNulls (insertion.values t.rule given) = .ok () ∧
      (t.checkKeys none (t.rowOf id (insertion.values t.rule given)) t.keys = .ok () ∧
          t' = t.add (t.rowOf id (insertion.values t.rule given)) ∨
        (∃ key old, insertion.onConflict = .skip key ∧
          t.conflict? none (t.rowOf id (insertion.values t.rule given)) key = some old ∧
          t' = { t with lastId := max t.lastId id }) ∨
        ∃ key columns old, insertion.onConflict = .overwrite key columns ∧
          t.conflict? none (t.rowOf id (insertion.values t.rule given)) key = some old ∧
          change { t with lastId := max t.lastId id } old columns
            (t.rowOf id (insertion.values t.rule given)).value = .ok t') := by
  simp only [insert, Except.bind_eq_ok_iff] at h
  obtain ⟨id, hid, ⟨⟩, hnulls, h⟩ := h
  refine ⟨id, hid, hnulls, ?_⟩
  generalize t.rowOf id (insertion.values t.rule given) = row at h ⊢
  cases hconflict : insertion.onConflict with
  | refuse =>
    simp only [hconflict, Except.bind_eq_ok_iff, Except.pure_eq_ok_iff] at h
    obtain ⟨⟨⟩, hchecked, rfl⟩ := h
    exact .inl ⟨hchecked, rfl⟩
  | replace => exact absurd hconflict hkept
  | skip key =>
    simp only [hconflict] at h
    cases hold : t.conflict? none row key with
    | none =>
      simp only [hold, Except.bind_eq_ok_iff, Except.pure_eq_ok_iff] at h
      obtain ⟨⟨⟩, hchecked, rfl⟩ := h
      exact .inl ⟨hchecked, rfl⟩
    | some old =>
      simp only [hold, Except.pure_eq_ok_iff] at h
      exact .inr (.inl ⟨key, old, rfl, hold, h.symm⟩)
  | overwrite key columns =>
    simp only [hconflict] at h
    cases hold : t.conflict? none row key with
    | none =>
      simp only [hold, Except.bind_eq_ok_iff, Except.pure_eq_ok_iff] at h
      obtain ⟨⟨⟩, hchecked, rfl⟩ := h
      exact .inl ⟨hchecked, rfl⟩
    | some old =>
      simp only [hold] at h
      exact .inr (.inr ⟨key, columns, old, rfl, hold, h⟩)

end StoredTable

namespace Tables

open StoredTable

/-- An UPDATE of any rows leaves their table what it is like. -/
theorem updateRows_rule {s : Scope} {sets : List (Nat × Expr Nat)} :
    ∀ {rows : List StoredRow} {t t' : StoredTable}, updateRows s sets rows t = .ok t' →
      t'.rule = t.rule
  | [], t, t', h => by
    cases h
    rfl
  | row :: rest, t, t', h => by
    simp only [updateRows, Except.bind_eq_ok_iff] at h
    obtain ⟨values, -, u, hchange, h⟩ := h
    obtain ⟨id, -, -, rfl⟩ := change_ok hchange
    have hrule := updateRows_rule h
    exact hrule

/-- An UPDATE of any rows keeps their table sound. -/
theorem updateRows_sound {s : Scope} {sets : List (Nat × Expr Nat)} :
    ∀ {rows : List StoredRow} {t t' : StoredTable}, updateRows s sets rows t = .ok t' → t.Sound →
      t'.Sound
  | [], t, t', h, ht => by
    cases h
    exact ht
  | row :: rest, t, t', h, ht => by
    simp only [updateRows, Except.bind_eq_ok_iff] at h
    obtain ⟨values, -, u, hchange, h⟩ := h
    obtain ⟨id, -, hchecked, rfl⟩ := change_ok hchange
    exact updateRows_sound h (ht.replace hchecked)

end Tables

end SqlRecords.Sqlite
