import SqlRecords.Proofs.Sqlite.Affinities
import SqlRecords.Proofs.Sqlite.Intake
import SqlRecords.Proofs.Sqlite.Sound

/-!
# Rows as their columns keep them

A row of a table was made of some values: the row id, a number of 64 bits, stands in its column,
and every other column has what its affinity made of one of them (`StoredTable.Made`). Together with
what makes a table sound this is all that holds of each table that statements lead to, whatever they
are (`StoredTable.Tidy`). An INSERT adds a row that it made, and a change of a row makes it anew, so
that nothing else can get into a table.

## What is proved

* `StoredTable.Made.value_eq`, `StoredTable.Made.apply_value`: what stands in a column of a row, and
  that it is kept as it is when it is stored again.
* **`StoredTable.Tidy.insert`**: an INSERT of any kind leaves a tidy table behind.
* `Tables.updateRows_tidy`: so does an UPDATE of any rows.
* `Tables.intake_tidy`: rows that are taken one after the other leave all tables tidy.
-/

namespace SqlRecords.Sqlite

namespace StoredTable

variable {t t' : StoredTable} {row : StoredRow} {id : Int}

/-! ### Rows that were made -/

/-- A row is one that the columns of a table keep. -/
structure Made (t : StoredTable) (r : StoredRow) : Prop where
  /-- It was made of some values. -/
  values : ∃ values, t.rowOf r.id values = r
  /-- Its id is a number of 64 bits. -/
  fits : fits r.id = true

namespace Made

/-- There is a value for each column. -/
theorem width (h : t.Made row) : row.values.length = t.rule.columns.length := by
  obtain ⟨values, hvalues⟩ := h.values
  rw [← hvalues]
  simp [rowOf]

/-- What stands in a column: the row id, or what the column made of some value. -/
theorem value_eq (h : t.Made row) {i : Nat} (hi : i < t.rule.columns.length) :
    (t.rule.rowId = some i → row.value i = .integer (Int64.ofInt row.id)) ∧
      (t.rule.rowId ≠ some i → ∃ v, row.value i = (t.rule.affinity i).apply v) := by
  obtain ⟨values, hvalues⟩ := h.values
  have hvalue := t.value_rowOf row.id values hi
  rw [hvalues] at hvalue
  refine ⟨fun hid => ?_, fun hid => ⟨(values[i]?).getD .null, ?_⟩⟩
  · rw [hvalue, if_pos (by simp [hid])]
  · rw [hvalue, if_neg (by simpa using hid)]

/-- What stands in a column is kept as it is when it is stored again. -/
theorem apply_value (h : t.Made row) {i : Nat} (hi : i < t.rule.columns.length)
    (hid : t.rule.rowId ≠ some i) :
    (t.rule.affinity i).apply (row.value i) = row.value i := by
  obtain ⟨v, hv⟩ := (h.value_eq hi).2 hid
  rw [hv]
  exact Affinity.apply_apply _ v

end Made

/-! ### Row ids -/

theorem fits_iff {n : Int} :
    fits n = true ↔ Int64.minValue.toInt ≤ n ∧ n ≤ Int64.maxValue.toInt := by
  simp [fits]

theorem fits_of_idOf {v : Stored} (h : idOf v = .ok id) : fits id = true := by
  unfold idOf at h
  split at h
  · next n _ =>
    cases h
    exact fits_iff.mpr ⟨n.minValue_le_toInt, n.toInt_le⟩
  · cases h

theorem fits_of_nextId (hids : ∀ r ∈ t.rows, fits r.id = true) (h : t.nextId = .ok id) :
    fits id = true := by
  have hmin : Int64.minValue.toInt ≤ 0 := by decide
  have hlast : ∀ r, t.rows.getLast? = some r → Int64.minValue.toInt ≤ r.id := fun r hr =>
    (fits_iff.mp (hids r (List.mem_of_getLast? hr))).1
  have hmax : maxId = Int64.maxValue.toInt := rfl
  rw [fits_iff]
  simp only [nextId] at h
  cases hrows : t.rows.getLast? with
  | none =>
    simp only [hrows] at h
    split at h <;> split at h <;> cases h <;> omega
  | some r =>
    have hr := hlast r hrows
    simp only [hrows] at h
    split at h <;> split at h <;> cases h <;> omega

theorem fits_of_newId (hids : ∀ r ∈ t.rows, fits r.id = true) {values : List Stored}
    (h : Insertion.newId t values = .ok id) : fits id = true := by
  unfold Insertion.newId at h
  split at h
  · exact fits_of_nextId hids h
  · split at h
    · exact fits_of_nextId hids h
    · exact fits_of_idOf h

/-! ### What keeps a table tidy -/

/-- The rows are in order, no key is there twice, and each row is one that the columns keep. -/
structure Tidy (t : StoredTable) : Prop extends Sound t where
  /-- Each row was made of some values. -/
  made : ∀ r ∈ t.rows, t.Made r

namespace Tidy

/-- A table without rows. -/
theorem empty (rule : TableRule) (lastId : Int) : Tidy ⟨rule, [], lastId⟩ :=
  ⟨.empty rule lastId, nofun⟩

/-- Rows that are taken away leave the others as they were. -/
theorem filter (h : t.Tidy) (p : StoredRow → Bool) : Tidy { t with rows := t.rows.filter p } where
  toSound := h.toSound.filter p
  made r hr :=
    let ⟨hvalues, hfits⟩ := h.made r (List.mem_filter.mp hr).1
    ⟨hvalues, hfits⟩

/-- The greatest id ever given makes no difference. -/
theorem withLastId (h : t.Tidy) (lastId : Int) : Tidy { t with lastId } where
  toSound := h.toSound.withLastId lastId
  made r hr :=
    let ⟨hvalues, hfits⟩ := h.made r hr
    ⟨hvalues, hfits⟩

/-- A row that was checked against all others is added. -/
theorem add (h : t.Tidy) (hrow : t.Made row) (hchecked : t.checkKeys none row t.keys = .ok ()) :
    (t.add row).Tidy where
  toSound := h.toSound.add hchecked
  made r hr := by
    have hmade : t.Made r := (mem_place.mp hr).elim (fun hr => hr ▸ hrow) (h.made r)
    exact ⟨hmade.values, hmade.fits⟩

/-- A row that was checked against all others is put in place of another one. -/
theorem replace (h : t.Tidy) {old : Int} (hrow : t.Made row)
    (hchecked : t.checkKeys (some old) row t.keys = .ok ()) : (t.replace old row).Tidy where
  toSound := h.toSound.replace hchecked
  made r hr := by
    have hmade : t.Made r := (mem_replace.mp hr).elim (fun hr => hr ▸ hrow) fun hr => h.made r hr.1
    exact ⟨hmade.values, hmade.fits⟩

/-- A row is added behind those that it made go. -/
theorem clear_add (h : t.Tidy) (hrow : t.Made row) : ((t.clear row).add row).Tidy := by
  have hcleared : (t.clear row).Tidy := h.filter _
  refine hcleared.add ⟨hrow.values, hrow.fits⟩ (checkKeys_ok fun k hk r hr => ?_)
  have hgone := (List.mem_filter.mp hr).2
  rw [Bool.not_eq_true', List.any_eq_false] at hgone
  exact Bool.eq_false_iff.mpr (hgone k hk)

/-- A row that is changed is made anew. -/
theorem change (h : t.Tidy) (hrow : fits row.id = true) {columns : List Nat} {value : Nat → Stored}
    (hchange : t.change row columns value = .ok t') : t'.Tidy := by
  obtain ⟨id, hid, hchecked, rfl⟩ := change_ok hchange
  refine h.replace ⟨⟨_, rfl⟩, ?_⟩ hchecked
  rcases hid with rfl | ⟨i, -, -, hid⟩
  · exact hrow
  · exact fits_of_idOf hid

/-- **An INSERT of any kind leaves a tidy table behind.** -/
theorem insert (h : t.Tidy) {insertion : Insertion} {given : List Stored}
    (hinsert : t.insert insertion given = .ok t') : t'.Tidy := by
  have hmade : ∀ {id}, Insertion.newId t (insertion.values t.rule given) = .ok id →
      t.Made (t.rowOf id (insertion.values t.rule given)) := fun hid =>
    ⟨⟨_, rfl⟩, fits_of_newId (fun r hr => (h.made r hr).fits) hid⟩
  by_cases hreplace : insertion.onConflict = .replace
  · simp only [StoredTable.insert, hreplace, Except.bind_eq_ok_iff, Except.pure_eq_ok_iff]
      at hinsert
    obtain ⟨id, hid, ⟨⟩, -, rfl⟩ := hinsert
    exact h.clear_add (hmade hid)
  · obtain ⟨id, hid, -, ⟨hchecked, rfl⟩ | ⟨_, _, -, -, rfl⟩ |
      ⟨_, columns, old, -, hold, hchange⟩⟩ := insert_cases hreplace hinsert
    · exact h.add (hmade hid) hchecked
    · exact h.withLastId _
    · exact (h.withLastId _).change (h.made old (conflict?_eq_some hold).1).fits hchange

end Tidy

end StoredTable

namespace Tables

open StoredTable

variable {ts ts' : Tables} {t t' : StoredTable}

/-- An UPDATE of any rows leaves a tidy table behind. -/
theorem updateRows_tidy {s : Scope} {sets : List (Nat × Expr Nat)} :
    ∀ {rows : List StoredRow} {t t' : StoredTable}, updateRows s sets rows t = .ok t' → t.Tidy →
      (∀ row ∈ rows, fits row.id = true) → t'.Tidy
  | [], t, t', h, ht, _ => by
    cases h
    exact ht
  | row :: rest, t, t', h, ht, hrows => by
    simp only [updateRows, Except.bind_eq_ok_iff] at h
    obtain ⟨values, -, u, hchange, h⟩ := h
    obtain ⟨hrow, hrest⟩ := List.forall_mem_cons.mp hrows
    exact updateRows_tidy h (ht.change hrow hchange) hrest

/-- All tables are tidy. -/
def Tidy (ts : Tables) : Prop := ∀ t ∈ ts, t.Tidy

namespace Tidy

/-- A tidy table may come in place of another one. -/
theorem put (h : ts.Tidy) (ht : t.Tidy) : (ts.put t).Tidy := by
  intro u hu
  obtain ⟨v, hv, rfl⟩ := List.mem_map.mp hu
  split
  · exact ht
  · exact h v hv

/-- A table that is made has no rows. -/
theorem madeBy (h : ts.Tidy) {s : CreateTable} (hmade : MadeBy s ts ts') : ts'.Tidy := by
  obtain rfl | ⟨-, rule, -, rfl⟩ := hmade
  · exact h
  intro u hu
  rcases List.mem_append.mp hu with hu | hu
  · exact h u hu
  · rw [List.mem_singleton.mp hu]
    exact .empty rule 0

/-- An INSERT of one row. -/
theorem insertRow (h : ts.Tidy) {i : Insert} {given : List Stored}
    (hinsert : ts.insertRow i given = .ok ts') : ts'.Tidy := by
  obtain ⟨t, insertion, t', hfound, -, hrow, rfl⟩ := insertRow_put hinsert
  exact h.put ((h t (mem_of_mentioned? hfound)).insert hrow)

end Tidy

/-- **Rows that are taken one after the other** leave all tables tidy. -/
theorem intake_tidy {i : Insert} : ∀ (rows : List Row) {ts : Tables}, ts.Tidy →
    (SqliteConnection.intake i rows ts).2.Tidy
  | [], _, h => h
  | row :: rest, ts, h => by
    cases htaken : SqliteConnection.accept i row ts with
    | none =>
      rw [SqliteConnection.intake_cons_of_none htaken]
      exact h
    | some ts' =>
      rw [SqliteConnection.intake_cons_of_some htaken]
      exact intake_tidy rest (h.insertRow (SqliteConnection.accept_eq_some_iff.mp htaken).2)

end Tables

end SqlRecords.Sqlite
