import SqlRecords.Proofs.Sqlite.Tables

/-!
# When rows are accepted

A plain INSERT is refused for a NULL where there may be none, for a row id that is no
whole number, for a key that a row has already, or when there is no row id left. A row of
cells that gives none of these reasons is accepted.

`Loaded rule columns sent t` says that a table has rows for the cells that were sent so
far and no others. If the database gives the row ids, the rows are numbered from 1 in the
order they were sent.

## What is proved

* `StoredTable.insert_accepts`: a row without a reason against it is added.
* `Tables.insertRow_accepts`: the same for tables without foreign keys.
* **`Loaded.step`**: a table that is loaded with some rows accepts one more that shares no
  key with any of them, and is loaded with it.
-/

namespace SqlRecords.Sqlite

/-! ### Rows that are acceptable -/

namespace TableRule

variable (t : TableRule) (columns : List Column)

/-- The database gives the row id of a row of cells. -/
def SelfNumbered (cells : Row) : Prop := ∀ i, t.rowId = some i → t.given columns cells i = .null

/-- There is nothing wrong with a row of cells by itself. -/
structure Accepts (cells : Row) : Prop where
  /-- There is no NULL where there may be none. -/
  notNull : ∀ i < t.columns.length, t.columns[i]?.any (·.notNull) = true → t.rowId ≠ some i →
    (t.given columns cells i).isNull = false
  /-- A row id that is given is a whole number. -/
  id : ∀ i, t.rowId = some i → t.given columns cells i ≠ .null →
    ∃ id, StoredTable.idOf (t.given columns cells i) = .ok id

/-- No row of some cells shares a key with a later row of other cells. -/
def Apart (cells cells' : Row) : Prop :=
  ∀ ⦃row row' : StoredRow⦄, t.Holds columns cells row → t.Holds columns cells' row' →
    (∀ is ∈ t.uniques, StoredTable.Key.shared (.columns is) row' row = false) ∧
      (¬t.SelfNumbered columns cells' → row.id ≠ row'.id)

end TableRule

namespace StoredTable

/-! ### The checks of a row -/

theorem checkNulls_ok {t : StoredTable} {values : List Stored}
    (h : ∀ i < t.rule.columns.length, t.rule.columns[i]?.any (·.notNull) = true →
      t.rule.rowId ≠ some i → ((values[i]?).getD .null).isNull = false) :
    t.checkNulls values = .ok () := by
  have hnone : ((List.range t.rule.columns.length).find? fun i =>
      t.rule.columns[i]?.any (·.notNull) && ((values[i]?).getD .null).isNull &&
        t.rule.rowId != some i) = none := by
    refine List.find?_eq_none.mpr fun i hi => ?_
    have hi := List.mem_range.mp hi
    by_cases hnotNull : t.rule.columns[i]?.any (·.notNull) = true
    · by_cases hid : t.rule.rowId = some i
      · simp [hid]
      · simp [h i hi hnotNull hid]
    · simp [Bool.eq_false_iff.mpr hnotNull]
  rw [checkNulls, hnone]

theorem checkKeys_ok {t : StoredTable} {row : StoredRow} : ∀ {keys : List Key},
    (∀ k ∈ keys, ∀ r ∈ t.rows, k.shared row r = false) → t.checkKeys none row keys = .ok ()
  | [], _ => rfl
  | k :: keys, h => by
    have hnone : t.conflict? none row k = none :=
      List.find?_eq_none.mpr fun r hr => by simp [h k List.mem_cons_self r hr]
    rw [checkKeys, hnone]
    exact checkKeys_ok fun k' hk' => h k' (List.mem_cons_of_mem k hk')

/-- A plain INSERT adds a row whose values have no reason against them. -/
theorem insert_accepts {t : StoredTable} {insertion : Insertion} {given : List Stored} {id : Int}
    (hplain : insertion.onConflict = .refuse)
    (hid : Insertion.newId t (insertion.values t.rule given) = .ok id)
    (hnull : t.checkNulls (insertion.values t.rule given) = .ok ())
    (hfresh : ∀ r ∈ t.rows, r.id ≠ id)
    (hkeys : ∀ is ∈ t.rule.uniques, ∀ r ∈ t.rows,
      Key.shared (.columns is) (t.rowOf id (insertion.values t.rule given)) r = false) :
    t.insert insertion given = .ok (t.add (t.rowOf id (insertion.values t.rule given))) := by
  have hchecked :
      t.checkKeys none (t.rowOf id (insertion.values t.rule given)) t.keys = .ok () := by
    refine checkKeys_ok fun k hk r hr => ?_
    rcases List.mem_cons.mp hk with rfl | hk
    · simpa [Key.shared, rowOf] using (hfresh r hr).symm
    · obtain ⟨is, his, rfl⟩ := List.mem_map.mp hk
      exact hkeys is his r hr
  simp [insert, hid, hnull, hplain, hchecked, bind, Except.bind, pure, Except.pure]

/-! ### Row ids -/

/-- A row whose id is greater than all others comes last. -/
theorem place_eq_append {row : StoredRow} : ∀ {rows : List StoredRow},
    (∀ r ∈ rows, r.id < row.id) → place row rows = rows ++ [row]
  | [], _ => rfl
  | r :: rows, h => by
    have hr := h r List.mem_cons_self
    rw [place, if_neg (by omega), place_eq_append fun r' hr' => h r' (List.mem_cons_of_mem r hr')]
    rfl

/-- The ids of rows that are numbered from 1. -/
def numbers (n : Nat) : List Int := (List.range n).map fun k : Nat => (k : Int) + 1

theorem numbers_succ (n : Nat) : numbers (n + 1) = numbers n ++ [(n : Int) + 1] := by
  rw [numbers, List.range_succ, List.map_append]
  rfl

theorem bounds_of_mem_numbers {n : Nat} {id : Int} (h : id ∈ numbers n) : 1 ≤ id ∧ id ≤ n := by
  obtain ⟨k, hk, rfl⟩ := List.mem_map.mp h
  have hlt := List.mem_range.mp hk
  omega

theorem nodup_numbers (n : Nat) : (numbers n).Nodup :=
  List.Pairwise.map _ (fun a b (h : a ≠ b) => by omega) List.nodup_range

/-- The next id of a table whose rows are numbered from 1. -/
theorem nextId_numbered {t : StoredTable} {n : Nat} (hids : t.rows.map (·.id) = numbers n)
    (hlast : t.lastId = n) (hroom : (n : Int) + 1 ≤ maxId) : t.nextId = .ok (n + 1) := by
  have hgetLast : t.rows.getLast?.map (·.id) = (numbers n).getLast? := by
    rw [← hids, List.getLast?_map]
  cases n with
  | zero =>
    have hrows : t.rows.getLast? = none := by simpa [numbers] using hgetLast
    simp [nextId, hrows, hlast]
    omega
  | succ n =>
    rw [numbers_succ, List.getLast?_concat] at hgetLast
    obtain ⟨r, hrows, hr⟩ := Option.map_eq_some_iff.mp hgetLast
    have hnext : r.id + 1 = ((n + 1 : Nat) : Int) + 1 := by
      rw [hr]
      rfl
    simp [nextId, hrows, hnext, hlast]
    omega

variable {t : StoredTable} {insertion : Insertion} {columns : List Column} {cells : Row}

/-- A row without a row id gets the next one. -/
theorem newId_self
    (hcolumns : columns.map (fun c => t.rule.find? c.name) = insertion.columns.map some)
    (hrowId : ∀ i, t.rule.rowId = some i → i < t.rule.columns.length)
    (hself : t.rule.SelfNumbered columns cells) :
    Insertion.newId t (insertion.values t.rule (cells.map .ofCell)) = t.nextId := by
  cases hi : t.rule.rowId with
  | none => simp only [Insertion.newId, hi]
  | some i =>
    simp only [Insertion.newId, hi, Insertion.getElem?_values hcolumns (hrowId i hi), hself i hi]

/-- A row with a row id keeps it. -/
theorem newId_given
    (hcolumns : columns.map (fun c => t.rule.find? c.name) = insertion.columns.map some)
    (hrowId : ∀ i, t.rule.rowId = some i → i < t.rule.columns.length)
    (haccepts : t.rule.Accepts columns cells) (hself : ¬t.rule.SelfNumbered columns cells) :
    ∃ id, Insertion.newId t (insertion.values t.rule (cells.map .ofCell)) = .ok id := by
  simp only [TableRule.SelfNumbered, not_forall] at hself
  obtain ⟨i, hi, hgiven⟩ := hself
  obtain ⟨id, hid⟩ := haccepts.id i hi hgiven
  refine ⟨id, ?_⟩
  simp only [Insertion.newId, hi, Insertion.getElem?_values hcolumns (hrowId i hi)]
  exact hid

end StoredTable

/-! ### Tables without foreign keys -/

namespace Tables

theorem dangling_eq_zero {ts : Tables} (h : ∀ t ∈ ts, t.rule.foreignKeys = []) :
    ts.dangling = 0 := by
  have hsame : ∀ (us : Tables), (∀ t ∈ us, t.rule.foreignKeys = []) → ∀ n,
      us.foldl (fun n t => t.rule.foreignKeys.foldl (fun n k => n + ts.danglingBy t k) n) n =
        n := by
    intro us
    induction us with
    | nil => exact fun _ _ => rfl
    | cons u us ih =>
      intro hus n
      rw [List.foldl_cons, hus u List.mem_cons_self, List.foldl_nil]
      exact ih (fun t ht => hus t (List.mem_cons_of_mem u ht)) n
  exact hsame ts h 0

/-- Without foreign keys there is nothing to refer to. -/
theorem checkReferences_accepts {before after : Tables}
    (h : ∀ t ∈ after, t.rule.foreignKeys = []) : checkReferences before after = .ok after := by
  rw [checkReferences, dangling_eq_zero h]
  simp

/-- Columns that are there are looked up. -/
theorem lookUp_accepts {t : TableRule} (table : String) : ∀ {columns : List Column},
    (∀ c ∈ columns, (t.find? c.name).isSome) →
      ∃ is, Insertion.lookUp t table columns = .ok is
  | [], _ => ⟨[], rfl⟩
  | c :: columns, h => by
    obtain ⟨i, hi⟩ := Option.isSome_iff_exists.mp (h c List.mem_cons_self)
    obtain ⟨is, his⟩ := lookUp_accepts table fun c' hc' =>
      h c' (List.mem_cons_of_mem c hc')
    exact ⟨i :: is, by rw [Insertion.lookUp, hi, his]; rfl⟩

variable {ts : Tables} {i : Insert} {t : StoredTable}

theorem mem_of_mentioned? {table : Table} (h : ts.mentioned? table = some t) : t ∈ ts := by
  unfold mentioned? at h
  split at h
  · exact List.mem_of_find?_eq_some h
  · cases h

/-- A plain INSERT into columns that are there can be prepared. -/
theorem prepare_accepts (hplain : i.orReplace = false) (hne : i.columns ≠ [])
    (hfound : ts.mentioned? i.table = some t)
    (hcolumns : ∀ c ∈ i.columns, (t.rule.find? c.name).isSome)
    (hforeign : t.rule.foreignKeys = []) :
    ∃ insertion, ts.prepare i = .ok (t, insertion) ∧ insertion.onConflict = .refuse ∧
      i.columns.map (fun c => t.rule.find? c.name) = insertion.columns.map some := by
  obtain ⟨is, his⟩ := lookUp_accepts i.table.name hcolumns
  have hinsertion : Insertion.ofStatement t.rule i = .ok ⟨is, .refuse⟩ := by
    simp [Insertion.ofStatement, his, hplain, bind, Except.bind, pure, Except.pure]
  have hprepared : ts.prepare i = .ok (t, ⟨is, .refuse⟩) := by
    simp [prepare, hne, get, hfound, hinsertion, hforeign, checkTargets, bind, Except.bind, pure,
      Except.pure]
  exact ⟨_, hprepared, Insertion.ofStatement_plain hplain hinsertion⟩

end Tables

/-! ### Tables that are loaded with rows -/

/-- A table has rows for the cells that were sent, and no others. -/
structure Loaded (rule : TableRule) (columns : List Column) (sent : List Row) (t : StoredTable) :
    Prop where
  /-- It is like this. -/
  sameRule : t.rule = rule
  /-- Its rows hold the cells. -/
  rows : ∃ added, t.rows.Perm added ∧ List.Forall₂ (rule.Holds columns) sent added
  /-- If the database gives the row ids, the rows are numbered as they were sent. -/
  numbered : (∀ cells ∈ sent, rule.SelfNumbered columns cells) →
    t.rows.map (·.id) = StoredTable.numbers sent.length ∧ t.lastId = sent.length

namespace Loaded

open StoredTable

variable {rule : TableRule} {columns : List Column} {sent : List Row} {t : StoredTable}

/-- A new table is loaded with nothing. -/
theorem new (rule : TableRule) (columns : List Column) : Loaded rule columns [] ⟨rule, [], 0⟩ :=
  ⟨rfl, ⟨[], .refl _, .nil⟩, fun _ => ⟨rfl, rfl⟩⟩

/-- A row of the table holds some cells that were sent. -/
theorem holds_of_mem (h : Loaded rule columns sent t) {row : StoredRow} (hrow : row ∈ t.rows) :
    ∃ cells ∈ sent, rule.Holds columns cells row := by
  obtain ⟨added, hperm, hholds⟩ := h.rows
  obtain ⟨i, hi, rfl⟩ := List.getElem_of_mem (hperm.mem_iff.mp hrow)
  have hi' : i < sent.length := hholds.length_eq ▸ hi
  exact ⟨sent[i], List.getElem_mem hi', (List.forall₂_iff_get.mp hholds).2 i hi' hi⟩

/-- **One row more.** A table that is loaded with some rows accepts a row that shares no key with
any of them, as long as there are row ids left. Either all rows get their ids from the database, or
the row brings its own. -/
theorem step {ts : Tables} {i : Insert} {cells : Row} (h : Loaded rule i.columns sent t)
    (hfound : ts.mentioned? i.table = some t) (hplain : i.orReplace = false) (hne : i.columns ≠ [])
    (hcolumns : ∀ c ∈ i.columns, (rule.find? c.name).isSome)
    (hforeign : ∀ u ∈ ts, u.rule.foreignKeys = [])
    (hrowId : ∀ k, rule.rowId = some k → k < rule.columns.length)
    (haccepts : rule.Accepts i.columns cells) (hapart : ∀ c ∈ sent, rule.Apart i.columns c cells)
    (hids : (∀ c ∈ sent ++ [cells], rule.SelfNumbered i.columns c) ∨
      ¬rule.SelfNumbered i.columns cells)
    (hroom : (sent.length : Int) + 1 ≤ maxId) :
    ∃ t', ts.insertRow i (cells.map .ofCell) = .ok (ts.put t') ∧
      Loaded rule i.columns (sent ++ [cells]) t' := by
  have hmember := Tables.mem_of_mentioned? hfound
  obtain ⟨rfl, ⟨added, hperm, hholds⟩, hnumbered⟩ := id h
  obtain ⟨insertion, hprepare, hrefuse, hlooked⟩ :=
    Tables.prepare_accepts hplain hne hfound hcolumns (hforeign t hmember)
  have hnull : t.checkNulls (insertion.values t.rule (cells.map .ofCell)) = .ok () :=
    checkNulls_ok fun k hk hnotNull hid => by
      rw [Insertion.getElem?_values hlooked hk]
      exact haccepts.notNull k hk hnotNull hid
  -- The row id is the next one, or one that no row has.
  obtain ⟨id, hid, hfresh, hnext⟩ : ∃ id,
      Insertion.newId t (insertion.values t.rule (cells.map .ofCell)) = .ok id ∧
        (∀ r ∈ t.rows, r.id ≠ id) ∧
        ((∀ c ∈ sent ++ [cells], t.rule.SelfNumbered i.columns c) → id = sent.length + 1) := by
    by_cases hself : t.rule.SelfNumbered i.columns cells
    · have hall : ∀ c ∈ sent, t.rule.SelfNumbered i.columns c := by
        rcases hids with hall | hgiven
        · exact fun c hc => hall c (List.mem_append_left _ hc)
        · exact absurd hself hgiven
      obtain ⟨hnumbers, hlast⟩ := hnumbered hall
      refine ⟨sent.length + 1, ?_, fun r hr => ?_, fun _ => rfl⟩
      · rw [newId_self hlooked hrowId hself, nextId_numbered hnumbers hlast hroom]
      · have hbounds := bounds_of_mem_numbers (hnumbers ▸ List.mem_map_of_mem hr)
        omega
    · obtain ⟨id, hid⟩ := newId_given hlooked hrowId haccepts hself
      refine ⟨id, hid, fun r hr => ?_, fun hall => absurd (hall cells (by simp)) hself⟩
      obtain ⟨c, hc, hr⟩ := h.holds_of_mem hr
      exact (hapart c hc hr (rowOf_holds hlooked hid)).2 hself
  have hrow := rowOf_holds hlooked hid
  have hinsert := insert_accepts hrefuse hid hnull hfresh fun is his r hr => by
    obtain ⟨c, hc, hr⟩ := h.holds_of_mem hr
    exact (hapart c hc hr hrow).1 is his
  have hgot : (t.rowOf id (insertion.values t.rule (cells.map .ofCell))).id = id := rfl
  generalize t.rowOf id (insertion.values t.rule (cells.map .ofCell)) = row at hrow hinsert hgot
  refine ⟨t.add row, ?_, rfl, ⟨added ++ [row], ?_, List.rel_append hholds (.cons hrow .nil)⟩,
    fun hall => ?_⟩
  · rw [Tables.insertRow, hprepare]
    simp only [bind, Except.bind, hinsert]
    refine Tables.checkReferences_accepts fun u hu => ?_
    obtain ⟨v, hv, rfl⟩ := List.mem_map.mp hu
    split
    · exact hforeign t hmember
    · exact hforeign v hv
  · exact (add_rows_perm t row).trans (hperm.append_right _)
  · obtain ⟨hnumbers, hlast⟩ := hnumbered fun c hc => hall c (List.mem_append_left _ hc)
    have hlastRow : row.id = sent.length + 1 := hgot.trans (hnext hall)
    have hplace : (t.add row).rows = t.rows ++ [row] := by
      refine place_eq_append fun r hr => ?_
      have hbounds := bounds_of_mem_numbers (hnumbers ▸ List.mem_map_of_mem hr)
      omega
    refine ⟨?_, ?_⟩
    · rw [hplace, List.map_append, hnumbers, List.length_append, List.length_singleton,
        numbers_succ, List.map_singleton, hlastRow]
    · have hnext : (t.add row).lastId = max t.lastId row.id := rfl
      rw [hnext, hlast, hlastRow, List.length_append, List.length_singleton]
      omega

end Loaded

end SqlRecords.Sqlite
