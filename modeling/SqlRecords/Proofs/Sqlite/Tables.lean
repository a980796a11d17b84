import Mathlib.Data.List.Forall2
import SqlRecords.Proofs.Result
import SqlRecords.Sqlite.Store

/-!
# What an inserted row does to the tables

The tables of a database are seen through `Tables.find?`, which looks a table up by
its name. A statement that puts a table in the place of the one of its name changes
what is found under this name and under no other (`find?_put`).

`TableRule.Holds` says when a row holds some cells that were sent for some columns:
every column keeps what its affinity makes of the value it was given, and the row id
stands in its column. `insertRow_ok` then describes a row that was accepted: the
table has one row more, this row holds the cells, and no other table has changed.
-/

namespace SqlRecords.Sqlite

/-! ### Names -/

theorem sameName_iff {a b : String} :
    sameName a b = true ↔ a.map Char.toLower = b.map Char.toLower := beq_iff_eq

@[simp] theorem sameName_refl (a : String) : sameName a a = true := sameName_iff.mpr rfl

theorem sameName_comm (a b : String) : sameName a b = sameName b a := by
  rw [Bool.eq_iff_iff, sameName_iff, sameName_iff]
  exact eq_comm

/-- Of two names that are the same, one is as good as the other. -/
theorem sameName_congr {a b : String} (h : sameName a b = true) (c : String) :
    sameName a c = sameName b c := by
  rw [sameName_iff] at h
  simp only [sameName, h]

/-! ### Looking a table up -/

namespace Tables

/-- The rows of the table of a name; there are none if there is no such table. -/
def rowsOf (ts : Tables) (name : String) : List StoredRow :=
  ((ts.find? name).map (·.rows)).getD []

theorem sameName_of_find? {ts : Tables} {name : String} {t : StoredTable}
    (h : ts.find? name = some t) : sameName t.rule.name name = true := by
  have := List.find?_some (p := fun t : StoredTable => sameName t.rule.name name) h
  exact this

theorem rowsOf_of_find? {ts : Tables} {name : String} {t : StoredTable}
    (h : ts.find? name = some t) : ts.rowsOf name = t.rows := by
  rw [rowsOf, h]
  rfl

/-- A name is as good as another that is the same. -/
theorem find?_congr {name other : String} (h : sameName name other = true) (ts : Tables) :
    ts.find? name = ts.find? other := by
  unfold find?
  refine congrArg (List.find? · ts) (funext fun u => ?_)
  rw [sameName_comm, sameName_congr h, sameName_comm]

/-- A table put in place of that of its name is found under its name alone. -/
theorem find?_put (ts : Tables) (t : StoredTable) (name : String) :
    (ts.put t).find? name =
      (ts.find? name).map fun u => if sameName u.rule.name t.rule.name then t else u := by
  unfold put find?
  rw [List.find?_map]
  congr 1
  refine congrArg (List.find? · ts) (funext fun u => ?_)
  simp only [Function.comp]
  split
  · next h => exact (sameName_congr h name).symm
  · rfl

theorem find?_put_self {ts : Tables} {t u : StoredTable} {name : String}
    (hu : ts.find? name = some u) (ht : sameName t.rule.name name = true) :
    (ts.put t).find? name = some t := by
  have h : sameName u.rule.name t.rule.name = true := by
    rw [sameName_congr (sameName_of_find? hu), sameName_comm]
    exact ht
  rw [find?_put, hu, Option.map_some, if_pos h]

theorem find?_put_other {ts : Tables} {t : StoredTable} {name : String}
    (ht : sameName t.rule.name name = false) : (ts.put t).find? name = ts.find? name := by
  rw [find?_put]
  cases hu : ts.find? name with
  | none => rfl
  | some u =>
    have h : sameName u.rule.name t.rule.name = false := by
      rw [sameName_congr (sameName_of_find? hu), sameName_comm]
      exact ht
    rw [Option.map_some, h]
    rfl

/-- A table behind all others is found if there was none of its name. -/
theorem find?_append (ts : Tables) (t : StoredTable) (name : String) :
    find? (ts ++ [t]) name =
      (ts.find? name).or (if sameName t.rule.name name then some t else none) := by
  unfold find?
  rw [List.find?_append, List.find?_singleton]

end Tables

/-! ### Placing a row -/

namespace StoredTable

theorem place_perm (row : StoredRow) : ∀ rows, (place row rows).Perm (row :: rows)
  | [] => .refl _
  | r :: rest => by
    unfold place
    split
    · exact .refl _
    · exact ((place_perm row rest).cons r).trans (.swap ..)

theorem add_rows_perm (t : StoredTable) (row : StoredRow) :
    (t.add row).rows.Perm (t.rows ++ [row]) :=
  (place_perm row t.rows).trans (List.perm_append_singleton row t.rows).symm

end StoredTable

/-! ### The row that an INSERT makes -/

namespace TableRule

/-- The value that cells sent for some columns give to the column at a place: that of the first cell
sent for it, NULL if none was. -/
def given (t : TableRule) (columns : List Column) (cells : Row) (i : Nat) : Stored :=
  match (columns.zip cells).find? fun p => t.find? p.1.name == some i with
  | some p => .ofCell p.2
  | none => .null

/-- A row holds the cells that were sent for some columns. -/
structure Holds (t : TableRule) (columns : List Column) (cells : Row) (row : StoredRow) : Prop where
  /-- Every column that was named is there. -/
  named : ∀ c ∈ columns, (t.find? c.name).isSome
  /-- There is a value for every column. -/
  width : row.values.length = t.columns.length
  /-- A column keeps what its affinity makes of the value it was given. -/
  value : ∀ i < t.columns.length, t.rowId ≠ some i →
    row.value i = (t.affinity i).apply (t.given columns cells i)
  /-- The row id stands in its column. -/
  rowId : ∀ i < t.columns.length, t.rowId = some i → row.value i = .integer (Int64.ofInt row.id)
  /-- A row id that was given is kept. -/
  id : ∀ i < t.columns.length, t.rowId = some i → t.given columns cells i ≠ .null →
    StoredTable.idOf (t.given columns cells i) = .ok row.id

/-- Cells and a row id make a row. -/
theorem Holds.eq_of_id {t : TableRule} {columns : List Column} {cells : Row} {row other : StoredRow}
    (h : t.Holds columns cells row) (h' : t.Holds columns cells other) (hid : row.id = other.id) :
    row = other := by
  have hvalues : row.values = other.values := by
    refine List.ext_getElem (h.width.trans h'.width.symm) fun k hk hk' => ?_
    have hlt : k < t.columns.length := h.width ▸ hk
    have hvalue : row.value k = other.value k := by
      by_cases hrowId : t.rowId = some k
      · rw [h.rowId k hlt hrowId, h'.rowId k hlt hrowId, hid]
      · rw [h.value k hlt hrowId, h'.value k hlt hrowId]
    simpa [StoredRow.value, hk, hk'] using hvalue
  cases row
  cases other
  cases hid
  cases hvalues
  rfl

end TableRule

namespace Insertion

/-- Looking columns up finds each of them in its place. -/
theorem lookUp_ok {t : TableRule} {table : String} : ∀ {columns : List Column} {is : List Nat},
    lookUp t table columns = .ok is → columns.map (fun c => t.find? c.name) = is.map some
  | [], _, h => by cases h; rfl
  | c :: rest, is, h => by
    rw [lookUp] at h
    cases hc : t.find? c.name with
    | none => rw [hc] at h; cases h
    | some i =>
      rw [hc] at h
      cases hr : lookUp t table rest with
      | error e => rw [hr] at h; cases h
      | ok js =>
        rw [hr] at h
        cases h
        rw [List.map_cons, List.map_cons, hc, lookUp_ok hr]

/-- The value looked up by place is the one that was given. -/
theorem lookup_zip {t : TableRule} (i : Nat) :
    ∀ {columns : List Column} {is : List Nat} {cells : Row},
      columns.map (fun c => t.find? c.name) = is.map some →
        ((is.zip (cells.map Stored.ofCell)).lookup i).getD .null = t.given columns cells i
  | [], [], cells, _ => by simp [TableRule.given]
  | c :: rest, j :: js, [], _ => by simp [TableRule.given]
  | c :: rest, j :: js, cell :: cells, h => by
    rw [List.map_cons, List.map_cons, List.cons.injEq] at h
    have ih := @lookup_zip t i rest js cells h.2
    unfold TableRule.given at ih ⊢
    simp only [List.map_cons, List.zip_cons_cons, List.lookup_cons, List.find?_cons, h.1]
    by_cases hij : i = j
    · subst hij
      simp
    · have h₁ : (i == j) = false := by simpa using hij
      have h₂ : (some j == some i) = false := by simpa using fun e => hij e.symm
      rw [h₁, h₂]
      exact ih
  | [], _ :: _, _, h => by cases h
  | _ :: _, [], _, h => by cases h

/-- An INSERT that overwrites nothing refuses rows that share a key. -/
theorem ofStatement_plain {t : TableRule} {i : Insert} {insertion : Insertion}
    (hi : i.orReplace = false) (h : ofStatement t i = .ok insertion) :
    insertion.onConflict = .refuse ∧
      i.columns.map (fun c => t.find? c.name) = insertion.columns.map some := by
  unfold ofStatement at h
  simp only [hi, Except.bind_eq_ok_iff] at h
  obtain ⟨is, hl, h⟩ := h
  cases h
  exact ⟨rfl, lookUp_ok hl⟩

/-- The values of a new row are those that were given. -/
theorem getElem?_values {t : TableRule} {insertion : Insertion} {columns : List Column}
    {cells : Row} (h : columns.map (fun c => t.find? c.name) = insertion.columns.map some) {i : Nat}
    (hi : i < t.columns.length) :
    ((insertion.values t (cells.map .ofCell))[i]?).getD .null = t.given columns cells i := by
  simp only [values, List.getElem?_map, List.getElem?_range hi, Option.map_some, Option.getD_some]
  exact lookup_zip i h

end Insertion

namespace StoredTable

theorem value_rowOf (t : StoredTable) (id : Int) (values : List Stored) {i : Nat}
    (hi : i < t.rule.columns.length) :
    (t.rowOf id values).value i =
      if t.rule.rowId == some i then .integer (Int64.ofInt id)
      else (t.rule.affinity i).apply ((values[i]?).getD .null) := by
  simp only [StoredRow.value, rowOf, List.getElem?_map, List.getElem?_range hi, Option.map_some,
    Option.getD_some]

/-- A row made of the cells that were sent holds them. -/
theorem rowOf_holds {t : StoredTable} {insertion : Insertion} {columns : List Column} {cells : Row}
    {id : Int} (h : columns.map (fun c => t.rule.find? c.name) = insertion.columns.map some)
    (hid : Insertion.newId t (insertion.values t.rule (cells.map .ofCell)) = .ok id) :
    t.rule.Holds columns cells (t.rowOf id (insertion.values t.rule (cells.map .ofCell))) where
  named c hc := by
    have hm : t.rule.find? c.name ∈ insertion.columns.map some := h ▸ List.mem_map_of_mem hc
    obtain ⟨i, -, hi⟩ := List.mem_map.mp hm
    rw [← hi]
    rfl
  width := by simp [rowOf]
  value i hi hr := by
    rw [value_rowOf _ _ _ hi, Insertion.getElem?_values h hi]
    simp [hr]
  rowId i hi hr := by
    rw [value_rowOf _ _ _ hi]
    simp [hr, rowOf]
  id i hi hr hn := by
    rw [Insertion.newId, hr] at hid
    simp only [Insertion.getElem?_values h hi] at hid
    exact hid

/-- A plain INSERT that is accepted adds a row. -/
theorem insert_plain {t t' : StoredTable} {insertion : Insertion} {given : List Stored}
    (hc : insertion.onConflict = .refuse) (h : t.insert insertion given = .ok t') :
    ∃ id, Insertion.newId t (insertion.values t.rule given) = .ok id ∧
      t' = t.add (t.rowOf id (insertion.values t.rule given)) := by
  unfold insert at h
  simp only [hc, Except.bind_eq_ok_iff, Except.pure_eq_ok_iff] at h
  obtain ⟨id, hid, -, -, -, -, rfl⟩ := h
  exact ⟨id, hid, rfl⟩

end StoredTable

namespace Tables

/-! ### A table that is made -/

/-- Tables are what they were, or there is a new one behind them, without rows. -/
def MadeBy (s : CreateTable) (before after : Tables) : Prop :=
  after = before ∨ before.find? s.table.name = none ∧
    ∃ rule, TableRule.ofStatement s = .ok rule ∧ after = before ++ [⟨rule, [], 0⟩]

theorem name_ofStatement {s : CreateTable} {rule : TableRule}
    (h : TableRule.ofStatement s = .ok rule) : rule.name = s.table.name := by
  unfold TableRule.ofStatement at h
  simp only at h
  split at h
  · cases h
  · split at h
    · cases h
    · cases h
      rfl

/-- CREATE TABLE leaves a table of the name behind, which has no rows if it is new. -/
theorem createTable_ok {ts ts' : Tables} {name : String} {columns : List Column} {ifNotExists : Bool}
    (h : ts.createTable ⟨.named name, columns, ifNotExists⟩ = .ok ts') :
    MadeBy ⟨.named name, columns, ifNotExists⟩ ts ts' ∧ (ts'.find? name).isSome ∧
      ts'.rowsOf name = ts.rowsOf name := by
  unfold createTable at h
  simp only [show (Table.named name).schema = none from rfl, Except.throw_bind,
    Except.check_eq_ok_iff] at h
  obtain ⟨-, -, -, h⟩ := h
  split at h
  · next hp =>
    cases h
    exact ⟨.inl rfl, hp, rfl⟩
  · next hp =>
    obtain ⟨rule, hr, h⟩ := Except.bind_eq_ok_iff.mp h
    cases h
    have hn : ts.find? name = none := Option.not_isSome_iff_eq_none.mp hp
    have hf : find? (ts ++ [⟨rule, [], 0⟩]) name = some ⟨rule, [], 0⟩ := by
      rw [find?_append, hn, name_ofStatement hr]
      exact if_pos (sameName_refl name)
    refine ⟨.inr ⟨hn, rule, hr, rfl⟩, by rw [hf]; rfl, ?_⟩
    rw [rowsOf_of_find? hf, rowsOf, hn]
    rfl

/-- A new table has its own name alone. -/
theorem MadeBy.find?_other {s : CreateTable} {before after : Tables} (h : MadeBy s before after)
    {other : String} (ho : sameName s.table.name other = false) :
    after.find? other = before.find? other := by
  obtain rfl | ⟨-, rule, hr, rfl⟩ := h
  · rfl
  · rw [find?_append, name_ofStatement hr, ho]
    exact Option.or_none

/-! ### The row that is added to the tables -/

theorem checkReferences_ok {before after ts : Tables} (h : checkReferences before after = .ok ts) :
    ts = after := by
  unfold checkReferences at h
  split at h
  · cases h
  · cases h
    rfl

theorem get_ok {ts : Tables} {t : Table} {u : StoredTable} (h : ts.get t = .ok u) :
    ts.mentioned? t = some u := by
  unfold get at h
  split at h
  · next hu => cases h; exact hu
  · cases h

theorem mentioned?_named (ts : Tables) (name : String) :
    ts.mentioned? (.named name) = ts.find? name := rfl

/-- What it takes to prepare an INSERT. -/
theorem prepare_ok {ts : Tables} {i : Insert} {t : StoredTable} {insertion : Insertion}
    (h : ts.prepare i = .ok (t, insertion)) :
    ts.mentioned? i.table = some t ∧ Insertion.ofStatement t.rule i = .ok insertion := by
  unfold prepare at h
  simp only [Except.throw_bind, Except.check_eq_ok_iff, Except.bind_eq_ok_iff,
    Except.pure_eq_ok_iff] at h
  obtain ⟨-, u, hu, o, ho, -, -, h⟩ := h
  cases h
  exact ⟨get_ok hu, ho⟩

/-- An INSERT of one row that is accepted puts a table with the row in place of the old one. -/
theorem insertRow_put {ts ts' : Tables} {i : Insert} {given : List Stored}
    (h : ts.insertRow i given = .ok ts') :
    ∃ t insertion t', ts.mentioned? i.table = some t ∧
      Insertion.ofStatement t.rule i = .ok insertion ∧ t.insert insertion given = .ok t' ∧
      ts' = ts.put t' := by
  simp only [insertRow, Except.bind_eq_ok_iff] at h
  obtain ⟨⟨t, insertion⟩, hprepared, t', hinsert, hchecked⟩ := h
  obtain ⟨hfound, hlooked⟩ := prepare_ok hprepared
  exact ⟨t, insertion, t', hfound, hlooked, hinsert, checkReferences_ok hchecked⟩

/-- **A row that a plain INSERT adds**: the table has one row more, and that row holds the cells
that were sent. -/
theorem insertRow_ok {ts ts' : Tables} {i : Insert} {cells : Row} (hi : i.orReplace = false)
    (h : ts.insertRow i (cells.map .ofCell) = .ok ts') :
    ∃ t row, ts.mentioned? i.table = some t ∧ ts' = ts.put (t.add row) ∧
      t.rule.Holds i.columns cells row := by
  obtain ⟨t, insertion, t', ht, ho, ht', rfl⟩ := insertRow_put h
  obtain ⟨hc, hl⟩ := Insertion.ofStatement_plain hi ho
  obtain ⟨id, hid, rfl⟩ := StoredTable.insert_plain hc ht'
  exact ⟨t, _, ht, rfl, StoredTable.rowOf_holds hl hid⟩

/-- From some tables to others, the table of a name got one row for each of some rows of cells, and
nothing else has changed. -/
structure Gained (name : String) (columns : List Column) (rows : List Row) (before after : Tables) :
    Prop where
  /-- The table has its old rows and those that hold the cells. -/
  table : ∃ t t' added, before.find? name = some t ∧ after.find? name = some t' ∧
    t'.rule = t.rule ∧ t'.rows.Perm (t.rows ++ added) ∧
      List.Forall₂ (t.rule.Holds columns) rows added
  /-- The other tables are what they were. -/
  others : ∀ other, sameName name other = false → after.find? other = before.find? other

namespace Gained

variable {name : String} {columns : List Column} {rows rows' : List Row} {a b c : Tables}

theorem nil {t : StoredTable} (h : a.find? name = some t) : Gained name columns [] a a :=
  ⟨⟨t, t, [], h, h, rfl, by simp, .nil⟩, fun _ _ => rfl⟩

theorem append (h : Gained name columns rows a b) (h' : Gained name columns rows' b c) :
    Gained name columns (rows ++ rows') a c := by
  obtain ⟨t, u, added, ht, hu, hr, hp, hf⟩ := h.table
  obtain ⟨u', v, added', hu', hv, hr', hp', hf'⟩ := h'.table
  rw [hu, Option.some.injEq] at hu'
  subst hu'
  refine ⟨⟨t, v, added ++ added', ht, hv, hr'.trans hr, ?_, ?_⟩, fun other ho => ?_⟩
  · rw [← List.append_assoc]
    exact hp'.trans (hp.append_right added')
  · exact List.rel_append hf (hr ▸ hf')
  · rw [h'.others other ho, h.others other ho]

/-- A row that a plain INSERT adds is a row gained. -/
theorem ofInsertRow {i : Insert} {cells : Row} {ts ts' : Tables} (hi : i.orReplace = false)
    (ht : i.table = .named name) (h : ts.insertRow i (cells.map .ofCell) = .ok ts') :
    Gained name i.columns [cells] ts ts' := by
  obtain ⟨t, row, hm, rfl, hrow⟩ := insertRow_ok hi h
  rw [ht, mentioned?_named] at hm
  have hn := sameName_of_find? hm
  refine ⟨⟨t, t.add row, [row], hm, find?_put_self hm hn, rfl, t.add_rows_perm row, ?_⟩, ?_⟩
  · exact .cons hrow .nil
  · intro other ho
    exact find?_put_other ((sameName_congr hn other).trans ho)

end Gained

end Tables

end SqlRecords.Sqlite
