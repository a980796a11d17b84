import Mathlib.Data.List.FinRange
import Mathlib.Order.WellFounded
import SqlRecords.Proofs.Sqlite.Records

/-!
# Which row a record overwrites

An INSERT that overwrites names the columns that decide which row it overwrites: those of the
primary key, or the first unique column if there is no primary key (`Schema.IsTarget`). The database
knows them as one of the keys of the table (`IsTargetKey`). Rows that share this key are overwritten
in all other columns; rows that share another key only are none of its business.

## What is proved

* `Schema.constraints_eq`: the columns that an INSERT names.
* `IsTableOf.keyOf?_target`: the database finds them among the keys of the table.
* **`IsTableOf.overwriting`**: what an INSERT does with a row that shares the key.
-/

namespace SqlRecords

open Sqlite

namespace Schema

variable {s : Schema} {i : Fin s.fields.length}

/-! ### The columns that decide -/

/-- The column at a place is one of those that decide which row a record overwrites. -/
def IsTarget (s : Schema) (i : Fin s.fields.length) : Prop :=
  s.IsKey i ∨ (∀ j, ¬s.IsKey j) ∧ s.IsUnique i ∧ ∀ j < i, ¬s.IsUnique j

instance (s : Schema) (i : Fin s.fields.length) : Decidable (s.IsTarget i) :=
  inferInstanceAs (Decidable (_ ∨ _))

/-- Where there is a primary key, it decides. -/
theorem isTarget_iff_isKey (h : ∃ j, s.IsKey j) : s.IsTarget i ↔ s.IsKey i := by
  refine ⟨?_, .inl⟩
  rintro (hkey | ⟨hnone, -⟩)
  · exact hkey
  · obtain ⟨j, hj⟩ := h
    exact absurd hj (hnone j)

/-- A column decides if any is unique or part of the primary key. -/
theorem exists_isTarget (h : s.IsKey i ∨ s.IsUnique i) : ∃ j, s.IsTarget j := by
  by_cases hkey : ∃ j, s.IsKey j
  · obtain ⟨j, hj⟩ := hkey
    exact ⟨j, .inl hj⟩
  · have hunique : ∃ j, s.IsUnique j :=
      h.elim (fun hi => absurd ⟨i, hi⟩ hkey) fun hi => ⟨i, hi⟩
    obtain ⟨j, hj, hfirst⟩ := wellFounded_lt.has_min {j | s.IsUnique j} hunique
    exact ⟨j, .inr ⟨not_exists.mp hkey, hj, fun k hk hunique => hfirst k hunique hk⟩⟩

/-- The places of the columns that decide, in order. -/
def targetPlaces (s : Schema) : List (Fin s.fields.length) :=
  (List.finRange s.fields.length).filter fun i => s.IsTarget i

/-- The places of the other columns that records bring values for, in order. -/
def overwrittenPlaces (s : Schema) : List (Fin s.fields.length) :=
  (List.finRange s.fields.length).filter fun i => ¬s.IsTarget i ∧ ¬s.IsNumbered i

theorem mem_targetPlaces : i ∈ s.targetPlaces ↔ s.IsTarget i := by
  simp [targetPlaces]

theorem mem_overwrittenPlaces : i ∈ s.overwrittenPlaces ↔ ¬s.IsTarget i ∧ ¬s.IsNumbered i := by
  simp [overwrittenPlaces]

theorem nodup_targetPlaces : s.targetPlaces.Nodup := (List.nodup_finRange _).filter _

/-- There may be only one column that decides. -/
theorem targetPlaces_eq_singleton (hi : s.IsTarget i) (h : ∀ j, s.IsTarget j → j = i) :
    s.targetPlaces = [i] := by
  refine List.perm_singleton.mp
    ((List.perm_ext_iff_of_nodup nodup_targetPlaces (List.nodup_singleton i)).mpr fun j => ?_)
  rw [mem_targetPlaces, List.mem_singleton]
  exact ⟨h j, fun hj => hj ▸ hi⟩

/-- Without a primary key, the first unique column is the only one that decides. -/
theorem targetPlaces_of_unique (hnone : ∀ i, ¬s.IsKey i) :
    s.targetPlaces =
      ((List.finRange s.fields.length).filter fun i => s.IsUnique i).head?.toList := by
  have hsorted := (List.pairwise_lt_finRange s.fields.length).filter fun i => s.IsUnique i
  have hmem : ∀ i, i ∈ ((List.finRange s.fields.length).filter fun i => s.IsUnique i) ↔
      s.IsUnique i := by simp
  generalize (List.finRange s.fields.length).filter (fun i => s.IsUnique i) = uniques
    at hsorted hmem
  cases uniques with
  | nil =>
    refine List.eq_nil_iff_forall_not_mem.mpr fun i hi => ?_
    rcases mem_targetPlaces.mp hi with hi | ⟨-, hi, -⟩
    · exact hnone i hi
    · cases (hmem i).mpr hi
  | cons i rest =>
    have hi : s.IsUnique i := (hmem i).mp List.mem_cons_self
    have hleast : ∀ j, s.IsUnique j → i ≤ j := by
      intro j hj
      rcases List.mem_cons.mp ((hmem j).mpr hj) with rfl | hj
      · exact Fin.le_refl _
      · exact Fin.le_of_lt ((List.pairwise_cons.mp hsorted).1 j hj)
    refine targetPlaces_eq_singleton (.inr ⟨hnone, hi, fun j hj hunique => ?_⟩) fun j hj => ?_
    · exact absurd (hleast j hunique) (Fin.not_le.mpr hj)
    · rcases hj with hj | ⟨-, hj, hlater⟩
      · exact absurd hj (hnone j)
      · exact Fin.le_antisymm (Fin.not_lt.mp fun hlt => hlater i hlt hi) (hleast j hj)

/-! ### The columns of the statement -/

theorem columns_eq_map :
    s.columns = (List.finRange s.fields.length).map fun i => (s.fields.get i).column := by
  conv_lhs => rw [columns, ← List.map_get_finRange s.fields, List.map_map]
  rfl

/-- The columns that get their values from records and have a property stand at the places with
it. -/
theorem filter_insertable (p : Column → Bool) (has : Fin s.fields.length → Prop) [DecidablePred has]
    (h : ∀ i, has i ↔ p (s.fields.get i).column = true ∧ ¬s.IsNumbered i) :
    s.insertable.filter p = ((List.finRange s.fields.length).filter fun i => has i).map
      fun i => (s.fields.get i).column := by
  have hsent : ∀ i : Fin s.fields.length,
      (!(s.fields.get i).column.type.properties.autoIncrement) = decide (¬s.IsNumbered i) :=
    fun i => by simp [IsNumbered, properties, NamedField.column, Column.define]
  rw [insertable, List.filter_filter, columns_eq_map, List.filter_map]
  refine congrArg _ (List.filter_congr fun i _ => ?_)
  rw [Bool.eq_iff_iff, decide_eq_true_iff, h, Function.comp_apply, hsent, Bool.and_eq_true,
    decide_eq_true_iff]

/-- The columns that decide are those that the statement names. -/
theorem constraints_eq (s : Schema) :
    (s.insert true).constraints = s.targetPlaces.map fun i => (s.fields.get i).column := by
  have hkeys := filter_insertable (·.type.properties.primary) s.IsKey fun _ => .rfl
  have huniques := filter_insertable (·.type.properties.unique) s.IsUnique fun _ => .rfl
  change conflictTarget s.insertable = _
  by_cases hkey : ∃ i, s.IsKey i
  · have htarget : s.targetPlaces = (List.finRange s.fields.length).filter fun i => s.IsKey i :=
      List.filter_congr fun i _ => decide_eq_decide.mpr (isTarget_iff_isKey hkey)
    obtain ⟨i, hi⟩ := hkey
    obtain ⟨j, rest, hcons⟩ :=
      List.exists_cons_of_ne_nil (List.ne_nil_of_mem (mem_targetPlaces.mpr (.inl hi)))
    rw [conflictTarget, hkeys, ← htarget, hcons]
    rfl
  · have hnil : ((List.finRange s.fields.length).filter fun i => s.IsKey i) = [] := by
      simp [not_exists.mp hkey]
    simp only [conflictTarget, hkeys, hnil, List.map_nil]
    rw [← List.head?_filter, huniques, List.head?_map, targetPlaces_of_unique (not_exists.mp hkey)]
    cases List.head? _ <;> rfl

end Schema

namespace Sqlite

namespace StoredTable.Key

/-- The places of the columns of a key. -/
def places (rule : TableRule) : Key → List Nat
  | .rowId => rule.rowId.toList
  | .columns is => is

end StoredTable.Key

namespace TableRule

open StoredTable

variable {s : Schema} {rule : TableRule}

/-- A key of the table is made of the columns that decide which row a record overwrites. -/
structure IsTargetKey (s : Schema) (rule : TableRule) (k : Key) : Prop where
  /-- It is a key of the table. -/
  mem : k ∈ Key.rowId :: rule.uniques.map .columns
  /-- These are its columns. -/
  mem_places : ∀ n, n ∈ k.places rule ↔ ∃ i : Fin s.fields.length, i.val = n ∧ s.IsTarget i

/-- What an INSERT that overwrites does with a row that shares a key with one that is there. -/
inductive Overwriting (s : Schema) (rule : TableRule) : OnConflict → Prop where
  /-- Nothing decides, so the rows that are there go. -/
  | replace (hnone : ∀ i, ¬s.IsTarget i) : Overwriting s rule .replace
  /-- All columns decide, so there is nothing left to overwrite. -/
  | skip {key : Key} (hkey : IsTargetKey s rule key) (hall : ∀ i, s.IsTarget i ∨ s.IsNumbered i) :
    Overwriting s rule (.skip key)
  /-- The row takes all other values that the record brings. -/
  | overwrite {key : Key} {columns : List Nat} (hkey : IsTargetKey s rule key)
    (hcolumns : ∀ i : Fin s.fields.length, i.val ∈ columns ↔ ¬s.IsTarget i ∧ ¬s.IsNumbered i) :
    Overwriting s rule (.overwrite key columns)

/-- Lists of the same members, none of them twice. -/
theorem sameMembers_of_perm {a b : List Nat} (h : a.Perm b) :
    Insertion.sameMembers a b = true := by
  simp only [Insertion.sameMembers, Bool.and_eq_true, beq_iff_eq, List.all_eq_true,
    List.contains_iff_mem]
  exact ⟨⟨h.length_eq, fun k hk => h.mem_iff.mp hk⟩, fun k hk => h.mem_iff.mpr hk⟩

theorem mem_iff_of_sameMembers {a b : List Nat} (h : Insertion.sameMembers a b = true) {k : Nat} :
    k ∈ b ↔ k ∈ a := by
  simp only [Insertion.sameMembers, Bool.and_eq_true, List.all_eq_true,
    List.contains_iff_mem] at h
  exact ⟨h.2 k, h.1.2 k⟩

namespace IsTableOf

theorem mem_map_targetPlaces {n : Nat} : n ∈ s.targetPlaces.map (·.val) ↔
    ∃ i : Fin s.fields.length, i.val = n ∧ s.IsTarget i := by
  rw [List.mem_map]
  exact exists_congr fun i => by rw [Schema.mem_targetPlaces, and_comm]

/-- Unless the row id is the only column that decides, the columns that decide are among those that
rows differ in. -/
theorem exists_uniques (h : IsTableOf s rule) (htarget : ∃ i, s.IsTarget i)
    (hrowId : rule.rowId.toList ≠ s.targetPlaces.map (·.val)) :
    ∃ is ∈ rule.uniques, (s.targetPlaces.map (·.val)).Perm is := by
  have hnodup : (s.targetPlaces.map (·.val)).Nodup :=
    Schema.nodup_targetPlaces.map Fin.val_injective
  by_cases hkey : ∃ i, s.IsKey i
  · have hnone : rule.rowId = none := by
      refine Option.eq_none_iff_forall_ne_some.mpr fun k hk => ?_
      obtain ⟨i, rfl, hnumbered | ⟨hi, honly, -⟩⟩ := h.rowId k hk
      · obtain ⟨j, hj⟩ := hkey
        exact h.not_isKey_of_numbered hnumbered hj
      · have hsingle := Schema.targetPlaces_eq_singleton (.inl hi) fun j hj =>
          honly j ((Schema.isTarget_iff_isKey hkey).mp hj)
        exact hrowId (by rw [hk, hsingle]; rfl)
    refine ⟨_, h.mem_uniques_iff.mpr (.inr ⟨rfl, hkey, hnone⟩),
      (List.perm_ext_iff_of_nodup hnodup (nodup_places _ _)).mpr fun k => ?_⟩
    rw [mem_map_targetPlaces]
    refine Iff.trans ?_ mem_keyPlaces.symm
    exact exists_congr fun i => and_congr_right fun _ => Schema.isTarget_iff_isKey hkey
  · obtain ⟨i, hi⟩ := htarget
    have hunique : ∀ {j}, s.IsTarget j → s.IsUnique j ∧ ∀ k < j, ¬s.IsUnique k := fun hj =>
      hj.elim (fun hj => absurd ⟨_, hj⟩ hkey) (·.2)
    have hsingle := Schema.targetPlaces_eq_singleton hi fun j hj => by
      refine Fin.le_antisymm (Fin.not_lt.mp fun hlt => ?_) (Fin.not_lt.mp fun hlt => ?_)
      · exact (hunique hj).2 i hlt (hunique hi).1
      · exact (hunique hi).2 j hlt (hunique hj).1
    exact ⟨[i.val], h.mem_uniques_iff.mpr (.inl ⟨i, (hunique hi).1, rfl⟩), by rw [hsingle]; rfl⟩

/-- **The database finds the columns that decide** among the keys of the table. -/
theorem keyOf?_target (h : IsTableOf s rule) (htarget : ∃ i, s.IsTarget i) :
    ∃ key, Insertion.keyOf? rule (s.targetPlaces.map (·.val)) = some key ∧
      IsTargetKey s rule key := by
  unfold Insertion.keyOf?
  by_cases hrowId : rule.rowId.toList = s.targetPlaces.map (·.val)
  · refine ⟨.rowId, if_pos (beq_iff_eq.mpr hrowId), List.mem_cons_self, fun n => ?_⟩
    rw [Key.places, hrowId, mem_map_targetPlaces]
  · obtain ⟨is, his, hperm⟩ := h.exists_uniques htarget hrowId
    obtain ⟨found, hfound⟩ := Option.isSome_iff_exists.mp
      (List.find?_isSome.mpr ⟨is, his, sameMembers_of_perm hperm⟩)
    refine ⟨.columns found, ?_, ?_, fun n => ?_⟩
    · rw [if_neg (by simpa using hrowId), hfound]
      rfl
    · exact List.mem_cons_of_mem _ (List.mem_map_of_mem (List.mem_of_find?_eq_some hfound))
    · rw [← mem_map_targetPlaces]
      exact mem_iff_of_sameMembers (List.find?_some hfound)

/-- The columns that are overwritten are all others that the statement sends. -/
theorem overwritten_eq (h : IsTableOf s rule) : Dialect.overwritten (s.insert true) =
    s.overwrittenPlaces.map fun i => (s.fields.get i).column := by
  have hnamed : ∀ i : Fin s.fields.length,
      (s.insert true).constraints.any (·.name == (s.fields.get i).column.name) = true ↔
        s.IsTarget i := by
    intro i
    rw [s.constraints_eq, List.any_map, List.any_eq_true]
    constructor
    · rintro ⟨j, hj, hname⟩
      have hplace := h.find?_name j
      rw [show (s.fields.get j).name = (s.fields.get i).name from beq_iff_eq.mp hname,
        h.find?_name i, Option.some.injEq] at hplace
      exact Fin.ext hplace ▸ Schema.mem_targetPlaces.mp hj
    · intro hi
      exact ⟨i, Schema.mem_targetPlaces.mpr hi, beq_self_eq_true _⟩
  refine Schema.filter_insertable _ _ fun i => and_congr_left fun _ => ?_
  rw [Bool.not_eq_true', ← Bool.not_eq_true, hnamed]

/-- **What an INSERT that overwrites does** with a row that shares a key with one that is there. -/
theorem overwriting (h : IsTableOf s rule) :
    ∃ insertion, Insertion.ofStatement rule (s.insert true) = .ok insertion ∧
      s.insertable.map (fun c => rule.find? c.name) = insertion.columns.map some ∧
      Overwriting s rule insertion.onConflict := by
  obtain ⟨columns, hcolumns⟩ := Tables.lookUp_accepts s.table h.find?_insertable
  have hsent : Insertion.lookUp rule (s.insert true).table.name (s.insert true).columns =
      .ok columns := hcolumns
  have hor : (s.insert true).orReplace = true := rfl
  have hlooked := Insertion.lookUp_ok hcolumns
  unfold Insertion.ofStatement
  simp only [hsent, hor, s.constraints_eq, h.mapM_places, List.isEmpty_map, Option.bind_some]
  by_cases htarget : ∃ i, s.IsTarget i
  · obtain ⟨key, hkey, hplaces⟩ := h.keyOf?_target htarget
    have hne : s.targetPlaces.isEmpty = false := by
      obtain ⟨i, hi⟩ := htarget
      exact List.isEmpty_eq_false_iff.mpr (List.ne_nil_of_mem (Schema.mem_targetPlaces.mpr hi))
    have hover : Insertion.lookUp rule (s.insert true).table.name
        (Dialect.overwritten (s.insert true)) = .ok (s.overwrittenPlaces.map (·.val)) := by
      rw [h.overwritten_eq, h.lookUp_places]
    simp only [hne, hkey, hover]
    cases hothers : s.overwrittenPlaces with
    | nil =>
      refine ⟨⟨columns, .skip key⟩, rfl, hlooked, .skip hplaces fun i => ?_⟩
      by_contra hi
      rw [not_or, ← Schema.mem_overwrittenPlaces, hothers] at hi
      cases hi
    | cons i rest =>
      refine ⟨⟨columns, .overwrite key ((i :: rest).map (·.val))⟩, rfl, hlooked,
        .overwrite hplaces fun j => ?_⟩
      rw [← hothers, List.mem_map_of_injective Fin.val_injective, Schema.mem_overwrittenPlaces]
  · have hnone := not_exists.mp htarget
    have hnil : s.targetPlaces.isEmpty = true := List.isEmpty_iff.mpr
      (List.eq_nil_iff_forall_not_mem.mpr fun i hi => hnone i (Schema.mem_targetPlaces.mp hi))
    simp only [hnil]
    exact ⟨⟨columns, .replace⟩, rfl, hlooked, .replace hnone⟩

end IsTableOf

end TableRule

end Sqlite

end SqlRecords
