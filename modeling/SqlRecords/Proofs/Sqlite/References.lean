import Mathlib.Algebra.Order.BigOperators.Group.List
import Mathlib.Algebra.Order.Ring.Nat
import SqlRecords.Proofs.Sqlite.ConflictTarget
import SqlRecords.Sqlite.Store

/-!
# References to a table

Other tables may refer to that of some records by their foreign keys. A statement may not leave
more references to nothing behind than there were, so a table that is changed has to keep the
values that others refer to. An INSERT that overwrites keeps those of the columns that decide which
row it overwrites, and of those that the database numbers (`Schema.KeepsReferences`).

## What is proved

* `Tables.dangling_put_le`: a table may be changed if it keeps the values that others refer to.
* **`Schema.KeepsReferences.checkReferences`**: references are no obstacle if they are to columns
  that no record overwrites.
-/

namespace SqlRecords

open Sqlite TableRule

namespace Sqlite.Tables

variable {ts : Tables} {t : StoredTable}

/-- References to nothing are counted table by table, key by key. -/
theorem dangling_eq_sum (ts : Tables) : ts.dangling =
    (ts.map fun t => (t.rule.foreignKeys.map (ts.danglingBy t)).sum).sum := by
  have hfold : ∀ {α : Type} (f : α → Nat) (l : List α) (n : Nat),
      l.foldl (fun n a => n + f a) n = n + (l.map f).sum := by
    intro α f l
    induction l with
    | nil => exact fun _ => rfl
    | cons a l ih =>
      intro n
      rw [List.foldl_cons, ih, List.map_cons, List.sum_cons, Nat.add_assoc]
  rw [dangling]
  simp only [hfold]
  exact Nat.zero_add _

/-- A table without foreign keys may be put in place of what it was if it still has the values that
others refer to. -/
theorem dangling_put_le {name : String} {t' : StoredTable} (hfound : ts.find? name = some t)
    (hrule : t'.rule = t.rule) (hnone : t.rule.foreignKeys = [])
    (hkept : ∀ u ∈ ts, ∀ k ∈ u.rule.foreignKeys, sameName k.target.table name = true →
      ∀ i, t.rule.find? k.target.column = some i → ∀ r ∈ t.rows, ∃ r' ∈ t'.rows,
        r'.value i = r.value i) :
    (ts.put t').dangling ≤ ts.dangling := by
  have hname : sameName t'.rule.name name = true := hrule ▸ sameName_of_find? hfound
  rw [dangling_eq_sum, dangling_eq_sum, put, List.map_map]
  refine List.sum_le_sum fun u hu => ?_
  simp only [Function.comp]
  split
  · rw [hrule, hnone]
    exact Nat.zero_le _
  refine List.sum_le_sum fun k hk => ?_
  change (ts.put t').danglingBy u k ≤ ts.danglingBy u k
  cases htarget : sameName k.target.table name with
  | false =>
    have hother : sameName t'.rule.name k.target.table = false := by
      rw [sameName_congr hname, sameName_comm]
      exact htarget
    rw [danglingBy, danglingBy, referred, referred, find?_put_other hother]
  | true =>
    have hsame := find?_congr htarget
    rw [danglingBy, danglingBy, referred, referred, hsame, hsame, hfound,
      find?_put_self hfound hname]
    simp only [Option.bind_eq_bind, Option.bind_some, hrule]
    cases hcolumn : t.rule.find? k.target.column with
    | none => exact Nat.le_refl _
    | some i =>
      refine List.countP_mono_left fun row _ hdangling => ?_
      simp only [Option.bind_some, Option.pure_def, Option.getD_some, Bool.and_eq_true,
        Bool.not_eq_true', List.any_eq_false, List.forall_mem_map] at hdangling ⊢
      refine ⟨hdangling.1, fun r hr => ?_⟩
      obtain ⟨r', hr', hvalue⟩ := hkept u hu k hk htarget i hcolumn r hr
      rw [← hvalue]
      exact hdangling.2 r' hr'

end Sqlite.Tables

namespace Schema

/-- Tables refer to that of the records only by columns that no record overwrites. -/
def KeepsReferences (s : Schema) (ts : Tables) : Prop :=
  ∀ u ∈ ts, ∀ k ∈ u.rule.foreignKeys, sameName k.target.table s.table = true →
    ∀ i : Fin s.fields.length, sameName (s.fields.get i).name k.target.column = true →
      s.IsTarget i ∨ s.IsNumbered i

variable {s : Schema} {ts : Tables} {t t' : StoredTable}

/-- **References are no obstacle** to a change of the table that keeps the columns that no record
overwrites. -/
theorem KeepsReferences.checkReferences (hrefers : s.KeepsReferences ts)
    (hfound : ts.find? s.table = some t) (h : IsTableOf s t.rule) (hrule : t'.rule = t.rule)
    (hkept : ∀ i, s.IsTarget i ∨ s.IsNumbered i → ∀ r ∈ t.rows, ∃ r' ∈ t'.rows,
      r'.value i = r.value i) : ts.checkReferences (ts.put t') = .ok (ts.put t') := by
  refine if_neg (Nat.not_lt.mpr
    (Tables.dangling_put_le hfound hrule h.foreignKeys fun u hu k hk htarget n hn => ?_))
  obtain ⟨hlt, hname, -⟩ := List.findIdx?_eq_some_iff_getElem.mp hn
  let i : Fin s.fields.length := ⟨n, h.length_columns ▸ hlt⟩
  have hcolumn : sameName (s.fields.get i).name k.target.column = true := by
    have hplace := h.getElem?_columns i
    rw [List.getElem?_eq_getElem hlt, Option.some.injEq] at hplace
    rwa [hplace] at hname
  exact hkept i (hrefers u hu k hk htarget i hcolumn)

/-- A table that is put in place of one with the same rule refers to what that referred to. -/
theorem KeepsReferences.put (hrefers : s.KeepsReferences ts) (ht : t ∈ ts)
    (hrule : t'.rule = t.rule) : s.KeepsReferences (ts.put t') := by
  intro u hu k hk
  obtain ⟨v, hv, rfl⟩ := List.mem_map.mp hu
  split at hk
  · rw [hrule] at hk
    exact hrefers t ht k hk
  · exact hrefers v hv k hk

end Schema

end SqlRecords
