import SqlRecords.Proofs.Sqlite.ConflictTarget
import SqlRecords.Proofs.Sqlite.Tidy

/-!
# A row that shares a key with one that is there

An INSERT that overwrites makes a row of the record it is given (`Candidate`), and what becomes of
it is decided by the rows that are there (`StoredTable.settle`). A row that shares no key with any
of them is added. If there is one that it shares a key with, and no other, it depends on the key:
where the columns that decide are the same, the row that is there takes all other values of the
record; where they are not, the record is refused, however few the columns of the key that they
share.

## What is proved

* `IsTargetKey.shared_iff`: rows share the key that decides if they agree in its columns.
* `Candidate.settle_adds`, **`Candidate.settle_takesOver`**, **`Candidate.settle_refuses`**: the
  three ways it can go.
-/

namespace SqlRecords

open Sqlite

namespace Sqlite.StoredTable

variable {t t' : StoredTable} {row old : StoredRow}

/-- Two rows share a key of the table, the first of them to come. -/
def Collides (t : StoredTable) (row r : StoredRow) : Prop := ∃ k ∈ t.keys, k.shared row r = true

instance (t : StoredTable) (row r : StoredRow) : Decidable (t.Collides row r) :=
  inferInstanceAs (Decidable (∃ k ∈ t.keys, k.shared row r = true))

/-- What is done with a row that an INSERT made of its values. -/
def settle (t : StoredTable) (onConflict : OnConflict) (row : StoredRow) :
    Except String StoredTable :=
  match onConflict with
  | .refuse => do
    t.checkKeys none row t.keys
    return t.add row
  | .replace => return (t.clear row).add row
  | .skip key =>
    match t.conflict? none row key with
    | some _ => return { t with lastId := max t.lastId row.id }
    | none => do
      t.checkKeys none row t.keys
      return t.add row
  | .overwrite key columns =>
    match t.conflict? none row key with
    | some old => ({ t with lastId := max t.lastId row.id } : StoredTable).change old columns row.value
    | none => do
      t.checkKeys none row t.keys
      return t.add row

/-- An INSERT makes a row of its values and settles what is done with it. -/
theorem insert_eq_settle {insertion : Insertion} {given : List Stored} {id : Int}
    (hid : Insertion.newId t (insertion.values t.rule given) = .ok id)
    (hnulls : t.checkNulls (insertion.values t.rule given) = .ok ()) :
    t.insert insertion given =
      t.settle insertion.onConflict (t.rowOf id (insertion.values t.rule given)) := by
  rw [insert]
  simp only [hid, hnulls, bind, Except.bind]
  rfl

/-- A row that shares a key is refused for the first that it shares. -/
theorem checkKeys_error {keys : List Key} (h : ∃ k ∈ keys, ∃ r ∈ t.rows, k.shared row r = true) :
    ∃ k ∈ keys, (∃ r ∈ t.rows, k.shared row r = true) ∧
      t.checkKeys none row keys = .error (t.uniqueFailed k) := by
  induction keys with
  | nil =>
    obtain ⟨k, hk, -⟩ := h
    cases hk
  | cons k keys ih =>
    cases hconflict : t.conflict? none row k with
    | some r =>
      refine ⟨k, List.mem_cons_self, ⟨r, conflict?_eq_some hconflict⟩, ?_⟩
      rw [checkKeys, hconflict]
    | none =>
      obtain ⟨k', hk', hshared⟩ := h
      rcases List.mem_cons.mp hk' with rfl | hk'
      · obtain ⟨r, hr, hshared⟩ := hshared
        rw [conflict?_eq_none_iff.mp hconflict r hr (Option.some_ne_none r.id)] at hshared
        cases hshared
      · obtain ⟨k, hk, hshared, herror⟩ := ih ⟨k', hk', hshared⟩
        refine ⟨k, List.mem_cons_of_mem _ hk, hshared, ?_⟩
        rw [checkKeys, hconflict]
        exact herror

end Sqlite.StoredTable

namespace Schema

open StoredTable

/-- Two rows have the same values in the columns that decide which row a record overwrites. -/
def SameTarget (s : Schema) (row r : StoredRow) : Prop :=
  (∃ i, s.IsTarget i) ∧ ∀ i : Fin s.fields.length, s.IsTarget i →
    (row.value i).isNull = false ∧ (row.value i).same (r.value i) = true

/-- A row takes over the values of another one, but for those of the columns that decide and of
those that the database numbers; nothing else changes in the table. -/
structure TakesOver (s : Schema) (row old new : StoredRow) (t t' : StoredTable) : Prop where
  /-- The table is like it was. -/
  sameRule : t'.rule = t.rule
  /-- Its rows are in order, and no key is there twice. -/
  tidy : t'.Tidy
  /-- The old row is the only one that changed. -/
  rows : ∀ r, r ∈ t'.rows ↔ r = new ∨ r ∈ t.rows ∧ r.id ≠ old.id
  /-- It keeps its id. -/
  id : new.id = old.id
  /-- It keeps what says which row it is. -/
  kept : ∀ i : Fin s.fields.length, s.IsTarget i ∨ s.IsNumbered i → new.value i = old.value i
  /-- It takes everything else. -/
  taken : ∀ i : Fin s.fields.length, ¬s.IsTarget i → ¬s.IsNumbered i → new.value i = row.value i

/-- A row that an INSERT made of a record, which may share keys with rows that are there. -/
structure Candidate (s : Schema) (t : StoredTable) (row : StoredRow) : Prop where
  /-- It is one that the columns keep. -/
  made : t.Made row
  /-- There is no NULL where there may be none. -/
  notNull : ∀ i < t.rule.columns.length, t.rule.columns[i]?.any (·.notNull) = true →
    t.rule.rowId ≠ some i → (row.value i).isNull = false
  /-- Its id is new, unless the record brings it. -/
  fresh : (∀ i : Fin s.fields.length, s.IsKey i → t.rule.rowId ≠ some i.val) →
    ∀ r ∈ t.rows, row.id ≠ r.id

end Schema

namespace Sqlite.TableRule

open StoredTable

variable {s : Schema} {t : StoredTable} {row old : StoredRow} {onConflict : OnConflict} {key : Key}

/-! ### Keys and columns -/

/-- Numbers of 64 bits are the same if they are the same as stored. -/
theorem same_ofInt_iff {m n : Int} (hm : fits m = true) (hn : fits n = true) :
    (Stored.integer (Int64.ofInt m)).same (.integer (Int64.ofInt n)) = true ↔ m = n := by
  have hexact : ∀ {k : Int}, fits k = true → (Int64.ofInt k).toInt = k := fun hk => by
    obtain ⟨hlow, hhigh⟩ := fits_iff.mp hk
    exact Int64.toInt_ofInt_of_le hlow (Int.lt_of_le_of_lt hhigh (by decide))
  constructor
  · intro h
    rw [← hexact hm, ← hexact hn, Stored.eq_of_same_integer h]
  · rintro rfl
    exact (Stored.Keeps.integer _).same_self

/-- **Rows share the key that decides** if they agree in its columns. -/
theorem IsTargetKey.shared_iff (hkey : IsTargetKey s t.rule key) (h : IsTableOf s t.rule)
    (htarget : ∃ i, s.IsTarget i) (hrow : t.Made row) (hold : t.Made old) :
    key.shared row old = true ↔ s.SameTarget row old := by
  rw [Schema.SameTarget, and_iff_right htarget]
  cases key with
  | columns is =>
    rw [Key.shared, List.all_eq_true]
    have hplaces := hkey.mem_places
    refine ⟨fun hall i hi => ?_, fun hall n hn => ?_⟩
    · have hboth := hall i.val ((hplaces i).mpr ⟨i, rfl, hi⟩)
      rwa [Bool.and_eq_true, Bool.not_eq_true'] at hboth
    · obtain ⟨i, rfl, hi⟩ := (hplaces n).mp hn
      rw [Bool.and_eq_true, Bool.not_eq_true']
      exact hall i hi
  | rowId =>
    have hrowId : ∀ i, s.IsTarget i → t.rule.rowId = some i.val := fun i hi =>
      Option.mem_toList.mp ((hkey.mem_places i).mpr ⟨i, rfl, hi⟩)
    have hvalues : ∀ i, s.IsTarget i → row.value i = .integer (Int64.ofInt row.id) ∧
        old.value i = .integer (Int64.ofInt old.id) := fun i hi =>
      ⟨(hrow.value_eq (h.lt_length i)).1 (hrowId i hi),
        (hold.value_eq (h.lt_length i)).1 (hrowId i hi)⟩
    rw [Key.shared, beq_iff_eq]
    refine ⟨fun hid i hi => ?_, fun hall => ?_⟩
    · rw [(hvalues i hi).1, (hvalues i hi).2]
      exact ⟨rfl, (same_ofInt_iff hrow.fits hold.fits).mpr hid⟩
    · obtain ⟨i, hi⟩ := htarget
      have hsame := (hall i hi).2
      rw [(hvalues i hi).1, (hvalues i hi).2] at hsame
      exact (same_ofInt_iff hrow.fits hold.fits).mp hsame

/-- Each key next to the row id lies within the columns that decide, or is another unique column. -/
theorem IsTableOf.uniques_cases (h : IsTableOf s t.rule) {is : List Nat} (his : is ∈ t.rule.uniques) :
    (∀ n ∈ is, ∃ i : Fin s.fields.length, i.val = n ∧ s.IsTarget i) ∨
      ∃ i : Fin s.fields.length, is = [i.val] ∧ s.IsUnique i ∧ ¬s.IsTarget i := by
  rcases h.mem_uniques_iff.mp his with ⟨i, hunique, rfl⟩ | ⟨rfl, hkey, -⟩
  · by_cases hi : s.IsTarget i
    · exact .inl fun n hn => ⟨i, (List.mem_singleton.mp hn).symm, hi⟩
    · exact .inr ⟨i, rfl, hunique, hi⟩
  · refine .inl fun n hn => ?_
    obtain ⟨i, hi, hkey⟩ := mem_keyPlaces.mp hn
    exact ⟨i, hi, .inl hkey⟩

/-- Where the row id is a column, it is one that decides or one that the database numbers. -/
theorem IsTableOf.isTarget_or_isNumbered (h : IsTableOf s t.rule) {i : Fin s.fields.length}
    (hi : t.rule.rowId = some i.val) : s.IsTarget i ∨ s.IsNumbered i := by
  obtain ⟨j, hj, hnumbered | ⟨hkey, -⟩⟩ := h.rowId i hi
  · exact .inr (Fin.ext hj ▸ hnumbered)
  · exact .inl (.inl (Fin.ext hj ▸ hkey))

end Sqlite.TableRule

namespace Schema.Candidate

open StoredTable TableRule

variable {s : Schema} {t : StoredTable} {row old : StoredRow} {onConflict : OnConflict} {key : Key}

/-! ### Rows that share no key -/

theorem conflict?_eq_none (hnone : ∀ r ∈ t.rows, ¬t.Collides row r) (hkey : key ∈ t.keys) :
    t.conflict? none row key = none :=
  conflict?_eq_none_iff.mpr fun r hr _ =>
    Bool.eq_false_iff.mpr fun hshared => hnone r hr ⟨key, hkey, hshared⟩

/-- **A row that shares no key with any other is added.** -/
theorem settle_adds (hover : Overwriting s t.rule onConflict)
    (hnone : ∀ r ∈ t.rows, ¬t.Collides row r) : t.settle onConflict row = .ok (t.add row) := by
  have hchecked : t.checkKeys none row t.keys = .ok () := checkKeys_ok fun k hk r hr =>
    Bool.eq_false_iff.mpr fun hshared => hnone r hr ⟨k, hk, hshared⟩
  cases hover with
  | replace _ =>
    have hclear : t.clear row = t := by
      have hall : (t.rows.filter fun r => !t.keys.any fun k => k.shared row r) = t.rows := by
        refine List.filter_eq_self.mpr fun r hr => ?_
        rw [Bool.not_eq_true', List.any_eq_false]
        exact fun k hk hshared => hnone r hr ⟨k, hk, hshared⟩
      rw [clear, hall]
    rw [settle, hclear]
    rfl
  | skip hkey _ =>
    rw [settle, conflict?_eq_none hnone hkey.mem, hchecked]
    rfl
  | overwrite hkey _ =>
    rw [settle, conflict?_eq_none hnone hkey.mem, hchecked]
    rfl

/-! ### Rows that share the key that decides -/

/-- The row that shares the key that decides is found. -/
theorem conflict?_eq_old (hrow : s.Candidate t row) (h : IsTableOf s t.rule) (ht : t.Tidy)
    (hkey : IsTargetKey s t.rule key) (hold : old ∈ t.rows)
    (honly : ∀ r ∈ t.rows, t.Collides row r → r = old) (hsame : s.SameTarget row old) :
    t.conflict? none row key = some old := by
  have hshared := (hkey.shared_iff h hsame.1 hrow.made (ht.made old hold)).mpr hsame
  cases hconflict : t.conflict? none row key with
  | some r =>
    obtain ⟨hr, hshared'⟩ := conflict?_eq_some hconflict
    rw [honly r hr ⟨key, hkey.mem, hshared'⟩]
  | none =>
    rw [conflict?_eq_none_iff.mp hconflict old hold (Option.some_ne_none old.id)] at hshared
    cases hshared

/-- What stands in a column of a row that took values of another one. -/
theorem value_changed (hrow : s.Candidate t row) (ht : t.Tidy) (hold : old ∈ t.rows)
    {columns : List Nat} {i : Nat} (hi : i < t.rule.columns.length)
    (hrowId : ∀ k, t.rule.rowId = some k → k ∉ columns) :
    (t.rowOf old.id (changed old columns row.value)).value i =
      if i ∈ columns then row.value i else old.value i := by
  have hmade := ht.made old hold
  rw [value_rowOf _ _ _ hi, getElem?_changed (hmade.width ▸ hi), Option.getD_some]
  by_cases hid : t.rule.rowId = some i
  · rw [if_pos (by simp [hid]), if_neg (hrowId i hid), (hmade.value_eq hi).1 hid]
  · rw [if_neg (by simpa using hid)]
    split
    · exact hrow.made.apply_value hi hid
    · exact hmade.apply_value hi hid

/-- There is no NULL in it where there may be none. -/
theorem checkNulls_changed (hrow : s.Candidate t row) (h : IsTableOf s t.rule) (hold : t.Made old)
    (hsame : s.SameTarget row old) {columns : List Nat}
    (hcolumns : ∀ i : Fin s.fields.length, i.val ∈ columns ↔ ¬s.IsTarget i ∧ ¬s.IsNumbered i) :
    t.checkNulls (changed old columns row.value) = .ok () := by
  refine checkNulls_ok fun k hk hnotNull hrowId => ?_
  let i : Fin s.fields.length := ⟨k, h.length_columns ▸ hk⟩
  rw [getElem?_changed (hold.width ▸ hk), Option.getD_some]
  split
  · exact hrow.notNull k hk hnotNull hrowId
  · next hother =>
    -- A column that keeps its value is one that decides, as it is not the row id.
    have htarget : s.IsTarget i := by
      by_contra hi
      refine hother ((hcolumns i).mpr ⟨hi, fun hnumbered => ?_⟩)
      exact hrowId (h.numbered i hnumbered)
    obtain ⟨hnull, hequal⟩ := hsame.2 i htarget
    rw [← Stored.isNull_eq_of_same hequal]
    exact hnull

/-- It shares no key with any other row. -/
theorem checkKeys_changed (hrow : s.Candidate t row) (h : IsTableOf s t.rule) (ht : t.Tidy)
    (hold : old ∈ t.rows) (honly : ∀ r ∈ t.rows, t.Collides row r → r = old) {columns : List Nat}
    (hcolumns : ∀ i : Fin s.fields.length, i.val ∈ columns ↔ ¬s.IsTarget i ∧ ¬s.IsNumbered i)
    (hrowId : ∀ k, t.rule.rowId = some k → k ∉ columns) :
    t.checkKeys (some old.id) (t.rowOf old.id (changed old columns row.value)) t.keys = .ok () := by
  have hvalue := fun i => hrow.value_changed ht hold (h.lt_length i) hrowId
  refine checkKeys_eq_ok_iff.mpr fun k hk r hr hne => Bool.eq_false_iff.mpr fun hshared => ?_
  have hother : r ≠ old := fun heq => hne (congrArg (some ·.id) heq)
  rcases List.mem_cons.mp hk with rfl | hk
  · exact hne (congrArg some (beq_iff_eq.mp hshared).symm)
  obtain ⟨is, his, rfl⟩ := List.mem_map.mp hk
  rcases h.uniques_cases his with htarget | ⟨i, rfl, hunique, hi⟩
  · -- The columns of the key keep their values, which no other row had.
    have hsame : ∀ n ∈ is, (old.value n).isNull = false ∧
        (old.value n).same (r.value n) = true := by
      intro n hn
      obtain ⟨i, rfl, hi⟩ := htarget n hn
      have hboth := List.all_eq_true.mp hshared i.val hn
      rwa [hvalue i, if_neg fun hmem => ((hcolumns i).mp hmem).1 hi, Bool.and_eq_true,
        Bool.not_eq_true'] at hboth
    refine hother (ht.apart r hr old hold _ (List.mem_cons_of_mem _ hk) ?_ ?_)
    · refine List.all_eq_true.mpr fun n hn => ?_
      obtain ⟨hnull, hequal⟩ := hsame n hn
      rw [Stored.same_comm, ← Stored.isNull_eq_of_same hequal, hnull, hequal]
      rfl
    · refine List.all_eq_true.mpr fun n hn => ?_
      obtain ⟨hnull, hequal⟩ := hsame n hn
      rw [hnull, hequal]
      rfl
  · -- The only column of the key has the value of the record.
    rw [Key.shared, List.all_cons, hvalue i, if_pos ((hcolumns i).mpr ⟨hi, hunique.2⟩)] at hshared
    exact hother (honly r hr ⟨_, List.mem_cons_of_mem _ hk, hshared⟩)

/-- **A row that shares the key that decides is taken over.** -/
theorem settle_takesOver (hrow : s.Candidate t row) (h : IsTableOf s t.rule) (ht : t.Tidy)
    (hover : Overwriting s t.rule onConflict) (hold : old ∈ t.rows)
    (honly : ∀ r ∈ t.rows, t.Collides row r → r = old) (hsame : s.SameTarget row old) :
    ∃ t' new, t.settle onConflict row = .ok t' ∧ s.TakesOver row old new t t' := by
  let t₁ : StoredTable := { t with lastId := max t.lastId row.id }
  have ht₁ : t₁.Tidy := ht.withLastId _
  have hmade := ht.made old hold
  cases hover with
  | replace hnone =>
    obtain ⟨i, hi⟩ := hsame.1
    exact absurd hi (hnone i)
  | skip hkey hall =>
    have hconflict := hrow.conflict?_eq_old h ht hkey hold honly hsame
    refine ⟨t₁, old, ?_, rfl, ht₁, fun r => ht.mem_rows_iff hold, rfl, fun _ _ => rfl,
      fun i hi hnumbered => absurd (hall i) (not_or.mpr ⟨hi, hnumbered⟩)⟩
    rw [settle, hconflict]
    rfl
  | @overwrite key columns hkey hcolumns =>
    have hconflict := hrow.conflict?_eq_old h ht hkey hold honly hsame
    have hrowId : ∀ k, t.rule.rowId = some k → k ∉ columns := by
      intro k hk hmem
      obtain ⟨i, rfl, -⟩ := h.rowId k hk
      obtain ⟨hi, hnumbered⟩ := (hcolumns i).mp hmem
      exact (h.isTarget_or_isNumbered hk).elim hi hnumbered
    have hvalue := fun i => hrow.value_changed ht hold (h.lt_length i) hrowId
    have hchecked := checkKeys_eq_ok_iff.mp
      (hrow.checkKeys_changed h ht hold honly hcolumns hrowId)
    have hchange : t₁.change old columns row.value = .ok (t₁.replace old.id _) :=
      change_accepts hrowId (hrow.checkNulls_changed h hmade hsame hcolumns)
        (checkKeys_eq_ok_iff.mpr hchecked)
    refine ⟨t₁.replace old.id (t.rowOf old.id (changed old columns row.value)), _, ?_, rfl,
      ht₁.change hmade.fits hchange, fun r => mem_replace, rfl, fun i hi => ?_,
      fun i hi hnumbered => ?_⟩
    · rw [settle, hconflict]
      exact hchange
    · rw [hvalue i, if_neg]
      intro hmem
      obtain ⟨hi', hnumbered⟩ := (hcolumns i).mp hmem
      exact hi.elim hi' hnumbered
    · rw [hvalue i, if_pos ((hcolumns i).mpr ⟨hi, hnumbered⟩)]

/-! ### Rows that share another key only -/

/-- A table without columns that decide has no keys but a row id that records do not bring. -/
theorem not_collides_of_no_target (hrow : s.Candidate t row) (h : IsTableOf s t.rule)
    (hnone : ∀ i, ¬s.IsTarget i) : ∀ r ∈ t.rows, ¬t.Collides row r := by
  have hplain : ∀ i, ¬(s.IsKey i ∨ s.IsUnique i) := by
    intro i hi
    obtain ⟨j, hj⟩ := Schema.exists_isTarget hi
    exact hnone j hj
  rintro r hr ⟨k, hk, hshared⟩
  rcases List.mem_cons.mp hk with rfl | hk
  · exact hrow.fresh (fun i hi _ => hplain i (.inl hi)) r hr (beq_iff_eq.mp hshared)
  · obtain ⟨is, his, rfl⟩ := List.mem_map.mp hk
    rcases h.mem_uniques_iff.mp his with ⟨i, hi, -⟩ | ⟨-, ⟨i, hi⟩, -⟩
    · exact hplain i (.inr hi)
    · exact hplain i (.inl hi)

/-- **A row that shares another key only is refused.** -/
theorem settle_refuses (hrow : s.Candidate t row) (h : IsTableOf s t.rule) (ht : t.Tidy)
    (hover : Overwriting s t.rule onConflict) (hold : old ∈ t.rows)
    (hcollides : t.Collides row old) (honly : ∀ r ∈ t.rows, t.Collides row r → r = old)
    (hother : ¬s.SameTarget row old) :
    ∃ k ∈ t.keys, k.shared row old = true ∧
      t.settle onConflict row = .error (t.uniqueFailed k) := by
  have htarget : ∃ i, s.IsTarget i := by
    by_contra hnone
    exact hrow.not_collides_of_no_target h (not_exists.mp hnone) old hold hcollides
  have hconflict : ∀ {key}, IsTargetKey s t.rule key → t.conflict? none row key = none := by
    intro key hkey
    refine conflict?_eq_none_iff.mpr fun r hr _ => Bool.eq_false_iff.mpr fun hshared => hother ?_
    obtain rfl := honly r hr ⟨key, hkey.mem, hshared⟩
    exact (hkey.shared_iff h htarget hrow.made (ht.made r hr)).mp hshared
  obtain ⟨k, hk, hshared⟩ := hcollides
  have hfirst : ∃ k ∈ t.keys, ∃ r ∈ t.rows, k.shared row r = true := ⟨k, hk, old, hold, hshared⟩
  obtain ⟨k', hk', ⟨r, hr, hshared'⟩, herror⟩ := checkKeys_error hfirst
  obtain rfl := honly r hr ⟨k', hk', hshared'⟩
  refine ⟨k', hk', hshared', ?_⟩
  cases hover with
  | replace hnone =>
    obtain ⟨i, hi⟩ := htarget
    exact absurd hi (hnone i)
  | skip hkey _ =>
    rw [settle, hconflict hkey, herror]
    rfl
  | overwrite hkey _ =>
    rw [settle, hconflict hkey, herror]
    rfl

end Schema.Candidate

end SqlRecords
