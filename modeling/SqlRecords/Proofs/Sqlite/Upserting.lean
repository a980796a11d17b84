import SqlRecords.Proofs.Engine.RoundTrip
import SqlRecords.Proofs.Sqlite.Intake
import SqlRecords.Proofs.Sqlite.Overwriting
import SqlRecords.Proofs.Sqlite.References

/-!
# Records overwrite those with their keys

Records that are inserted one after the other get their rows one after the other (`Upserts`). The
last of some records with the same key stays, and so do the records of all other keys. If all the
keys were there already, no row is new and each one keeps its row id.

## What is proved

* `StoredIn.intake`: whatever is inserted, the table stores records.
* **`Upserts.contains_iff`**: the records of the table in the end.
* **`StoredIn.upserts`**: an upsert of compatible records takes all of them.
* `Upserts.rows_eq`: an upsert of what is there already changes no row.
-/

namespace SqlRecords

open Sqlite TableRule SqliteConnection

namespace Schema

variable {s : Schema} {rule : TableRule} {n m : Nat} {ts ts' : Tables} {t t' : StoredTable}
  {a b : s.Record} {records : List s.Record}

/-! ### Tables that store records -/

/-- If there is a table for the records, it stores records, of which so many were inserted at
most. -/
def StoredIn (s : Schema) (rule : TableRule) (n : Nat) (ts : Tables) : Prop :=
  ∀ t, ts.find? s.table = some t → s.Stores rule n t

namespace StoredIn

/-- The table comes in place of what it was. -/
theorem put (hts : StoredIn s rule n ts) (ht : ts.find? s.table = some t)
    (ht' : Stores s rule m t') : StoredIn s rule m (ts.put t') := by
  have hrule : t'.rule = t.rule := ht'.sameRule.trans (hts t ht).sameRule.symm
  have hname : sameName t'.rule.name s.table = true := hrule ▸ Tables.sameName_of_find? ht
  intro u hu
  rw [Tables.find?_put_self ht hname] at hu
  cases hu
  exact ht'

/-- Another table comes in place of what it was. -/
theorem put_other (hts : StoredIn s rule n ts) {u u' : StoredTable} (hrule : u'.rule = u.rule)
    (hother : sameName u.rule.name s.table = false) : StoredIn s rule n (ts.put u') := by
  intro v hv
  rw [Tables.find?_put_other (hrule ▸ hother)] at hv
  exact hts v hv

/-- A record that is taken gets a row in its table. -/
theorem accept (h : IsKeyedTableOf s rule) (hts : StoredIn s rule n ts) (ha : s.Kept a)
    {orReplace : Bool} (htaken : accept (s.insert orReplace) (s.toRow a) ts = some ts') :
    ∃ t t', ts.find? s.table = some t ∧ ts' = ts.put t' ∧ Stores s rule (n + 1) t' ∧
      Places s rule a t t' := by
  obtain ⟨-, hinsert⟩ := accept_eq_some_iff.mp htaken
  obtain ⟨t, insertion, t', hfound, hlooked, hrow, hput⟩ := Tables.insertRow_put hinsert
  have ht := hts t hfound
  obtain ⟨insertion', hlooked', hhandles⟩ := h.handles orReplace
  rw [ht.sameRule, hlooked'] at hlooked
  cases hlooked
  obtain ⟨ht', hplaces⟩ := ht.insert h hhandles ha hrow
  exact ⟨t, t', hfound, hput, ht', hplaces⟩

/-- **Whatever is inserted, the table stores records.** -/
theorem intake (h : IsKeyedTableOf s rule) (orReplace : Bool) :
    ∀ {records : List s.Record} {n : Nat} {ts : Tables},
      (∀ a ∈ records, checkRow s.insertable (s.toRow a) = .ok () → s.Kept a) →
        StoredIn s rule n ts →
          StoredIn s rule (n + records.length)
            (intake (s.insert orReplace) (records.map s.toRow) ts).2
  | [], _, _, _, hts => hts
  | a :: records, n, ts, hkept, hts => by
    rw [List.map_cons]
    cases htaken : SqliteConnection.accept (s.insert orReplace) (s.toRow a) ts with
    | none =>
      rw [intake_cons_of_none htaken]
      exact fun t ht => (hts t ht).mono (Nat.le_add_right _ _)
    | some ts' =>
      have ha := hkept a List.mem_cons_self (accept_eq_some_iff.mp htaken).1
      obtain ⟨t, t', hfound, rfl, ht', -⟩ := hts.accept h ha htaken
      rw [intake_cons_of_some htaken, List.length_cons, Nat.add_comm records.length,
        ← Nat.add_assoc]
      exact intake h orReplace (fun b hb => hkept b (List.mem_cons_of_mem a hb))
        (hts.put hfound ht')

/-- An upsert takes a record that is compatible with those that are there, if other tables refer
only to its primary key. -/
theorem accepts (h : IsKeyedTableOf s rule) (hts : StoredIn s rule n ts)
    (hfound : ts.find? s.table = some t) (ha : s.Kept a)
    (hfits : ∀ b, s.Contains rule t b → s.Compatible b a) (hrefers : s.KeepsReferences ts)
    (hroom : (n : Int) < StoredTable.maxId) :
    ∃ ts', SqliteConnection.accept (s.insert true) (s.toRow a) ts = some ts' := by
  have ht := hts t hfound
  obtain ⟨insertion, hlooked, hhandles⟩ := h.handles true
  obtain ⟨t', hrow⟩ := ht.insert_accepts h hhandles ha hfits hroom
  obtain ⟨ht', hplaces⟩ := ht.insert h hhandles ha hrow
  have htable : IsTableOf s t.rule := ht.sameRule ▸ h.toIsTableOf
  have hne : (s.insert true).columns.isEmpty = false :=
    List.isEmpty_eq_false_iff.mpr h.hasTable.sends
  have hget : ts.get (s.insert true).table = .ok t := by
    rw [Tables.get, show ts.mentioned? (s.insert true).table = some t from hfound]
  have hprepared : ts.prepare (s.insert true) = .ok (t, insertion) := by
    rw [← ht.sameRule] at hlooked
    simp [Tables.prepare, hne, hget, hlooked, htable.foreignKeys, Tables.checkTargets, bind,
      Except.bind, pure, Except.pure]
  have hchecked : ts.checkReferences (ts.put t') = .ok (ts.put t') := by
    refine hrefers.checkReferences hfound htable (ht'.sameRule.trans ht.sameRule.symm)
      fun i hi => hplaces.keeps_key h ht ha ?_
    exact hi.elim (Schema.isTarget_iff_isKey h.keyed).mp fun hnumbered =>
      absurd hnumbered (h.plain i)
  refine ⟨ts.put t', accept_eq_some_iff.mpr ⟨checkRow_ok h.hasTable ha, ?_⟩⟩
  rw [Tables.insertRow, hprepared]
  simp only [bind, Except.bind, hrow, hchecked]

end StoredIn

/-! ### One record after the other -/

/-- Records got their rows in a table one after the other. -/
inductive Upserts (s : Schema) (rule : TableRule) :
    List s.Record → StoredTable → StoredTable → Prop where
  /-- There is none. -/
  | nil (t : StoredTable) : Upserts s rule [] t t
  /-- The first, and then the others. -/
  | cons {n : Nat} {a : s.Record} {rest : List s.Record} {t u t' : StoredTable}
    (ht : Stores s rule n t) (ha : s.Kept a) (hfirst : Places s rule a t u)
    (hrest : Upserts s rule rest u t') : Upserts s rule (a :: rest) t t'

/-- A record is the last of some records with its primary key. -/
def IsLast (s : Schema) (records : List s.Record) (b : s.Record) : Prop :=
  ∃ before after, records = before ++ b :: after ∧ ∀ a ∈ after, ¬s.SameKey a b

theorem not_isLast_nil : ¬s.IsLast [] b := by
  rintro ⟨before, after, h, -⟩
  simp at h

theorem isLast_cons : s.IsLast (a :: records) b ↔
    s.IsLast records b ∨ a = b ∧ ∀ x ∈ records, ¬s.SameKey x b := by
  constructor
  · rintro ⟨before, after, h, hlast⟩
    cases before with
    | nil =>
      cases h
      exact .inr ⟨rfl, hlast⟩
    | cons c before =>
      cases h
      exact .inl ⟨before, after, rfl, hlast⟩
  · rintro (⟨before, after, rfl, hlast⟩ | ⟨rfl, hlast⟩)
    · exact ⟨a :: before, after, rfl, hlast⟩
    · exact ⟨[], records, rfl, hlast⟩

/-- Each primary key among some records has a last one. -/
theorem exists_isLast : ∀ {records : List s.Record} {a : s.Record}, a ∈ records →
    ∃ b, s.IsLast records b ∧ s.SameKey a b
  | x :: rest, a, ha => by
    by_cases hlater : ∃ y ∈ rest, s.SameKey a y
    · obtain ⟨y, hy, hsame⟩ := hlater
      obtain ⟨b, hlast, hsame'⟩ := exists_isLast hy
      exact ⟨b, isLast_cons.mpr (.inl hlast), hsame.trans hsame'⟩
    · have hnone : ∀ y ∈ rest, ¬s.SameKey y a := fun y hy hsame => hlater ⟨y, hy, hsame.symm⟩
      rcases List.mem_cons.mp ha with rfl | ha
      · exact ⟨a, isLast_cons.mpr (.inr ⟨rfl, hnone⟩), .refl a⟩
      · exact absurd (.refl a) (hnone a ha)

/-- Each row of a table is that of another one with the same id and the same key. -/
def GoesBack (s : Schema) (rule : TableRule) (t t' : StoredTable) : Prop :=
  ∀ row ∈ t'.rows, ∀ b, s.Kept b → rule.Holds s.insertable (s.toRow b) row →
    ∃ old ∈ t.rows, old.id = row.id ∧
      ∃ c, s.Kept c ∧ rule.Holds s.insertable (s.toRow c) old ∧ s.SameKey b c

namespace Places

/-- If a record with the key was there, all rows go back to those that were there. -/
theorem goesBack (h : IsKeyedTableOf s rule) (ht : Stores s rule n t) (ha : s.Kept a)
    (hplaces : Places s rule a t t') (hthere : ∃ b, s.Contains rule t b ∧ s.SameKey a b) :
    GoesBack s rule t t' := by
  intro r hr c hc hheld
  cases hplaces with
  | added row hrow hkeys hrows =>
    obtain ⟨b, hb, hsame⟩ := hthere
    exact absurd hsame (ht.not_sameKey h ha hrow hkeys hb)
  | changed row old b hrow hold hid hb hheld' hsame hrows =>
    rcases (hrows r).mp hr with rfl | ⟨hr, -⟩
    · obtain rfl := h.eq_of_holds hc ha hheld hrow
      exact ⟨old, hold, hid.symm, b, hb, hheld', hsame⟩
    · exact ⟨r, hr, rfl, c, hc, hheld, .refl c⟩

end Places

namespace Upserts

/-- **The records of the table in the end**: the last ones of each key, and those of other keys. -/
theorem contains_iff (h : IsKeyedTableOf s rule) (hrun : Upserts s rule records t t') :
    s.Contains rule t' b ↔
      s.IsLast records b ∨ s.Contains rule t b ∧ ∀ a ∈ records, ¬s.SameKey a b := by
  induction hrun with
  | nil t => simp [not_isLast_nil]
  | cons ht ha hfirst _ ih =>
    rw [ih, hfirst.contains_iff h ht ha, isLast_cons, List.forall_mem_cons]
    constructor
    · rintro (hlast | ⟨rfl | ⟨hthere, hother⟩, hrest⟩)
      · exact .inl (.inl hlast)
      · exact .inl (.inr ⟨rfl, hrest⟩)
      · exact .inr ⟨hthere, hother, hrest⟩
    · rintro ((hlast | ⟨rfl, hrest⟩) | ⟨hthere, hother, hrest⟩)
      · exact .inl hlast
      · exact .inr ⟨.inl rfl, hrest⟩
      · exact .inr ⟨.inr ⟨hthere, hother⟩, hrest⟩

/-- If records with all the keys were there, all rows go back to those that were there. -/
theorem goesBack (h : IsKeyedTableOf s rule) (hrun : Upserts s rule records t t')
    (hthere : ∀ a ∈ records, ∃ b, s.Contains rule t b ∧ s.SameKey a b) :
    GoesBack s rule t t' := by
  induction hrun with
  | nil t => exact fun row hrow b hb hheld => ⟨row, hrow, rfl, b, hb, hheld, .refl b⟩
  | @cons n a rest t u t' ht ha hfirst _ ih =>
    obtain ⟨ha', hrest⟩ := List.forall_mem_cons.mp hthere
    have hthere' : ∀ x ∈ rest, ∃ b, s.Contains rule u b ∧ s.SameKey x b := by
      intro x hx
      obtain ⟨b, hb, hsame⟩ := hrest x hx
      by_cases hab : s.SameKey a b
      · exact ⟨a, (hfirst.contains_iff h ht ha).mpr (.inl rfl), hsame.trans hab.symm⟩
      · exact ⟨b, (hfirst.contains_iff h ht ha).mpr (.inr ⟨hb, hab⟩), hsame⟩
    intro row hrow b hb hheld
    obtain ⟨mid, hmid, hid, c, hc, hheldMid, hsame⟩ := ih hthere' row hrow b hb hheld
    obtain ⟨old, hold, hid', d, hd, hheldOld, hsame'⟩ :=
      hfirst.goesBack h ht ha ha' mid hmid c hc hheldMid
    exact ⟨old, hold, hid'.trans hid, d, hd, hheldOld, hsame.trans hsame'⟩

end Upserts

/-- Rows that go back to those of a table with the same records are the same rows. -/
theorem GoesBack.rows_eq (h : IsKeyedTableOf s rule) (ht : Stores s rule n t)
    (ht' : Stores s rule m t') (hback : GoesBack s rule t t')
    (hsame : ∀ b, s.Contains rule t' b ↔ s.Contains rule t b) : t'.rows = t.rows := by
  have hleft : ∀ row ∈ t'.rows, row ∈ t.rows := by
    intro row hrow
    obtain ⟨b, hb, hheld⟩ := ht'.holds row hrow
    obtain ⟨-, row₀, hrow₀, hheld₀⟩ := (hsame b).mp ⟨hb, row, hrow, hheld⟩
    obtain ⟨old, hold, hid, c, hc, hheldOld, hkey⟩ := hback row hrow b hb hheld
    obtain rfl := ht.row_eq h hb hc hrow₀ hold hheld₀ hheldOld hkey
    rwa [hheld.eq_of_id hheld₀ hid.symm]
  have hright : ∀ row ∈ t.rows, row ∈ t'.rows := by
    intro row hrow
    obtain ⟨b, hb, hheld⟩ := ht.holds row hrow
    obtain ⟨-, row', hrow', hheld'⟩ := (hsame b).mpr ⟨hb, row, hrow, hheld⟩
    rwa [ht.row_eq h hb hb hrow (hleft row' hrow') hheld hheld' (.refl b)]
  have hperm : t'.rows.Perm t.rows := by
    refine (List.perm_ext_iff_of_nodup ?_ ?_).mpr fun row => ⟨hleft row, hright row⟩
    · exact ht'.sound.sorted.imp fun hlt heq => Int.ne_of_lt hlt (congrArg _ heq)
    · exact ht.sound.sorted.imp fun hlt heq => Int.ne_of_lt hlt (congrArg _ heq)
  refine hperm.eq_of_pairwise (fun a b _ _ hlt hgt => ?_) ht'.sound.sorted ht.sound.sorted
  omega

/-- **Records that are there already change no row** if they are inserted once more. -/
theorem Upserts.rows_eq (h : IsKeyedTableOf s rule) {u : StoredTable} (ht : Stores s rule n t')
    (hu : Stores s rule m u) (hfirst : Upserts s rule records t t')
    (hagain : Upserts s rule records t' u) : u.rows = t'.rows := by
  have hthere : ∀ a ∈ records, ∃ b, s.Contains rule t' b ∧ s.SameKey a b := by
    intro a ha
    obtain ⟨b, hlast, hsame⟩ := exists_isLast ha
    exact ⟨b, (hfirst.contains_iff h).mpr (.inl hlast), hsame⟩
  refine (hagain.goesBack h hthere).rows_eq h ht hu fun b => ?_
  rw [hagain.contains_iff h]
  constructor
  · rintro (hlast | ⟨hb, -⟩)
    · exact (hfirst.contains_iff h).mpr (.inl hlast)
    · exact hb
  · intro hb
    rcases (hfirst.contains_iff h).mp hb with hlast | ⟨-, hother⟩
    · exact .inl hlast
    · exact .inr ⟨hb, hother⟩

/-! ### An upsert -/

/-- **An upsert of compatible records takes all of them**, and changes no other table. -/
theorem StoredIn.upserts (h : IsKeyedTableOf s rule) {all : List s.Record}
    (hfits : ∀ a ∈ all, ∀ b ∈ all, s.Compatible a b) (hts : StoredIn s rule n ts)
    (hfound : ts.find? s.table = some t) (hrecords : ∀ a ∈ records, s.Kept a ∧ a ∈ all)
    (hthere : ∀ b, s.Contains rule t b → b ∈ all) (hrefers : s.KeepsReferences ts)
    (hroom : ((n + records.length : Nat) : Int) ≤ StoredTable.maxId) :
    ∃ ts' t', Takes (s.insert true) (records.map s.toRow) ts ts' ∧
      StoredIn s rule (n + records.length) ts' ∧ ts'.find? s.table = some t' ∧
      Upserts s rule records t t' ∧ s.KeepsReferences ts' ∧
      ∀ other, sameName s.table other = false → ts'.find? other = ts.find? other := by
  induction records generalizing n ts t with
  | nil => exact ⟨ts, t, .nil _ _, hts, hfound, .nil t, hrefers, fun _ _ => rfl⟩
  | cons a records ih =>
    obtain ⟨⟨ha, hmem⟩, hrest⟩ := List.forall_mem_cons.mp hrecords
    have hlength : n + (a :: records).length = n + 1 + records.length := by
      rw [List.length_cons]
      omega
    rw [hlength] at hroom ⊢
    have ht := hts t hfound
    have hnext : (n : Int) < StoredTable.maxId := by omega
    obtain ⟨ts₁, htaken⟩ :=
      hts.accepts h hfound ha (fun b hb => hfits b (hthere b hb) a hmem) hrefers hnext
    obtain ⟨t₀, t₁, hfound₀, rfl, ht₁, hplaces⟩ := hts.accept h ha htaken
    cases hfound.symm.trans hfound₀
    have hname := ht₁.sameName h
    have hthere₁ : ∀ b, s.Contains rule t₁ b → b ∈ all := by
      intro b hb
      rcases (hplaces.contains_iff h ht ha).mp hb with rfl | ⟨hb, -⟩
      · exact hmem
      · exact hthere b hb
    have hrefers₁ : s.KeepsReferences (ts.put t₁) :=
      hrefers.put (List.mem_of_find?_eq_some hfound) (ht₁.sameRule.trans ht.sameRule.symm)
    obtain ⟨ts', t', htakes, hts', hfound', hrun, hrefers', hothers⟩ :=
      ih (hts.put hfound ht₁) (Tables.find?_put_self hfound hname) hrest hthere₁ hrefers₁ hroom
    refine ⟨ts', t', .cons htaken htakes, hts', hfound', .cons ht ha hplaces hrun, hrefers',
      fun other ho => ?_⟩
    rw [hothers other ho, Tables.find?_put_other ((sameName_congr hname other).trans ho)]

end Schema

end SqlRecords
