import SqlRecords.Proofs.Engine.Reached
import SqlRecords.Proofs.Sqlite.Tidy

/-!
# Tables that engines build

Engines of any settings work on an empty database one after the other: they make and drop the
tables of any record types, insert, overwrite, load, update and delete, and each time succeed or
fail (`Engine.Built`). Whatever they do, the tables stay tidy.

## What is proved

* **`Engine.Work.tidy`**: what a work keeps, whether it succeeds or fails.
* `Engine.Built.tidy`: what all of them keep together.
-/

namespace SqlRecords

open Sqlite SqliteConnection

namespace Sqlite.Tables.Tidy

variable {ts ts' : Tables}

/-- A table that is dropped leaves the others as they were. -/
theorem drop (h : ts.Tidy) {s : Schema} {ifExists : Bool}
    (hdrop : ts.drop (s.drop ifExists) = .ok ts') : ts'.Tidy := by
  obtain rfl | rfl := drop_ok hdrop
  · exact h
  · exact fun u hu => h u (List.mem_filter.mp hu).1

/-- A DELETE takes rows away. -/
theorem delete (h : ts.Tidy) {d : DeleteFrom} (hdelete : ts.delete d = .ok ts') : ts'.Tidy := by
  obtain ⟨t, p, hfound, rfl⟩ := delete_ok hdelete
  exact h.put ((h t (List.mem_of_find?_eq_some hfound)).filter p)

/-- An UPDATE makes rows anew. -/
theorem update (h : ts.Tidy) {u : Update} (hupdate : ts.update u = .ok ts') : ts'.Tidy := by
  obtain ⟨t, t', scope, sets, rows, hfound, hrows, hupdated, rfl⟩ := update_ok hupdate
  have ht := h t (List.mem_of_find?_eq_some hfound)
  exact h.put (updateRows_tidy hupdated ht fun row hrow => (ht.made row (hrows row hrow)).fits)

end Sqlite.Tables.Tidy

namespace Engine

/-- **Whatever an engine does, the tables stay tidy**, whether it succeeds or fails. -/
theorem Work.tidy (e : Engine) (w : Work) {c : SqliteConnection Store}
    (h : c.database.tables.Tidy) : ((w.action e).outcome c).2.database.tables.Tidy := by
  -- The rows of an INSERT are taken up to the first that is refused.
  have hinsert : ∀ (i : Insert) (rows : List Row), Ensures (e.insertWith i rows) c
      (fun _ d => d.database.tables.Tidy) (fun _ d => d.database.tables.Tidy) := by
    intro i rows
    have htaken := Tables.intake_tidy (i := i) rows h
    refine (e.insertWith_ensures i rows c).mono (fun _ d hd => ?_) (fun _ d hd => ?_)
    · rwa [show intake _ _ _ = _ from hd.2] at htaken
    · rwa [hd.2.2] at htaken
  refine Ensures.state (p := fun d : SqliteConnection Store => d.database.tables.Tidy) ?_
  cases w with
  | createTable s ifNotExists =>
    exact (createTable_ensures s c).mono (fun _ _ hd => h.madeBy hd.2.1) (fun _ _ hd => hd ▸ h)
  | dropTable s ifExists =>
    exact (execute_ensures _ c).mono (fun _ _ hd => h.drop hd) (fun _ _ hd => hd ▸ h)
  | insert s records => exact hinsert _ _
  | insertOrReplace s records => exact hinsert _ _
  | write s records =>
    refine (e.write_takes_made s records c).mono (fun _ d hd => ?_) (fun _ d hd => h.madeBy hd)
    obtain ⟨base, hmade, htakes⟩ := hd
    have htaken := Tables.intake_tidy (i := s.insert false) (records.map s.toRow) (h.madeBy hmade)
    rwa [show intake _ _ _ = _ from htakes] at htaken
  | update u =>
    exact (execute_ensures (.update u) c).mono (fun _ _ hd => h.update hd) (fun _ _ hd => hd ▸ h)
  | deleteFrom d =>
    exact (execute_ensures (.delete d) c).mono (fun _ _ hd => h.delete hd) (fun _ _ hd => hd ▸ h)
  | readAll s q =>
    simp only [Work.action, ensures_bind]
    have hkeeps : ∀ d, SameView Store.tables c d → d.database.tables.Tidy := by
      intro d hd
      rwa [hd.viewed]
    exact (e.readAll_sameView ((Store.query_leaves q).map Store.tables) c).mono
      (fun _ d hd => hkeeps d hd) (fun _ d hd => hkeeps d hd)

/-- Engines make these tables of an empty database, whatever they do. Transactions do not matter
here: a rollback leads back to tables that were built before. -/
inductive Built : Tables → Prop where
  /-- There is nothing yet. -/
  | new : Built []
  /-- An engine does something, and succeeds or fails. -/
  | worked {c : SqliteConnection Store} (hbuilt : Built c.database.tables) (e : Engine) (w : Work) :
    Built ((w.action e).outcome c).2.database.tables

/-- **Tables that engines build are tidy.** -/
theorem Built.tidy {ts : Tables} (h : Built ts) : ts.Tidy := by
  induction h with
  | new => exact nofun
  | worked _ e w ih => exact w.tidy e ih

end Engine

end SqlRecords
