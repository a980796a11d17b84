import Mathlib.Logic.Relation
import SqlRecords.Proofs.Connection.Ensures
import SqlRecords.Sqlite.Worker

/-!
# A cursor and its worker agree

A fetch sends a request to the worker and waits for its answer. Both sides take steps in whatever
order; still a fetch gives what `SqliteCursor.fetch` says, and leaves both sides as they have to be
for the next one. No side waits for ever, and the worker is never found to have left.

From most states only one of the sides can take a step (`Settles.call`, `Settles.worker`). Both can
while the worker leaves behind a last answer, and then it does not matter which one is first
(`Settles.both`).

## What is proved

* `SqliteCursor.Sides.Settles.run`: what it means that all runs settle in a state.
* **`SqliteCursor.fetch_settles`**: a fetch settles with what `SqliteCursor.fetch` gives.
* **`SqliteCursor.fetches_serve`**, `SqliteCursor.serves_of_mapM`: so do any number of fetches.
* **`SqliteCursor.finish_settles`**: a cursor that is dropped waits for its worker to leave.
-/

namespace SqlRecords

open Sqlite

namespace SqliteCursor

namespace Sides

/-! ### All runs -/

/-- Some steps of the sides, one after the other. -/
abbrev Steps : Sides → Sides → Prop := Relation.ReflTransGen Step

/-- However the sides take turns, they come to this state and stop there, and the call does not
return before. -/
inductive Settles (final : Sides) : Sides → Prop where
  | rest : (∀ t, ¬Step final t) → Settles final final
  | step {s : Sides} : (∀ outcome, s.call ≠ .returned outcome) → (∃ t, Step s t) →
      (∀ t, Step s t → Settles final t) → Settles final s

variable {final s t u : Sides}

theorem Settles.of_steps (h : Settles final s) (hsteps : Steps s t) : Settles final t := by
  induction hsteps with
  | refl => exact h
  | tail _ hstep ih =>
    cases ih with
    | rest hstop => exact absurd hstep (hstop _)
    | step _ _ hall => exact hall _ hstep

theorem Settles.steps (h : Settles final s) : Steps s final := by
  induction h with
  | rest => exact .refl
  | step _ hstep _ ih =>
    obtain ⟨t, ht⟩ := hstep
    exact .head ht (ih t ht)

/-- A run can be led to the end from wherever it is. As long as it is not there, some side can take
a step, and the call has not returned. -/
theorem Settles.run (h : Settles final s) (hsteps : Steps s t) :
    Steps t final ∧ (t = final ∨ (∃ u, Step t u) ∧ ∀ outcome, t.call ≠ .returned outcome) := by
  have hthen : Settles final t := h.of_steps hsteps
  refine ⟨hthen.steps, ?_⟩
  cases hthen with
  | rest => exact .inl rfl
  | step hbusy hstep _ => exact .inr ⟨hstep, hbusy⟩

theorem Settles.stopped (hcall : s.callStep = none) (hworker : s.workerStep = none) : Settles s s :=
  .rest fun t ht => by simp [Step, hcall, hworker] at ht

theorem not_returned_of_callStep (hcall : s.callStep = some t) (outcome : Result (List Row)) :
    s.call ≠ .returned outcome := fun hreturned => by
  simp [callStep, hreturned] at hcall

/-- Only the cursor can take a step. -/
theorem Settles.call (hcall : s.callStep = some t) (hworker : s.workerStep = none)
    (h : Settles final t) : Settles final s :=
  .step (not_returned_of_callStep hcall) ⟨t, .inl hcall⟩ fun u hu => by
    simp only [Step, hcall, hworker, Option.some.injEq, reduceCtorEq, or_false] at hu
    exact hu ▸ h

/-- Only the worker can. -/
theorem Settles.worker (hbusy : ∀ outcome, s.call ≠ .returned outcome) (hcall : s.callStep = none)
    (hworker : s.workerStep = some t) (h : Settles final t) : Settles final s :=
  .step hbusy ⟨t, .inr hworker⟩ fun u hu => by
    simp only [Step, hcall, hworker, Option.some.injEq, reduceCtorEq, false_or] at hu
    exact hu ▸ h

/-- Both can. -/
theorem Settles.both (hcall : s.callStep = some t) (hworker : s.workerStep = some u)
    (ht : Settles final t) (hu : Settles final u) : Settles final s :=
  .step (not_returned_of_callStep hcall) ⟨t, .inl hcall⟩ fun v hv => by
    simp only [Step, hcall, hworker, Option.some.injEq] at hv
    rcases hv with rfl | rfl
    · exact ht
    · exact hu

/-! ### The end of the worker -/

/-- Both sides of a cursor that is done. -/
def closed (outcome : Result (List Row)) : Sides :=
  ⟨.returned outcome, true, false, none, none, .left⟩

/-- A cursor that joins its worker waits for it to leave. -/
theorem settles_joining_left (outcome : Result (List Row)) :
    Settles (closed outcome) ⟨.joining outcome, true, false, none, none, .left⟩ :=
  .call rfl rfl (.stopped rfl rfl)

theorem settles_joining_leaving (outcome : Result (List Row)) :
    Settles (closed outcome) ⟨.joining outcome, true, false, none, none, .leaving⟩ :=
  .worker (by simp) rfl rfl (settles_joining_left outcome)

/-- A worker that waits for a request finds the channel closed. -/
theorem settles_joining_waiting (outcome : Result (List Row)) (results : Results) :
    Settles (closed outcome) ⟨.joining outcome, true, false, none, none, .waiting results⟩ :=
  .worker (by simp) rfl rfl (settles_joining_leaving outcome)

/-! ### Answers -/

/-- Both sides of a cursor that can go on. -/
def opened (outcome : Result (List Row)) (results : Results) : Sides :=
  ⟨.returned outcome, false, true, none, none, .waiting results⟩

/-- Behind an answer that nothing comes after, the worker leaves before the answer is taken or
behind it. -/
theorem settles_answering_last (a : Answer) (hlast : a.isLast = true) (results : Results) :
    Settles (closed a.rows) ⟨.listening, false, true, none, none, .answering a results⟩ := by
  have hleft : Settles (closed a.rows) ⟨.listening, false, true, none, some a, .left⟩ :=
    .call (by simp [callStep, hlast, finish]) rfl (settles_joining_left a.rows)
  -- The answer is on its way, and both sides can take a step.
  have hleaving : Settles (closed a.rows) ⟨.listening, false, true, none, some a, .leaving⟩ :=
    .both (by simp [callStep, hlast, finish]) rfl (settles_joining_leaving a.rows) hleft
  exact .worker (by simp) rfl (by simp [workerStep, hlast]) hleaving

/-- Behind another one it waits for the next request. -/
theorem settles_answering (a : Answer) (hmore : a.isLast = false) (results : Results) :
    Settles (opened a.rows results) ⟨.listening, false, true, none, none, .answering a results⟩ := by
  have hwaiting : Settles (opened a.rows results)
      ⟨.listening, false, true, none, some a, .waiting results⟩ :=
    .call (by simp [callStep, hmore, opened]) rfl (.stopped rfl rfl)
  exact .worker (by simp) rfl (by simp [workerStep, hmore]) hwaiting

end Sides

/-! ### Fetches -/

open Sides

variable {δ : Type} {c : SqliteCursor δ}

theorem sides_of_done (h : c.done = true) (call : Call) :
    c.sides call = ⟨call, true, false, none, none, .left⟩ := if_pos h

theorem sides_of_going (h : c.done = false) (call : Call) :
    c.sides call = ⟨call, false, true, none, none, .waiting c.results⟩ :=
  if_neg (Bool.eq_false_iff.mp h)

/-- A batch that the worker has read comes back as what the fetch gives. -/
theorem settles_read (hdone : c.done = false) (size : Nat) :
    ∃ outcome after, Action.attempt (fetch size) c = .ok outcome after ∧
      Settles (after.sides (.returned outcome))
        ⟨.listening, false, true, none, none, .read size c.results⟩ := by
  have hgoing : ¬c.done = true := Bool.eq_false_iff.mp hdone
  rw [Action.attempt, fetch, if_neg hgoing, Worker.read]
  cases nextBatch size c.results with
  | ok batch =>
    obtain ⟨rows, rest, atEnd⟩ := batch
    refine ⟨_, _, rfl, ?_⟩
    cases atEnd with
    | true => exact settles_answering_last (.ok (rows, true)) rfl rest
    | false => exact settles_answering (.ok (rows, false)) rfl rest
  | error e => exact ⟨_, _, rfl, settles_answering_last (.error e) rfl c.results⟩

/-- **A fetch settles**, always with what `SqliteCursor.fetch` gives, however the cursor and its
worker take turns. -/
theorem fetch_settles (c : SqliteCursor δ) (size : Nat) :
    ∃ outcome after, Action.attempt (fetch size) c = .ok outcome after ∧
      Settles (after.sides (.returned outcome)) (c.sides (.asking size)) := by
  cases hdone : c.done with
  | true =>
    have hfetch : fetch size c = .ok [] c := if_pos hdone
    refine ⟨.ok [], c, ?_, ?_⟩
    · rw [Action.attempt, hfetch]
    · rw [sides_of_done hdone, sides_of_done hdone]
      exact .call rfl rfl (.stopped rfl rfl)
  | false =>
    obtain ⟨outcome, after, hfetch, hread⟩ := settles_read hdone size
    have hasked : Settles (after.sides (.returned outcome))
        ⟨.listening, false, true, some size, none, .waiting c.results⟩ :=
      .worker (by simp) rfl rfl hread
    refine ⟨outcome, after, hfetch, ?_⟩
    rw [sides_of_going hdone]
    exact .call rfl rfl hasked

/-- Fetches of these sizes, each called when the one before has returned, always give these
outcomes. -/
inductive Serves : Sides → List Nat → List (Result (List Row)) → Sides → Prop where
  | nil (s : Sides) : Serves s [] [] s
  | cons {s t u : Sides} {size : Nat} {sizes : List Nat} {outcome : Result (List Row)}
      {outcomes : List (Result (List Row))} : Settles t { s with call := .asking size } →
      t.call = .returned outcome → Serves t sizes outcomes u →
      Serves s (size :: sizes) (outcome :: outcomes) u

@[simp] theorem call_sides (c : SqliteCursor δ) (call : Call) : (c.sides call).call = call := by
  unfold sides
  split <;> rfl

@[simp] theorem recall_sides (c : SqliteCursor δ) (call call' : Call) :
    { c.sides call with call := call' } = c.sides call' := by
  unfold sides
  split <;> rfl

/-- **Any number of fetches** give what `SqliteCursor.fetch` does, one after the other, however the
cursor and its worker take turns. -/
theorem fetches_serve (c : SqliteCursor δ) (call : Call) (sizes : List Nat) :
    ∃ outcomes after, (sizes.mapM fun size => Action.attempt (fetch size)) c = .ok outcomes after ∧
      ∃ call', Serves (c.sides call) sizes outcomes (after.sides call') := by
  induction sizes generalizing c call with
  | nil => exact ⟨[], c, rfl, call, .nil _⟩
  | cons size sizes ih =>
    obtain ⟨outcome, mid, hfetch, hsettles⟩ := fetch_settles c size
    obtain ⟨outcomes, after, hrun, call', hserves⟩ := ih mid (.returned outcome)
    rw [← recall_sides c call] at hsettles
    exact ⟨outcome :: outcomes, after, mapM_cons_eq_ok_iff.mpr ⟨_, _, _, hfetch, hrun, rfl⟩, call',
      .cons hsettles (call_sides mid _) hserves⟩

/-- Fetches that succeed give the batches as their outcomes. -/
theorem mapM_attempt {sizes : List Nat} {batches : List (List Row)} {after : SqliteCursor δ}
    (h : sizes.mapM fetch c = .ok batches after) :
    (sizes.mapM fun size => Action.attempt (fetch size)) c = .ok (batches.map .ok) after := by
  induction sizes generalizing c batches with
  | nil =>
    cases h
    rfl
  | cons size sizes ih =>
    obtain ⟨rows, mid, rest, hfirst, hrest, rfl⟩ := mapM_cons_eq_ok_iff.mp h
    have hattempt : Action.attempt (fetch size) c = .ok (.ok rows) mid := by
      rw [Action.attempt, hfirst]
    exact mapM_cons_eq_ok_iff.mpr ⟨_, _, _, hattempt, ih hrest, rfl⟩

@[simp] theorem done_sides (c : SqliteCursor δ) (call : Call) : (c.sides call).done = c.done := by
  unfold sides
  split
  · next h => exact h.symm
  · next h => exact (Bool.eq_false_iff.mpr h).symm

/-- Fetches that succeed do so however the two sides take turns. -/
theorem serves_of_mapM {sizes : List Nat} {batches : List (List Row)} {after : SqliteCursor δ}
    (h : sizes.mapM fetch c = .ok batches after) (call : Call) :
    ∃ t, Serves (c.sides call) sizes (batches.map .ok) t ∧ t.done = after.done := by
  obtain ⟨outcomes, after', hrun, call', hserves⟩ := fetches_serve c call sizes
  cases hrun.symm.trans (mapM_attempt h)
  exact ⟨_, hserves, done_sides after call'⟩

/-- **A cursor that is dropped** waits for its worker to leave. -/
theorem finish_settles (c : SqliteCursor δ) (call : Call) (outcome : Result (List Row)) :
    Settles (closed outcome) ((c.sides call).finish outcome) := by
  cases hdone : c.done with
  | true =>
    rw [sides_of_done hdone]
    exact settles_joining_left outcome
  | false =>
    rw [sides_of_going hdone]
    exact settles_joining_waiting outcome c.results

end SqliteCursor

end SqlRecords
