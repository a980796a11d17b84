import SqlRecords.Connection.Basic

/-!
# What an action ensures

An action that can fail has two ends, and a failed one still leaves a state behind.
`Ensures a s ok error` says of a run of `a` from `s` that it ends in `ok` if it
succeeds and in `error` if it fails; as a run always ends, this says what happens and
not only what would be right. Each way to put actions together has a rule that takes
`Ensures` of the whole apart into `Ensures` of the parts, so that a proof follows the
text of the action.
-/

namespace SqlRecords

variable {ε σ τ α β : Type}

/-- From a state, an action ends in `ok` if it succeeds and in `error` if it fails. -/
def Ensures (a : EStateM ε σ α) (s : σ) (ok : α → σ → Prop) (error : ε → σ → Prop) : Prop :=
  match a s with
  | .ok x t => ok x t
  | .error e t => error e t

variable {s : σ} {ok : α → σ → Prop} {error : ε → σ → Prop}

theorem Ensures.mono {a : EStateM ε σ α} {ok' : α → σ → Prop} {error' : ε → σ → Prop}
    (h : Ensures a s ok error) (hok : ∀ x t, ok x t → ok' x t)
    (herror : ∀ e t, error e t → error' e t) : Ensures a s ok' error' := by
  unfold Ensures at h ⊢
  cases ha : a s with
  | ok x t => rw [ha] at h; exact hok x t h
  | error e t => rw [ha] at h; exact herror e t h

/-- Two ends that are both certain are certain together. -/
theorem Ensures.and {a : EStateM ε σ α} {ok' : α → σ → Prop} {error' : ε → σ → Prop}
    (h : Ensures a s ok error) (h' : Ensures a s ok' error') :
    Ensures a s (fun x t => ok x t ∧ ok' x t) (fun e t => error e t ∧ error' e t) := by
  unfold Ensures at h h' ⊢
  cases ha : a s with
  | ok x t => rw [ha] at h h'; exact ⟨h, h'⟩
  | error e t => rw [ha] at h h'; exact ⟨h, h'⟩

/-! ### Rules -/

@[simp] theorem ensures_pure (x : α) : Ensures (pure x : EStateM ε σ α) s ok error ↔ ok x s := Iff.rfl

@[simp] theorem ensures_throw (e : ε) : Ensures (throw e : EStateM ε σ α) s ok error ↔ error e s :=
  Iff.rfl

@[simp] theorem ensures_get {ok : σ → σ → Prop} :
    Ensures (get : EStateM ε σ σ) s ok error ↔ ok s s := Iff.rfl

@[simp] theorem ensures_modify (f : σ → σ) {ok : PUnit → σ → Prop} :
    Ensures (modify f : EStateM ε σ PUnit) s ok error ↔ ok ⟨⟩ (f s) := Iff.rfl

/-- One action behind another: the second begins where the first succeeded. -/
@[simp] theorem ensures_bind (a : EStateM ε σ α) (f : α → EStateM ε σ β) {ok : β → σ → Prop} :
    Ensures (a >>= f) s ok error ↔ Ensures a s (fun x t => Ensures (f x) t ok error) error := by
  simp only [Ensures, bind, EStateM.bind]
  cases a s <;> rfl

@[simp] theorem ensures_ofResult (r : Result α) {error : Error → σ → Prop} :
    Ensures (Action.ofResult r) s ok error ↔
      (∀ x, r = .ok x → ok x s) ∧ ∀ e, r = .error e → error e s := by
  cases r <;> simp [Ensures, Action.ofResult]

/-- An attempt succeeds whatever the outcome. -/
@[simp] theorem ensures_attempt (a : Action σ α) {ok : Result α → σ → Prop}
    {error : Error → σ → Prop} :
    Ensures a.attempt s ok error ↔ Ensures a s (fun x t => ok (.ok x) t) (fun e t => ok (.error e) t) := by
  simp only [Ensures, Action.attempt]
  cases a s <;> rfl

@[simp] theorem ensures_ignore (a : Action σ α) {ok : Unit → σ → Prop} {error : Error → σ → Prop} :
    Ensures a.ignore s ok error ↔ Ensures a s (fun _ t => ok () t) (fun _ t => ok () t) := by
  simp only [Action.ignore, ensures_bind, ensures_attempt, ensures_pure]

@[simp] theorem ensures_onPart (get : τ → σ) (put : τ → σ → τ) (a : Action σ α) {t : τ}
    {ok : α → τ → Prop} {error : Error → τ → Prop} :
    Ensures (Action.onPart get put a) t ok error ↔
      Ensures a (get t) (fun x s => ok x (put t s)) (fun e s => error e (put t s)) := by
  simp only [Ensures, Action.onPart]
  cases a (get t) <;> rfl

/-! ### Outcomes -/

/-- What is ensured of an action that has succeeded. -/
theorem Ensures.of_ok {a : EStateM ε σ α} (h : Ensures a s ok error) {x : α} {t : σ}
    (hrun : a s = .ok x t) : ok x t := by
  rwa [Ensures, hrun] at h

/-- What is ensured of an action that has failed. -/
theorem Ensures.of_error {a : EStateM ε σ α} (h : Ensures a s ok error) {e : ε} {t : σ}
    (hrun : a s = .error e t) : error e t := by
  rwa [Ensures, hrun] at h

/-- An action that cannot fail succeeds. -/
theorem Ensures.exists_ok {a : EStateM ε σ α} (h : Ensures a s ok fun _ _ => False) :
    ∃ x t, a s = .ok x t ∧ ok x t := by
  unfold Ensures at h
  cases ha : a s with
  | ok x t =>
    rw [ha] at h
    exact ⟨x, t, rfl, h⟩
  | error e t =>
    rw [ha] at h
    exact h.elim

/-- Actions for the members of a list succeed if the first does and then the others do. -/
theorem mapM_cons_eq_ok_iff {f : α → EStateM ε σ β} {x : α} {xs : List α} {zs : List β} {u : σ} :
    (x :: xs).mapM f s = .ok zs u ↔
      ∃ y t ys, f x s = .ok y t ∧ xs.mapM f t = .ok ys u ∧ y :: ys = zs := by
  rw [List.mapM_cons]
  simp only [bind, EStateM.bind]
  constructor
  · intro h
    cases hfirst : f x s with
    | error e t =>
      rw [hfirst] at h
      cases h
    | ok y t =>
      cases hrest : xs.mapM f t with
      | error e u =>
        simp only [hfirst, hrest] at h
        cases h
      | ok ys u =>
        simp only [hfirst, hrest] at h
        cases h
        exact ⟨y, t, ys, rfl, hrest, rfl⟩
  · rintro ⟨y, t, ys, hfirst, hrest, rfl⟩
    simp only [hfirst, hrest]
    rfl

/-- What is said of both ends is said of the outcome. -/
theorem ensures_iff_outcome {a : Action σ α} {p : Result α × σ → Prop} :
    Ensures a s (fun x t => p (.ok x, t)) (fun e t => p (.error e, t)) ↔ p (a.outcome s) := by
  simp only [Ensures, Action.outcome]
  cases a s <;> rfl

/-- What is ensured either way holds of the state behind the action. -/
theorem Ensures.state {a : Action σ α} {p : σ → Prop}
    (h : Ensures a s (fun _ t => p t) (fun _ t => p t)) : p (a.outcome s).2 :=
  ensures_iff_outcome (p := fun o => p o.2) |>.mp h

end SqlRecords
