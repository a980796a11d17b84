import SqlRecords.Connection.Scripted
import SqlRecords.Proofs.Session.Coherence

/-!
# What a transaction passes on to its connection

A `Transaction` is asked to begin, to commit and to roll back, in any order, and passes a
request on only if it fits: begin when it is closed, the others when it is open. Any call
that is passed on may fail. A failed commit leaves the transaction open and a failed
rollback does not, so what the connection has received depends on the whole history.

`Watched α` is a connection, or a cursor, together with the calls about transactions that
it has received. It passes all calls on to a connection of which nothing is known, so its
calls may succeed and fail in any pattern.

## What is proved

* `Transaction.ask_eq_of_fits`, `Transaction.ask_eq_of_not_fits`: a request that fits is the
  connection's call, and another one is refused.
* `Within.forward`: a call that fits keeps the calls in their brackets, whether or not it fails.
* **`Transaction.run_brackets`**: whatever is asked and whatever fails, the calls received
  are whole transactions once the transaction is dropped. Each begins once, is tried to
  commit any number of times, and is closed once; dropping closes the last one if it is open.
-/

namespace SqlRecords

open Session (Request)

/-! ### Connections that are watched -/

/-- A call that was passed on to a connection, and whether it succeeded. -/
structure Forwarded where
  /-- What was asked for. -/
  request : Request
  /-- It succeeded. -/
  succeeded : Bool

/-- A connection or a cursor, and the calls about transactions that the connection received, the
first one first. -/
structure Watched (α : Type) where
  /-- What is watched. -/
  inner : α
  /-- The calls. -/
  calls : List Forwarded

namespace Watched

variable {α β σ κ : Type}

/-- Passes a call on. -/
def passOn (a : Action α β) : Action (Watched α) β :=
  Action.onPart inner (fun w inner => { w with inner }) a

/-- Passes a call about transactions on and writes it down. -/
def watch (r : Request) (a : Action α Unit) : Action (Watched α) Unit := fun w =>
  match a w.inner with
  | .ok () inner => .ok () ⟨inner, w.calls ++ [⟨r, true⟩]⟩
  | .error e inner => .error e ⟨inner, w.calls ++ [⟨r, false⟩]⟩

instance [Cursor κ] : Cursor (Watched κ) where
  fetch size := passOn (Cursor.fetch size)
  isDone w := Cursor.isDone w.inner
  remaining w := Cursor.remaining w.inner

instance [Connection σ κ] : Connection (Watched σ) (Watched κ) where
  dialect w := Connection.dialect w.inner
  beginTransaction := watch .begin Connection.beginTransaction
  commit := watch .commit Connection.commit
  rollback := watch .rollback Connection.rollback
  execute s := passOn (Connection.execute s)
  executeText sql := passOn (Connection.executeText sql)
  insert i rows := passOn (Connection.insert i rows)
  startWrite w := passOn (Connection.startWrite w)
  write rows := passOn (Connection.write rows)
  endWrite := passOn Connection.endWrite
  query q w :=
    match Connection.query q w.inner with
    | .ok cursor => .ok ⟨cursor, w.calls⟩
    | .error (e, inner) => .error (e, ⟨inner, w.calls⟩)
  close w := ⟨Connection.close w.inner, w.calls⟩

/-- A call is written down with its outcome. -/
theorem calls_watch (r : Request) (a : Action α Unit) (w : Watched α) :
    ((watch r a).outcome w).2.calls = w.calls ++ [⟨r, ((watch r a).outcome w).1.isOk⟩] := by
  simp only [Action.outcome, watch]
  cases a w.inner <;> rfl

end Watched

/-! ### What a transaction is asked -/

namespace Transaction

variable {σ κ : Type} [Connection σ κ]

/-- Asks something of a transaction. -/
def ask : Request → Action (Transaction σ) Unit
  | .begin => beginTransaction
  | .commit => commit
  | .rollback => rollback

/-- Asks for some things, one after the other, whichever of them fail. -/
def run (t : Transaction σ) (requests : List Request) : Transaction σ :=
  requests.foldl (fun t r => ((ask r).outcome t).2) t

/-- The call of the connection that a request stands for. -/
def forward : Request → Action σ Unit
  | .begin => Connection.beginTransaction
  | .commit => Connection.commit
  | .rollback => Connection.rollback

end Transaction

namespace Session.Request

/-- A transaction is begun when it is closed, and ended when it is open. -/
def fits (isOpen : Bool) : Request → Bool
  | .begin => !isOpen
  | .commit | .rollback => isOpen

/-- Whether the transaction is open behind a call that succeeded or not. A rollback closes it either
way. -/
def isOpenBehind (succeeded : Bool) : Request → Bool
  | .begin => succeeded
  | .commit => !succeeded
  | .rollback => false

/-- Why a request that does not fit is refused. -/
def refusal : Request → Error
  | .begin => Transaction.alreadyOpen
  | .commit => Transaction.commitClosed
  | .rollback => Transaction.rollbackClosed

theorem kind_refusal (r : Request) : r.refusal.kind = .protocol := by
  cases r <;> rfl

end Session.Request

namespace Transaction

variable {σ κ : Type} [Connection σ κ]

/-- A request that fits is the call of the connection. -/
theorem ask_eq_of_fits {r : Request} {t : Transaction σ} (h : r.fits t.isOpen = true) :
    (ask r).outcome t =
      (((forward r).outcome t.connection).1, ⟨((forward r).outcome t.connection).2,
        r.isOpenBehind ((forward r).outcome t.connection).1.isOk⟩) := by
  obtain ⟨c, isOpen⟩ := t
  refine ensures_iff_outcome (p := fun o => o = _) |>.mp ?_
  cases r with
  | begin =>
    obtain rfl : isOpen = false := by simpa [Request.fits] using h
    simp only [ask, beginTransaction, onConnection, ensures_bind, ensures_get, Bool.false_eq_true,
      if_false, ensures_onPart, ensures_modify]
    simp only [Ensures, forward, Action.outcome]
    cases (Connection.beginTransaction : Action σ Unit) c <;> rfl
  | commit =>
    obtain rfl : isOpen = true := h
    simp only [ask, commit, onConnection, ensures_bind, ensures_get, if_true, ensures_onPart,
      ensures_modify]
    simp only [Ensures, forward, Action.outcome]
    cases (Connection.commit : Action σ Unit) c <;> rfl
  | rollback =>
    obtain rfl : isOpen = true := h
    simp only [ask, rollback, onConnection, ensures_bind, ensures_get, if_true, ensures_onPart,
      ensures_modify]
    simp only [Ensures, forward, Action.outcome]
    cases (Connection.rollback : Action σ Unit) c <;> rfl

/-- A request that does not fit is refused, and nothing changes. -/
theorem ask_eq_of_not_fits {r : Request} {t : Transaction σ} (h : r.fits t.isOpen = false) :
    (ask r).outcome t = (.error r.refusal, t) := by
  obtain ⟨c, isOpen⟩ := t
  cases r with
  | begin =>
    obtain rfl : isOpen = true := by simpa [Request.fits] using h
    rfl
  | commit =>
    obtain rfl : isOpen = false := h
    rfl
  | rollback =>
    obtain rfl : isOpen = false := h
    rfl

end Transaction

/-! ### Whole transactions -/

/-- The call ends a transaction: it is a commit that succeeded, or any rollback. -/
def Forwarded.Closes (f : Forwarded) : Prop := f = ⟨.commit, true⟩ ∨ f.request = .rollback

/-- A transaction that was begun and then tried to commit so many times. -/
def begun (n : Nat) : List Forwarded := ⟨.begin, true⟩ :: List.replicate n ⟨.commit, false⟩

/-- The calls are whole transactions, one behind the other, with begins that failed between them. -/
inductive Bracketed : List Forwarded → Prop where
  | nil : Bracketed []
  | failed {sent : List Forwarded} : Bracketed sent → Bracketed (sent ++ [⟨.begin, false⟩])
  | closed {sent : List Forwarded} (n : Nat) {close : Forwarded} :
      Bracketed sent → close.Closes → Bracketed (sent ++ begun n ++ [close])

/-- The calls are whole transactions, and behind them one that is not closed if it `isOpen`. -/
def Within (sent : List Forwarded) : (isOpen : Bool) → Prop
  | false => Bracketed sent
  | true => ∃ done n, Bracketed done ∧ sent = done ++ begun n

/-- A call that fits keeps the calls in their brackets. -/
theorem Within.forward {sent : List Forwarded} {isOpen : Bool} (h : Within sent isOpen)
    {r : Request} (hr : r.fits isOpen = true) (succeeded : Bool) :
    Within (sent ++ [⟨r, succeeded⟩]) (r.isOpenBehind succeeded) := by
  cases r with
  | begin =>
    obtain rfl : isOpen = false := by simpa [Request.fits] using hr
    cases succeeded with
    | true => exact ⟨sent, 0, h, rfl⟩
    | false => exact .failed h
  | commit =>
    obtain rfl : isOpen = true := hr
    obtain ⟨done, n, hdone, rfl⟩ := h
    cases succeeded with
    | true => exact .closed n hdone (.inl rfl)
    | false =>
      refine ⟨done, n + 1, hdone, ?_⟩
      rw [begun, begun, List.replicate_succ', List.append_assoc, List.cons_append]
  | rollback =>
    obtain rfl : isOpen = true := hr
    obtain ⟨done, n, hdone, rfl⟩ := h
    exact .closed n hdone (.inr rfl)

namespace Transaction

variable {σ κ : Type} [Connection σ κ] {c : Watched σ} {t : Transaction (Watched σ)}

/-- The connection writes down what is passed on to it. -/
theorem forward_watched (r : Request) :
    (forward r : Action (Watched σ) Unit) = Watched.watch r (forward r) := by
  cases r <;> rfl

/-- A request that fits is passed on once, with the outcome that it has. -/
theorem calls_ask {r : Request} (h : r.fits t.isOpen = true) :
    ((ask r).outcome t).2.connection.calls =
      t.connection.calls ++ [⟨r, ((ask r).outcome t).1.isOk⟩] := by
  rw [ask_eq_of_fits h, forward_watched, Watched.calls_watch]

/-- A transaction that is dropped is rolled back once if it is open. -/
theorem calls_drop :
    t.drop.calls = t.connection.calls ++
      (if t.isOpen then [⟨.rollback, ((ask .rollback).outcome t).1.isOk⟩] else []) := by
  obtain ⟨c, isOpen⟩ := t
  cases isOpen with
  | false => exact (List.append_nil _).symm
  | true =>
    rw [ask_eq_of_fits rfl]
    exact Watched.calls_watch .rollback Connection.rollback c

/-- A transaction made of a connection: nothing was begun on it, or one was begun at once. -/
def MadeOf (t : Transaction σ) (c : σ) : Prop := t = ofConnection c ∨ begin c = .ok t

/-- The calls since those `before` tell whether the transaction is open. -/
def Tells (before : List Forwarded) (t : Transaction (Watched σ)) : Prop :=
  ∃ sent, t.connection.calls = before ++ sent ∧ Within sent t.isOpen

/-- Whatever is asked, and whether or not it fails, the calls go on telling. -/
theorem Tells.ask {before : List Forwarded} (h : Tells before t) (r : Request) :
    Tells before ((ask r).outcome t).2 := by
  obtain ⟨sent, hcalls, hwithin⟩ := h
  cases hr : r.fits t.isOpen with
  | false =>
    rw [ask_eq_of_not_fits hr]
    exact ⟨sent, hcalls, hwithin⟩
  | true =>
    refine ⟨sent ++ [⟨r, ((Transaction.ask r).outcome t).1.isOk⟩], ?_, ?_⟩
    · rw [calls_ask hr, hcalls, List.append_assoc]
    · have hbehind := hwithin.forward hr ((Transaction.ask r).outcome t).1.isOk
      rw [ask_eq_of_fits hr] at hbehind ⊢
      exact hbehind

theorem Tells.run {before : List Forwarded} (h : Tells before t) (requests : List Request) :
    Tells before (t.run requests) := by
  induction requests generalizing t with
  | nil => exact h
  | cons r rest ih => exact ih (h.ask r)

/-- A transaction that was made has passed on nothing, or the begin that it was made with. -/
theorem MadeOf.tells (h : t.MadeOf c) : Tells c.calls t := by
  have hmade : Tells c.calls (ofConnection c) := ⟨[], (List.append_nil _).symm, .nil⟩
  rcases h with rfl | h
  · exact hmade
  · -- what was made is what a new transaction becomes when it is asked to begin
    suffices t = ((Transaction.ask .begin).outcome (ofConnection c)).2 from this ▸ hmade.ask .begin
    simp only [begin] at h
    split at h
    · next hb =>
      cases h
      simp only [Transaction.ask, Action.outcome, hb]
    · cases h

/-- **A transaction brackets its calls.** Make a transaction of a connection and ask it for
anything, in any order; the connection may fail any of the calls. The calls that it receives tell
whether the transaction is open, they are whole transactions once it is dropped, and dropping it
adds a rollback if it is open and nothing if it is not. Whatever is asked for next is passed on once
if it fits, and is otherwise refused as a misuse of the protocol, which changes nothing. -/
theorem run_brackets (h : t.MadeOf c) (requests : List Request) :
    let u := t.run requests
    Tells c.calls u ∧
    (∃ sent, u.drop.calls = c.calls ++ sent ∧ Bracketed sent) ∧
    u.drop.calls = u.connection.calls ++
      (if u.isOpen then [⟨.rollback, ((ask .rollback).outcome u).1.isOk⟩] else []) ∧
    ∀ r : Request,
      if r.fits u.isOpen then
        ((ask r).outcome u).2.connection.calls =
          u.connection.calls ++ [⟨r, ((ask r).outcome u).1.isOk⟩]
      else
        ∃ e : Error, e.kind = .protocol ∧ (ask r).outcome u = (.error e, u) := by
  intro u
  have htells : Tells c.calls u := h.tells.run requests
  refine ⟨htells, ?_, calls_drop, fun r => ?_⟩
  · obtain ⟨sent, hcalls, hwithin⟩ := htells
    rw [calls_drop, hcalls]
    cases hopen : u.isOpen with
    | false =>
      rw [hopen] at hwithin
      exact ⟨sent, List.append_nil _, hwithin⟩
    | true =>
      rw [hopen] at hwithin
      exact ⟨_, List.append_assoc .., hwithin.forward (r := .rollback) rfl _⟩
  · cases hr : r.fits u.isOpen with
    | true => exact calls_ask hr
    | false => exact ⟨r.refusal, r.kind_refusal, ask_eq_of_not_fits hr⟩

/-- A transaction whose commits fail stays open and is rolled back when it is dropped. -/
theorem run_brackets_unfinished :
    let c : Watched Scripted := ⟨{ Scripted.ofDialect .sqlite with failing := ["commit"] }, []⟩
    ∃ t, begin c = .ok t ∧
      Bracketed (t.run [.commit, .begin, .commit]).drop.calls ∧
      (t.run [.commit, .begin, .commit]).drop.calls =
        [⟨.begin, true⟩, ⟨.commit, false⟩, ⟨.commit, false⟩, ⟨.rollback, true⟩] := by
  intro c
  refine ⟨⟨(Connection.beginTransaction.outcome c).2, true⟩, rfl, ?_, rfl⟩
  obtain ⟨sent, hcalls, hsent⟩ := (run_brackets (c := c) (.inr rfl) [.commit, .begin, .commit]).2.1
  exact hcalls ▸ hsent

end Transaction

end SqlRecords
