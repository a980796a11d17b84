import SqlRecords.Proofs.Connection.Ensures
import SqlRecords.Session.Pool

/-!
# Each connection of a pool has one session at a time

A `Lending` is a pool with the sessions that hold its connections. A session is known by
its number among those that are live, never by its slot: that no two of them hold the same
slot is to be proved. A `Move` acquires a session, does something on the connection of one,
or drops one; a move that cannot be made changes nothing.

## What is proved

* `Pool.create_opens`: the connections of a new pool, or where the factory stopped.
* `Pool.grants`: which connection is lent out, and when there is none.
* `Lending.step_goes`: where a move leads.
* `Lending.Exclusive.step`: what it keeps.
* **`Lending.run_exclusive`**: at any time the sessions hold different slots, just these are lent out,
  and each connection is what the sessions that held it made of it, one after the other.
-/

namespace SqlRecords

namespace Pool

variable {σ φ α : Type} {n : Nat} {p : Pool σ n}

/-! ### Slots -/

/-- The connection of a slot. -/
def connection (p : Pool σ n) (l : Lease n) : σ := (p.slots.get l).connection

/-- A slot is free, and all before it are lent out. -/
def IsFirstFree (p : Pool σ n) (l : Lease n) : Prop :=
  p.isLeased l = false ∧ ∀ k < l, p.isLeased k = true

theorem isLeased_eq (p : Pool σ n) (l : Lease n) : p.isLeased l = (p.slots.get l).leased := rfl

theorem slots_set (l k : Lease n) (slot : Slot σ) :
    (p.slots.set l slot l.isLt).get k = if k = l then slot else p.slots.get k := by
  have hget (slots : Vector (Slot σ) n) : slots.get k = slots[k] := rfl
  simp [hget, Vector.getElem_set, Fin.ext_iff, eq_comm]

@[simp] theorem isLeased_mark (l k : Lease n) (leased : Bool) :
    (p.mark l leased).isLeased k = if k = l then leased else p.isLeased k := by
  simp only [isLeased_eq, mark, slots_set]
  split <;> rfl

@[simp] theorem connection_mark (l k : Lease n) (leased : Bool) :
    (p.mark l leased).connection k = p.connection k := by
  simp only [connection, mark, slots_set]
  split
  · next h => exact h ▸ rfl
  · rfl

/-- What is done on a connection has the outcome that it has there, and puts back what it made of
the connection. -/
theorem outcome_onLease (l : Lease n) (a : Action σ α) :
    (onLease l a).outcome p = ((a.outcome (p.connection l)).1,
      { p with
        slots := p.slots.set l
          { p.slots.get l with connection := (a.outcome (p.connection l)).2 } l.isLt }) := by
  have hget : p.slots.get l = p.slots[l] := rfl
  simp only [onLease, Action.onPart, Action.outcome, connection, hget]
  cases a p.slots[l].connection <;> rfl

/-- It changes this connection and no other, -/
theorem connection_onLease (l k : Lease n) (a : Action σ α) :
    ((onLease l a).outcome p).2.connection k =
      if k = l then (a.outcome (p.connection l)).2 else p.connection k := by
  rw [outcome_onLease]
  simp only [connection, slots_set]
  split <;> rfl

/-- and lends nothing out. -/
theorem isLeased_onLease (l k : Lease n) (a : Action σ α) :
    ((onLease l a).outcome p).2.isLeased k = p.isLeased k := by
  rw [outcome_onLease]
  simp only [isLeased_eq, slots_set]
  split
  · next h => rw [h]
  · rfl

/-! ### Opening -/

/-- The factory is called once for each of some connections, and gives them in this order. -/
inductive Opens (factory : Action φ σ) : φ → List σ → φ → Prop where
  /-- It is not called. -/
  | none (world : φ) : Opens factory world [] world
  /-- It is called once more. -/
  | more {world between world' : φ} {connections : List σ} {connection : σ}
    (hbefore : Opens factory world connections between)
    (hcall : factory between = .ok connection world') :
    Opens factory world (connections ++ [connection]) world'

theorem openSlots_ensures (factory : Action φ σ) (world : φ) : ∀ n : Nat,
    Ensures (openSlots factory n) world
      (fun slots world' => Opens factory world (slots.toList.map Slot.connection) world' ∧
        ∀ slot ∈ slots.toList, slot.leased = false)
      (fun e world' => ∃ connections between, Opens factory world connections between ∧
        connections.length < n ∧ factory between = .error e world')
  | 0 => ⟨.none world, fun slot hslot => by cases hslot⟩
  | n + 1 => by
    simp only [openSlots, ensures_bind, ensures_pure]
    refine (openSlots_ensures factory world n).mono (fun slots between hslots => ?_)
      (fun e world' he => ?_)
    · obtain ⟨hopens, hfree⟩ := hslots
      have hlength : (slots.toList.map Slot.connection).length = n := by simp
      unfold Ensures
      cases hcall : factory between with
      | ok connection world' =>
        constructor
        · rw [Vector.toList_push, List.map_append]
          exact .more hopens hcall
        · simpa [or_imp, forall_and] using hfree
      | error e world' =>
        exact ⟨_, between, hopens, by omega, hcall⟩
    · obtain ⟨connections, between, hopens, hlt, hcall⟩ := he
      exact ⟨connections, between, hopens, by omega, hcall⟩

/-- **A new pool** has called the factory once for each of its connections, and has lent none out.
If there is no pool, the factory has failed, and was not called again. -/
theorem create_opens {config : PoolConfig} (hvalid : config.validate = .ok ())
    (factory : Action φ σ) (world : φ) :
    Ensures (create config factory) world
      (fun p world' => Opens factory world ((List.finRange config.size).map p.connection) world' ∧
        (∀ l, p.isLeased l = false) ∧ p.config = config)
      (fun e world' => ∃ connections between, Opens factory world connections between ∧
        connections.length < config.size ∧ factory between = .error e world') := by
  simp only [create, ensures_bind, ensures_ofResult, ensures_pure, hvalid]
  refine ⟨fun _ _ => ?_, fun e he => by cases he⟩
  refine (openSlots_ensures factory world config.size).mono (fun slots world' hslots => ?_)
    fun _ _ he => he
  obtain ⟨hopens, hfree⟩ := hslots
  refine ⟨?_, fun l => ?_, trivial⟩
  · have hconnections : (List.finRange config.size).map
        (connection ⟨config, slots⟩) = slots.toList.map Slot.connection := by
      refine List.ext_getElem (by simp) fun i hi hi' => ?_
      have hget (l : Fin config.size) : slots.get l = slots[l] := rfl
      simp [connection, hget]
    rwa [hconnections]
  · exact hfree _ (by simp [Vector.mem_toList_iff])

/-! ### Lending out -/

/-- There is a free slot if and only if not all are lent out. -/
theorem numLeased_lt_iff : p.numLeased < p.size ↔ ∃ l, p.isLeased l = false := by
  have hle := List.countP_le_length (p := p.isLeased) (l := List.finRange n)
  have hall := List.countP_eq_length (p := p.isLeased) (l := List.finRange n)
  rw [List.length_finRange] at hle hall
  rw [numLeased, size, Nat.lt_iff_le_and_ne, and_iff_right hle, Ne, hall]
  simp

/-- What a pool lends out, as its settings say. -/
structure Grants (p : Pool σ n) : Prop where
  /-- If not all connections are lent out, the first free one is. -/
  grants : p.numLeased < p.size → ∃ l, p.IsFirstFree l ∧
    p.tryAcquire = some (l, p.mark l true) ∧ p.acquire = .ok l (p.mark l true)
  /-- If all are lent out, there is none. Nobody gives one back during the waits, and when there
  is none left, an error says so; all stay lent out as they were. -/
  refuses : ¬p.numLeased < p.size → p.tryAcquire = none ∧
    p.acquireWithin p.config.numAttempts = (none, 0) ∧
    p.exhausted.kind = .poolExhausted ∧ p.acquire = .error p.exhausted p

/-- The slot that is found is the first free one. -/
theorem find?_eq_some_iff {l : Lease n} :
    ((List.finRange n).find? fun k => !p.isLeased k) = some l ↔ p.IsFirstFree l := by
  rw [List.find?_eq_some_iff_getElem, Bool.not_eq_true', IsFirstFree]
  refine and_congr_right fun _ => ⟨?_, fun h => ⟨l, by simp, by simp, fun k hk => ?_⟩⟩
  · rintro ⟨i, hi, hget, hbefore⟩ k hk
    rw [List.getElem_finRange] at hget
    subst hget
    have hleased := hbefore k hk
    rwa [List.getElem_finRange, Bool.not_not] at hleased
  · rw [List.getElem_finRange, Bool.not_not]
    exact h _ hk

theorem tryAcquire_eq_some {l : Lease n} (h : p.IsFirstFree l) :
    p.tryAcquire = some (l, p.mark l true) := by
  rw [tryAcquire, find?_eq_some_iff.mpr h]
  rfl

theorem tryAcquire_eq_none (h : ∀ l, p.isLeased l = true) : p.tryAcquire = none := by
  simp [tryAcquire, h]

/-- All waits are in vain. -/
theorem acquireWithin_eq_none (h : p.tryAcquire = none) : ∀ waits,
    p.acquireWithin waits = (none, 0)
  | 0 => by rw [acquireWithin, h]
  | waits + 1 => by
    rw [acquireWithin, h]
    exact acquireWithin_eq_none h waits

/-- If a slot is free, one of them is the first. -/
theorem exists_isFirstFree (h : ∃ l, p.isLeased l = false) : ∃ l, p.IsFirstFree l := by
  obtain ⟨k, hk⟩ := h
  have hfound : ((List.finRange n).find? fun k => !p.isLeased k).isSome :=
    List.find?_isSome.mpr ⟨k, List.mem_finRange k, by rw [hk]; rfl⟩
  obtain ⟨l, hl⟩ := Option.isSome_iff_exists.mp hfound
  exact ⟨l, find?_eq_some_iff.mp hl⟩

/-- **A pool lends out the first free connection**, and fails if there is none. -/
theorem grants (p : Pool σ n) : p.Grants where
  grants h := by
    obtain ⟨l, hl⟩ := exists_isFirstFree (numLeased_lt_iff.mp h)
    refine ⟨l, hl, tryAcquire_eq_some hl, ?_⟩
    have hwithin : (p.acquireWithin p.config.numAttempts).1 = some (l, p.mark l true) := by
      cases p.config.numAttempts <;> rw [acquireWithin, tryAcquire_eq_some hl]
    simp only [acquire, hwithin]
  refuses h := by
    have hall : ∀ l, p.isLeased l = true := by
      simpa [numLeased_lt_iff] using h
    have hnone := tryAcquire_eq_none hall
    have hwithin := acquireWithin_eq_none hnone p.config.numAttempts
    refine ⟨hnone, hwithin, rfl, ?_⟩
    simp only [acquire, hwithin]

/-! ### Sessions -/

/-- A pool with the sessions that hold its connections. -/
structure Lending (σ : Type) (n : Nat) where
  /-- The pool. -/
  pool : Pool σ n
  /-- The slots that are held, one for each live session, in the order they were acquired. -/
  sessions : List (Lease n)

/-- What can be done with a pool and its sessions. -/
inductive Move (σ α : Type) where
  /-- Acquires a session without waiting. -/
  | tryAcquire
  /-- Acquires a session. -/
  | acquire
  /-- Does something on the connection of a session. -/
  | operate (session : Nat) (a : Action σ α)
  /-- Drops a session. -/
  | drop (session : Nat)

namespace Lending

variable {s : Lending σ n}

/-- A pool without sessions. -/
def ofPool (p : Pool σ n) : Lending σ n := ⟨p, []⟩

/-- Makes a move. -/
def step (s : Lending σ n) : Move σ α → Lending σ n
  | .tryAcquire =>
    match s.pool.tryAcquire with
    | some (l, pool) => ⟨pool, s.sessions ++ [l]⟩
    | none => s
  | .acquire =>
    match s.pool.acquire with
    | .ok l pool => ⟨pool, s.sessions ++ [l]⟩
    | .error _ pool => ⟨pool, s.sessions⟩
  | .operate session a =>
    match s.sessions[session]? with
    | some l => ⟨((onLease l a).outcome s.pool).2, s.sessions⟩
    | none => s
  | .drop session =>
    match s.sessions[session]? with
    | some l => ⟨s.pool.release l, s.sessions.eraseIdx session⟩
    | none => s

/-- Makes moves, one after the other. -/
def run (s : Lending σ n) (moves : List (Move σ α)) : Lending σ n := moves.foldl step s

/-- What a move does on the connection of a slot: nothing, unless a session that holds the slot
does it. -/
def workOf (s : Lending σ n) (l : Lease n) : Move σ α → List (Action σ α)
  | .operate session a => if s.sessions[session]? = some l then [a] else []
  | _ => []

/-- All that is done on the connection of a slot, by whatever session. -/
def works (s : Lending σ n) (l : Lease n) : List (Move σ α) → List (Action σ α)
  | [] => []
  | m :: moves => s.workOf l m ++ (s.step m).works l moves

/-- Where a move leads. -/
inductive Goes (s : Lending σ n) : Move σ α → Lending σ n → Prop where
  /-- It cannot be made, or a connection is asked for when there is none. -/
  | stays {m : Move σ α} (hidle : ∀ l, s.workOf l m = []) : Goes s m s
  /-- The first free connection is lent out to a new session. -/
  | lends {m : Move σ α} (hidle : ∀ l, s.workOf l m = []) (l : Lease n)
    (hl : s.pool.IsFirstFree l) : Goes s m ⟨s.pool.mark l true, s.sessions ++ [l]⟩
  /-- Something is done on the connection of a session. -/
  | operates (session : Nat) (a : Action σ α) (l : Lease n) (hl : s.sessions[session]? = some l) :
    Goes s (.operate session a) ⟨((onLease l a).outcome s.pool).2, s.sessions⟩
  /-- A session is dropped, and its slot given back. -/
  | drops (session : Nat) (l : Lease n) (hl : s.sessions[session]? = some l) :
    Goes s (.drop session) ⟨s.pool.release l, s.sessions.eraseIdx session⟩

theorem step_goes (s : Lending σ n) (m : Move σ α) : s.Goes m (s.step m) := by
  cases m with
  | tryAcquire =>
    by_cases hlt : s.pool.numLeased < s.pool.size
    · obtain ⟨l, hl, htry, -⟩ := s.pool.grants.grants hlt
      simp only [step, htry]
      exact .lends (fun _ => rfl) l hl
    · simp only [step, (s.pool.grants.refuses hlt).1]
      exact .stays fun _ => rfl
  | acquire =>
    by_cases hlt : s.pool.numLeased < s.pool.size
    · obtain ⟨l, hl, -, hacquire⟩ := s.pool.grants.grants hlt
      simp only [step, hacquire]
      exact .lends (fun _ => rfl) l hl
    · simp only [step, (s.pool.grants.refuses hlt).2.2.2]
      exact .stays fun _ => rfl
  | operate session a =>
    cases hl : s.sessions[session]? with
    | none =>
      simp only [step, hl]
      exact .stays fun _ => by simp [workOf, hl]
    | some l =>
      simp only [step, hl]
      exact .operates session a l hl
  | drop session =>
    cases hl : s.sessions[session]? with
    | none =>
      simp only [step, hl]
      exact .stays fun _ => rfl
    | some l =>
      simp only [step, hl]
      exact .drops session l hl

/-- The sessions hold different slots, and just these are lent out. -/
structure Exclusive (s : Lending σ n) : Prop where
  /-- No two sessions hold the same slot. -/
  distinct : s.sessions.Nodup
  /-- A slot is lent out if a session holds it, and only then. -/
  leased_iff : ∀ l, s.pool.isLeased l = true ↔ l ∈ s.sessions

/-- As many slots are lent out as there are sessions. -/
theorem Exclusive.numLeased (h : s.Exclusive) : s.pool.numLeased = s.sessions.length := by
  have hperm : ((List.finRange n).filter s.pool.isLeased).Perm s.sessions := by
    refine (List.perm_ext_iff_of_nodup ((List.nodup_finRange n).filter _) h.distinct).mpr ?_
    intro l
    rw [List.mem_filter, and_iff_right (List.mem_finRange l), h.leased_iff]
  rw [Pool.numLeased, List.countP_eq_length_filter, hperm.length_eq]

/-! ### What a move keeps -/

/-- A slot that was free can be given to a new session. -/
theorem Exclusive.lend (h : s.Exclusive) {l : Lease n} (hl : s.pool.isLeased l = false) :
    Exclusive ⟨s.pool.mark l true, s.sessions ++ [l]⟩ := by
  have hfree : l ∉ s.sessions := by
    rw [← h.leased_iff, hl]
    exact Bool.false_ne_true
  constructor
  · refine List.nodup_append.mpr ⟨h.distinct, List.pairwise_singleton _ l, fun k hk k' hk' => ?_⟩
    rw [List.mem_singleton.mp hk']
    rintro rfl
    exact hfree hk
  · intro k
    by_cases hk : k = l
    · simp [hk]
    · simp [hk, h.leased_iff]

/-- The slot of a session that is dropped is free. -/
theorem Exclusive.release (h : s.Exclusive) {session : Nat} {l : Lease n}
    (hl : s.sessions[session]? = some l) :
    Exclusive ⟨s.pool.release l, s.sessions.eraseIdx session⟩ := by
  obtain ⟨hlt, rfl⟩ := List.getElem?_eq_some_iff.mp hl
  have herase : s.sessions.eraseIdx session = s.sessions.erase s.sessions[session] := by
    rw [List.erase_eq_eraseIdx_of_idxOf (h.distinct.idxOf_getElem session hlt)]
  constructor
  · exact h.distinct.eraseIdx session
  · intro k
    rw [herase, h.distinct.mem_erase_iff]
    by_cases hk : k = s.sessions[session]
    · simp [Pool.release, hk]
    · simp [Pool.release, hk, h.leased_iff]

theorem Exclusive.step (h : s.Exclusive) (m : Move σ α) : (s.step m).Exclusive := by
  have hgoes := s.step_goes m
  generalize s.step m = s' at hgoes ⊢
  cases hgoes with
  | stays _ => exact h
  | lends _ l hl => exact h.lend hl.1
  | operates session a l _ =>
    exact ⟨h.distinct, fun k => by rw [isLeased_onLease, h.leased_iff]⟩
  | drops session l hl => exact h.release hl

/-- No move changes the settings. -/
theorem config_step (s : Lending σ n) (m : Move σ α) :
    (s.step m).pool.config = s.pool.config := by
  have hgoes := s.step_goes m
  generalize s.step m = s' at hgoes ⊢
  cases hgoes with
  | operates session a l _ => rw [outcome_onLease]
  | _ => rfl

/-- A move leaves the connection of a slot as its work there does. -/
theorem connection_step (s : Lending σ n) (l : Lease n) (m : Move σ α) :
    (s.step m).pool.connection l =
      (s.workOf l m).foldl (fun c a => (a.outcome c).2) (s.pool.connection l) := by
  have hgoes := s.step_goes m
  generalize s.step m = s' at hgoes ⊢
  cases hgoes with
  | stays hidle => rw [hidle, List.foldl_nil]
  | lends hidle k _ => rw [hidle, List.foldl_nil, connection_mark]
  | operates session a k hk =>
    simp only [workOf, hk, connection_onLease, Option.some.injEq]
    by_cases hkl : l = k
    · simp [hkl]
    · simp [hkl, Ne.symm hkl]
  | drops session k _ => exact connection_mark k l false

/-- What a run keeps, and what it makes of the connections. -/
theorem Exclusive.run (h : s.Exclusive) (moves : List (Move σ α)) :
    (s.run moves).Exclusive ∧ (s.run moves).pool.config = s.pool.config ∧
      ∀ l, (s.run moves).pool.connection l =
        (s.works l moves).foldl (fun c a => (a.outcome c).2) (s.pool.connection l) := by
  induction moves generalizing s with
  | nil => exact ⟨h, rfl, fun _ => rfl⟩
  | cons m moves ih =>
    obtain ⟨hexclusive, hconfig, hconnection⟩ := ih (h.step m)
    refine ⟨hexclusive, hconfig.trans (s.config_step m), fun l => ?_⟩
    rw [works, List.foldl_append, ← connection_step]
    exact hconnection l

/-- **Each connection of a pool has one session at a time.** A new pool has called the factory
once for each of its connections; where there is none, the factory failed and was not called
again. Whatever moves are then made, the sessions hold different slots; just these are lent out,
as many as there are sessions, and never more than there are slots; the first free connection is
lent out while there is one. A connection is what was done on it by the sessions that held it, one
after the other, and this is what the next one works on. -/
theorem run_exclusive {config : PoolConfig} (hvalid : config.validate = .ok ())
    (factory : Action φ σ) (world : φ) :
    Ensures (create config factory) world
      (fun p world' => Opens factory world ((List.finRange config.size).map p.connection) world' ∧
        ∀ moves : List (Move σ α), let s := (ofPool p).run moves
          s.Exclusive ∧ s.pool.numLeased = s.sessions.length ∧ s.pool.numLeased ≤ config.size ∧
          s.pool.config = config ∧ s.pool.Grants ∧
          ∀ l, s.pool.connection l =
              ((ofPool p).works l moves).foldl (fun c a => (a.outcome c).2) (p.connection l) ∧
            ∀ a : Action σ α,
              ((onLease l a).outcome s.pool).1 = (a.outcome (s.pool.connection l)).1)
      (fun e world' => ∃ connections between, Opens factory world connections between ∧
        connections.length < config.size ∧ factory between = .error e world') := by
  refine (create_opens hvalid factory world).mono (fun p world' hp => ?_) fun _ _ he => he
  obtain ⟨hopens, hfree, hconfig⟩ := hp
  have hstart : (ofPool p).Exclusive := ⟨List.nodup_nil, fun l => by simp [ofPool, hfree]⟩
  refine ⟨hopens, fun moves => ?_⟩
  obtain ⟨hexclusive, hsettings, hconnection⟩ := hstart.run moves
  have hbound : ((ofPool p).run moves).pool.numLeased ≤ config.size := by
    have hle := List.countP_le_length (p := ((ofPool p).run moves).pool.isLeased)
      (l := List.finRange config.size)
    rwa [List.length_finRange] at hle
  exact ⟨hexclusive, hexclusive.numLeased, hbound, hsettings.trans hconfig, grants _,
    fun l => ⟨hconnection l, fun a => by rw [outcome_onLease]⟩⟩

/-- A connection that is lent out again is found as it was left. -/
theorem run_exclusive_again :
    let factory : Action Nat Nat := fun k => .ok (10 * k) (k + 1)
    let moves : List (Move Nat Nat) := [.acquire, .tryAcquire, .acquire,
      .operate 0 (modifyGet fun c => (c, c + 3)), .drop 0, .acquire,
      .operate 1 (modifyGet fun c => (c, 2 * c)), .operate 2 get]
    (⟨2, 3, 100⟩ : PoolConfig).validate = .ok () ∧
      ∃ p, create ⟨2, 3, 100⟩ factory 0 = .ok p 2 ∧ let s := (ofPool p).run moves
        s.sessions = [1, 0] ∧ s.Exclusive ∧ s.pool.numLeased = s.sessions.length ∧
          s.pool.connection 0 = 6 ∧ s.pool.connection 1 = 10 := by
  intro factory moves
  have hcreated : create ⟨2, 3, 100⟩ factory 0 = .ok ⟨⟨2, 3, 100⟩, #v[⟨0, false⟩, ⟨10, false⟩]⟩ 2 :=
    rfl
  obtain ⟨-, hruns⟩ := (run_exclusive rfl factory 0).of_ok hcreated
  obtain ⟨hexclusive, hnumber, -, -, -, hconnection⟩ := hruns moves
  exact ⟨rfl, _, hcreated, rfl, hexclusive, hnumber, (hconnection 0).1, (hconnection 1).1⟩

end Lending

end Pool

end SqlRecords
