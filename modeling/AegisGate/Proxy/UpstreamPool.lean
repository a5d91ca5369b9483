import AegisGate.Proxy.ProxyTransaction

/-!
# The pool of upstream connections

`src/proxy/UpstreamPool.cpp`: the connections of one worker, by the exchange they run or in
the idle deque of their endpoint. A connection is its address; the maps of the source are
association lists with one entry for each key.

What the sockets and the allocator do are arguments: which idle connections pass the check
before they are lent, where a new connection is placed, and how `Start` ends. A new
connection is placed where no other one is.
-/

namespace AegisGate.Proxy
open Option

/-- Connections are kept by address and port. -/
structure Key where
  address : Vector UInt8 4
  port : UInt16
  deriving DecidableEq

def toKey (endpoint : Config.Endpoint) : Key := ⟨endpoint.address, endpoint.port⟩

/-- The address of a connection object. -/
abbrev Pointer := ℕ

structure Attempt where
  transaction : ℕ
  number : ℕ
  deriving DecidableEq, Repr

/-- What the response callback of an active connection captured: whom it reports to, and the
deque the connection may go back to. -/
structure Lease where
  owner : Attempt
  key : Key
  deriving DecidableEq

/-- The deques of idle connections and the active ones. -/
structure UpstreamPool where
  idle : AList (fun _ : Key => List Pointer) := ∅
  active : AList (fun _ : Pointer => Lease) := ∅

/-- What the environment contributes to one `Execute`. -/
structure Execution where
  endpoint : Config.Endpoint
  healthy : Pointer → Bool := fun _ => true
  fresh : Pointer
  outcome : StartOutcome := .pending

def Execution.key (ex : Execution) : Key := toKey ex.endpoint

namespace UpstreamPool

section
variable (pool : UpstreamPool)

/-- `idle_[key]`. -/
def idleOf (key : Key) : List Pointer := (pool.idle.lookup key).getD []

/-- The connection is in a container of the pool. -/
def owns (connection : Pointer) : Bool :=
  (pool.active.lookup connection).isSome ||
    pool.idle.entries.any fun entry => entry.2.contains connection

/-- The loop of `Execute` over the idle deque: the first connection that passes the check is
taken, those before it are destroyed. -/
def borrow (healthy : Pointer → Bool) : List Pointer → Option Pointer × List Pointer
  | [] => (none, [])
  | connection :: rest =>
    if healthy connection then (some connection, rest) else borrow healthy rest

/-- The connection `Execute` runs on: a borrowed one, or a new one. -/
def obtained (ex : Execution) : Pointer :=
  (borrow ex.healthy (pool.idleOf ex.key)).1.getD ex.fresh

/-- The pool after the search of `Execute`; `none` when the allocator could not have placed
the new connection there. -/
def searched (ex : Execution) : Option UpstreamPool :=
  let found := borrow ex.healthy (pool.idleOf ex.key)
  let pool := { pool with idle := pool.idle.insert ex.key found.2 }
  if found.1.isNone && pool.owns ex.fresh then none else some pool

/-- `active_.emplace`; `none` is the `std::logic_error`. -/
def emplace (connection : Pointer) (lease : Lease) : Option UpstreamPool :=
  if (pool.active.lookup connection).isSome then none
  else some { pool with active := pool.active.insert connection lease }

/-- `Complete` up to the callback: a reusable connection goes to an empty deque, any other is
closed. -/
def complete (connection : Pointer) (reusable : Bool) : Option (UpstreamPool × Lease) :=
  (pool.active.lookup connection).map fun lease =>
    let pool := { pool with active := pool.active.erase connection }
    (if reusable && (pool.idleOf lease.key).isEmpty then
        { pool with idle := pool.idle.insert lease.key [connection] }
      else pool, lease)

def cancel (connection : Pointer) : UpstreamPool :=
  { pool with active := pool.active.erase connection }

/-- `CancelAll` up to the closing, with the connections to close. -/
def cancelAll : UpstreamPool × List Pointer :=
  ({ pool with active := ∅ }, pool.active.keys)

/-- `Execute` up to the callbacks of `Start`: an exchange that ends inside `Start` leaves the
pool through `Complete`, and is not reusable; one that raises is closed. -/
def execute (owner : Attempt) (ex : Execution) : Option UpstreamPool :=
  (pool.searched ex).bind fun searched =>
    (searched.emplace (pool.obtained ex) ⟨owner, ex.key⟩).bind fun lent =>
      match ex.outcome with
      | .pending => some lent
      | .failed _ => (lent.complete (pool.obtained ex) false).map Prod.fst
      | .raised => some (lent.cancel (pool.obtained ex))

end

section
variable {pool pool' : UpstreamPool} {connection q : Pointer} {lease : Lease} {owner : Attempt}
  {ex : Execution} {reusable : Bool}

@[simp] lemma lookup_cancel_self : (pool.cancel connection).active.lookup connection = none :=
  AList.lookup_erase connection pool.active

lemma lookup_cancel_ne (h : q ≠ connection) :
    (pool.cancel connection).active.lookup q = pool.active.lookup q :=
  AList.lookup_erase_ne h

lemma lookup_of_cancel (h : (pool.cancel connection).active.lookup q = some lease) :
    q ≠ connection ∧ pool.active.lookup q = some lease := by
  have hne : q ≠ connection := by
    rintro rfl
    rw [lookup_cancel_self] at h
    cases h
  exact ⟨hne, (lookup_cancel_ne hne).symm.trans h⟩

/-- `Complete` takes the connection out of the active map and changes no other entry. -/
lemma complete_active (h : pool.complete connection reusable = some (pool', lease)) :
    pool.active.lookup connection = some lease ∧
      pool'.active = (pool.cancel connection).active := by
  obtain ⟨lease', hlookup, heq⟩ := map_eq_some_iff.mp h
  dsimp only at heq
  split at heq <;>
    · cases heq
      exact ⟨hlookup, rfl⟩

/-- `Execute` adds an entry for an exchange that runs, and changes no other. -/
lemma execute_active (h : pool.execute owner ex = some pool') :
    pool.active.lookup (pool.obtained ex) = none ∧ ((ex.outcome = .pending ∧
          pool'.active = pool.active.insert (pool.obtained ex) ⟨owner, ex.key⟩) ∨
        ex.outcome ≠ .pending ∧ ∀ q, pool'.active.lookup q = pool.active.lookup q) := by
  obtain ⟨searched, hsearched, h⟩ := bind_eq_some_iff.mp h
  obtain ⟨lent, hlent, h⟩ := bind_eq_some_iff.mp h
  have hsame : searched.active = pool.active := by
    rw [UpstreamPool.searched] at hsearched
    obtain ⟨-, ⟨⟩⟩ := ite_none_left_eq_some.mp hsearched
    rfl
  rw [emplace, hsame] at hlent
  split at hlent
  · cases hlent
  next habsent =>
  have hnone : pool.active.lookup (pool.obtained ex) = none := by simpa using habsent
  simp only [some.injEq] at hlent
  have hinsert : lent.active = pool.active.insert (pool.obtained ex) ⟨owner, ex.key⟩ := by
    rw [← hlent]
  -- An exchange that did not survive `Start` leaves the map as it was.
  have hgone : ∀ q, (lent.cancel (pool.obtained ex)).active.lookup q = pool.active.lookup q := by
    intro q
    by_cases hq : q = pool.obtained ex
    · rw [hq, lookup_cancel_self, hnone]
    · rw [lookup_cancel_ne hq, hinsert]
      exact AList.lookup_insert_ne hq
  refine ⟨hnone, ?_⟩
  cases houtcome : ex.outcome with
  | pending =>
    rw [houtcome] at h
    cases h
    exact .inl ⟨rfl, hinsert⟩
  | failed failure =>
    rw [houtcome] at h
    obtain ⟨⟨pool₁, lease⟩, hcomplete, heq⟩ := map_eq_some_iff.mp h
    refine .inr ⟨nofun, fun q => ?_⟩
    rw [← heq, (complete_active hcomplete).2]
    exact hgone q
  | raised =>
    rw [houtcome] at h
    cases h
    exact .inr ⟨nofun, hgone⟩

variable {deque : List Pointer} {healthy : Pointer → Bool}

lemma idleOf_of_insert (pool : UpstreamPool) {key : Key}
    (h : pool'.idle = pool.idle.insert key deque) (k : Key) :
    pool'.idleOf k = if k = key then deque else pool.idleOf k := by
  by_cases hk : k = key
  · subst hk
    simp [idleOf, h]
  · simp [idleOf, h, AList.lookup_insert_ne hk, hk]

/-- `Complete` parks a reusable connection in an empty deque and changes no other. -/
lemma complete_idle (h : pool.complete connection reusable = some (pool', lease)) (k : Key) :
    pool'.idleOf k =
      if k = lease.key ∧ (reusable && (pool.idleOf lease.key).isEmpty) then [connection]
      else pool.idleOf k := by
  obtain ⟨lease', _, heq⟩ := map_eq_some_iff.mp h
  dsimp only at heq
  have hidle : ∀ k, idleOf { pool with active := pool.active.erase connection } k =
      pool.idleOf k := fun k => rfl
  rw [hidle] at heq
  split at heq
  next hpark =>
    cases heq
    exact (idleOf_of_insert pool rfl k).trans (by simp [hpark])
  next hpark =>
    cases heq
    rw [if_neg fun hk => hpark hk.2, hidle]

/-- What `Complete` reports to is what the connection was lent to. -/
lemma complete_of_active (reusable : Bool) (h : pool.active.lookup connection = some lease) :
    ∃ pool', pool.complete connection reusable = some (pool', lease) := by
  simp [complete, h]

lemma searched_idle {searched : UpstreamPool} (h : pool.searched ex = some searched) (k : Key) :
    searched.idleOf k =
      if k = ex.key then (borrow ex.healthy (pool.idleOf ex.key)).2 else pool.idleOf k := by
  obtain ⟨_, h⟩ := ite_none_left_eq_some.mp h
  rw [← some.inj h]
  exact idleOf_of_insert pool rfl k

/-- `Execute` leaves of the deque of the endpoint what its search left. -/
lemma execute_idle (h : pool.execute owner ex = some pool') (hpending : ex.outcome = .pending)
    (k : Key) : pool'.idleOf k =
      if k = ex.key then (borrow ex.healthy (pool.idleOf ex.key)).2 else pool.idleOf k := by
  obtain ⟨searched, hsearched, h⟩ := bind_eq_some_iff.mp h
  obtain ⟨lent, hlent, h⟩ := bind_eq_some_iff.mp h
  obtain ⟨_, hlent⟩ := ite_none_left_eq_some.mp hlent
  rw [hpending] at h
  rw [← some.inj h, ← some.inj hlent]
  exact searched_idle hsearched k

lemma searched_isSome (h : ∀ pool' : UpstreamPool, pool'.active = pool.active →
    pool'.idle = pool.idle.insert ex.key (borrow ex.healthy (pool.idleOf ex.key)).2 →
      pool'.owns ex.fresh = false) : (pool.searched ex).isSome := by
  have howns := h { pool with
    idle := pool.idle.insert ex.key (borrow ex.healthy (pool.idleOf ex.key)).2 } rfl rfl
  simp [searched, howns]

/-- `Execute` does not throw on a connection that is not active. -/
lemma execute_of_absent (owner : Attempt) (hpending : ex.outcome = .pending)
    (habsent : pool.active.lookup (pool.obtained ex) = none)
    (hsearched : (pool.searched ex).isSome) : ∃ pool', pool.execute owner ex = some pool' := by
  obtain ⟨searched, hsearched⟩ := isSome_iff_exists.mp hsearched
  have hsame : searched.active = pool.active := by
    rw [← some.inj (ite_none_left_eq_some.mp hsearched).2]
  simp [execute, hsearched, emplace, hsame, habsent, hpending]

lemma borrow_of_short (h : deque.length ≤ 1) : (borrow healthy deque).2 = [] := by
  match deque, h with
  | [], _ => rfl
  | [connection], _ => cases hc : healthy connection <;> simp [borrow, hc]

lemma borrow_some (h : (borrow healthy deque).1 = some q) : q ∈ deque ∧ healthy q := by
  induction deque with
  | nil => cases h
  | cons connection rest ih =>
    by_cases hc : healthy connection
    · rw [borrow, if_pos hc] at h
      cases h
      exact ⟨List.mem_cons_self, hc⟩
    · rw [borrow, if_neg hc] at h
      exact (ih h).imp_left (List.mem_cons_of_mem connection)

lemma borrow_none (h : (borrow healthy deque).1 = none) : ∀ q ∈ deque, healthy q = false := by
  induction deque with
  | nil => exact fun q hq => nomatch hq
  | cons connection rest ih =>
    by_cases hc : healthy connection
    · rw [borrow, if_pos hc] at h
      cases h
    · rw [borrow, if_neg hc] at h
      intro q hq
      rcases List.mem_cons.mp hq with rfl | hq
      · simpa using hc
      · exact ih h q hq

lemma entries_perm_cancel (h : pool.active.lookup connection = some lease) :
    pool.active.entries.Perm (⟨connection, lease⟩ :: (pool.cancel connection).active.entries) := by
  have hmem : (⟨connection, lease⟩ : Sigma fun _ : Pointer => Lease) ∈ pool.active.entries :=
    AList.mem_lookup_iff.mp h
  obtain ⟨lease', before, after, _, hentries, herase⟩ :=
    List.exists_of_kerase (List.mem_keys_of_mem hmem)
  have hlease : lease' = lease := by
    have hmem' : (⟨connection, lease'⟩ : Sigma fun _ : Pointer => Lease) ∈ pool.active.entries := by
      rw [hentries]
      simp
    exact some.inj ((AList.mem_lookup_iff.mpr hmem').symm.trans h)
  subst hlease
  calc pool.active.entries = before ++ ⟨connection, lease'⟩ :: after := hentries
    List.Perm _ (⟨connection, lease'⟩ :: (before ++ after)) := List.perm_middle
    _ = ⟨connection, lease'⟩ :: (pool.cancel connection).active.entries := by
        rw [← herase]
        rfl

end
end UpstreamPool
end AegisGate.Proxy
