import AegisGate.Runtime.LeaseInvariant

/-!
# Leases are conserved across reloads

Every step of the worker and of the gateway keeps the invariant on the balances, returns to an
admission nothing or all that is held for its route, and draws nothing for a retired
generation. That a retired generation is not drawn from again is due to the request leases:
the gateway asks for the balance only after the last lease was reported, and from then on
there are no leases, so no request of the generation is inside `TryAdmit`.
-/

namespace AegisGate.Runtime
open Lib Resilience List Option AList WorkerData
namespace WorkerData
variable {s t u : WorkerData}

/-! ## What one step does -/

/-- What a step may do: no route is paid back more than its own balance, which then is gone, and
nothing is drawn for a retired generation. -/
structure Keeps (s t : WorkerData) : Prop where
  inv : Inv t
  admissionAt : ∀ i r a, s.admissionAt i r = some a → t.admissionAt i r = some a
  retired : ∀ i ∈ s.retired, i ∈ t.retired
  once : ∀ i r a, s.admissionAt i r = some a → t.ledger.returned a = s.ledger.returned a ∨
    t.ledger.returned a = s.ledger.returned a + s.balance (i + 1) r ∧ t.balance (i + 1) r = 0
  undrawn : ∀ i ∈ s.retired, ∀ r a, s.admissionAt i r = some a → t.ledger.drawn a = s.ledger.drawn a

lemma Keeps.refl (h : Inv s) : Keeps s s :=
  ⟨h, fun _ _ _ ha => ha, fun _ hi => hi, fun _ _ _ _ => .inl rfl, fun _ _ _ _ _ => rfl⟩

lemma Keeps.same (h : Keeps s t) (hinv : Inv u) (hledger : u.ledger = t.ledger)
    (hbalances : u.leaseBalances = t.leaseBalances) (hretired : ∀ i ∈ t.retired, i ∈ u.retired)
    (hadm : ∀ i r a, t.admissionAt i r = some a → u.admissionAt i r = some a) : Keeps s u := by
  refine ⟨hinv, fun i r a ha => hadm i r a (h.admissionAt i r a ha),
    fun i hi => hretired i (h.retired i hi), fun i r a ha => ?_, fun i hi r a ha => ?_⟩
  · have hbalance : u.balance (i + 1) r = t.balance (i + 1) r := by rw [balance, balance, hbalances]
    rw [hbalance, hledger]
    exact h.once i r a ha
  · rw [hledger]
    exact h.undrawn i hi r a ha

/-! ### Generations and calls -/

lemma Inv.withCall (h : Inv s) {call : Option AdmitRequest}
    (hleased : ∀ i r phase, call = some ⟨i, r, .leased phase⟩ → ∃ g : RuntimeGeneration,
      s.generations[i]? = some g ∧ 1 ≤ g.activeRequestLeases ∧
        (phase = .returned → s.balance (i + 1) r = 0)) : Inv { s with call } :=
  h.frame rfl (.refl _) h.quiet rfl rfl rfl hleased

variable {i r a : ℕ} {g : RuntimeGeneration} {phase : AdmitPhase}

lemma Inv.setGeneration (h : Inv s) {k : RuntimeGeneration} (hg : s.generations[i]? = some g)
    (hquiet : k.Quiet) (hlater : g.Later k) (hheld : s.heldByCall i ≤ k.activeRequestLeases) :
    Inv { s with generations := s.generations.set i k } := by
  have hlt : i < s.generations.length := (List.getElem?_eq_some_iff.mp hg).1
  refine h.frame rfl (aligned_set hg hlater) (fun j m hm => ?_) rfl rfl rfl
    fun j r phase hcall => ?_
  · rw [getElem?_set] at hm
    split at hm
    · cases hm
      exact hquiet
    · exact h.quiet j m hm
  obtain ⟨m, hm, hpos, hzero⟩ := h.leased j r phase hcall
  rw [getElem?_set]
  split
  · next hij =>
    subst hij
    rw [heldByCall, hcall] at hheld
    exact ⟨k, rfl, by simpa using hheld, hzero⟩
  · exact ⟨m, hm, hpos, hzero⟩

lemma keeps_setGeneration (h : Keeps s t) {k : RuntimeGeneration}
    (hg : t.generations[i]? = some g) (hquiet : k.Quiet) (hlater : g.Later k)
    (hheld : t.heldByCall i ≤ k.activeRequestLeases) :
    Keeps s { t with generations := t.generations.set i k } := by
  refine h.same (h.inv.setGeneration hg hquiet hlater hheld) rfl rfl (fun _ hi => hi)
    fun j r a ha => ?_
  rw [(aligned_set hg hlater).admissionAt (s := t), ha]

lemma Inv.heldByCall_le (h : Inv s) (hg : s.generations[i]? = some g) :
    s.heldByCall i ≤ g.activeRequestLeases := by
  rw [heldByCall]
  split
  · next j r phase hcall =>
    split
    · next hij =>
      subst hij
      obtain ⟨k, hk, hpos, -⟩ := h.leased j r phase hcall
      cases hg.symm.trans hk
      exact hpos
    · exact Nat.zero_le _
  · exact Nat.zero_le _

lemma keeps_releaseLease (h : Keeps s t) (hu : t.releaseLease i = some u)
    (hheld : ∀ g : RuntimeGeneration, t.generations[i]? = some g → g.activeRequestLeases ≠ 0 →
      t.heldByCall i < g.activeRequestLeases) : Keeps s u := by
  rw [releaseLease, map_eq_some_iff] at hu
  obtain ⟨⟨k, calls⟩, hk, rfl⟩ := hu
  obtain ⟨g, hg, hrelease⟩ := bind_eq_some_iff.mp hk
  obtain ⟨hquiet, hlater, hleases⟩ := (h.inv.quiet i g hg).releaseRequestLease hrelease
  refine keeps_setGeneration h hg hquiet hlater ?_
  have hlt := hheld g hg (by omega)
  exact Nat.le_of_lt_succ (hlt.trans_eq hleases.symm)

lemma Keeps.withoutCall (h : Keeps s t) : Keeps s { t with call := none } :=
  h.same (h.inv.withCall nofun) rfl rfl (fun _ hi => hi) fun _ _ _ ha => ha

lemma keeps_endCall (h : Keeps s { t with call := none }) {req : AdmitRequest} {admitted : Bool}
    (hu : t.endCall req admitted = some u) : Keeps s u := by
  rw [endCall] at hu
  split at hu
  · cases hu
    exact h
  · exact keeps_releaseLease h hu fun g _ hne => Nat.pos_of_ne_zero hne

lemma Inv.keeps_acquireLease (h : Inv s) {req : AdmitRequest} (ht : s.acquireLease req = some t) :
    Keeps s t := by
  rw [acquireLease, map_eq_some_iff] at ht
  obtain ⟨g, hg, hbody⟩ := ht
  cases hk : g.tryAcquireRequestLease with
  | none =>
    rw [hk] at hbody
    cases hbody
    exact (Keeps.refl h).withoutCall
  | some k =>
    rw [hk] at hbody
    cases hbody
    obtain ⟨hquiet, hlater, -, hleases⟩ := (h.quiet _ g hg).tryAcquireRequestLease hk
    have hheld : s.heldByCall req.generation ≤ k.activeRequestLeases := by
      have hle := h.heldByCall_le hg
      omega
    have hset := keeps_setGeneration (Keeps.refl h) hg hquiet hlater hheld
    refine hset.same (hset.inv.withCall fun i r phase heq => ?_) rfl rfl (fun _ hi => hi)
      fun _ _ _ ha => ha
    have hlt := (List.getElem?_eq_some_iff.mp hg).1
    cases heq
    exact ⟨k, getElem?_set_self hlt, by omega, nofun⟩

/-! ### A reload -/

lemma admissionAt_append (hgens : t.generations = s.generations ++ [g]) (i r : ℕ) :
    t.admissionAt i r = if i = s.generations.length then g.admissions[r]?
    else s.admissionAt i r := by
  rw [admissionAt, admissionAt, hgens]
  split
  · next hi =>
    subst hi
    simp
  · next hi =>
    by_cases hlt : i < s.generations.length
    · rw [getElem?_append_left hlt]
    · rw [getElem?_eq_none (by simp; omega), getElem?_eq_none (by omega)]

lemma Inv.balance_absent (h : Inv s) (hi : s.generations.length ≤ i) (r : ℕ) :
    s.balance (i + 1) r = 0 := by
  rw [balance, tokensOf]
  cases hlb : s.leaseBalances.lookup (i + 1) with
  | none => rfl
  | some lb =>
    obtain ⟨j, g, hg, hj, -⟩ := h.entry _ lb hlb
    have hlt := (List.getElem?_eq_some_iff.mp hg).1
    omega

lemma Inv.extend (h : Inv s) {n : ℕ} (hgens : t.generations = s.generations ++ [g])
    (hheap : t.heap.length = s.heap.length + n) (hversion : g.version = s.generations.length + 1)
    (hnew : g.admissions = range' s.heap.length n) (hquiet : g.Quiet)
    (hbalances : t.leaseBalances = s.leaseBalances) (hledger : t.ledger = s.ledger)
    (hcall : t.call = s.call) (hretired : t.retired = s.retired) : Inv t := by
  have hold : ∀ (i : ℕ) k, t.generations[i]? = some k →
      i = s.generations.length ∧ k = g ∨ s.generations[i]? = some k := by
    intro i k hk
    rw [hgens] at hk
    by_cases hlt : i < s.generations.length
    · rw [getElem?_append_left hlt] at hk
      exact .inr hk
    · rw [getElem?_append_right (by omega), getElem?_singleton] at hk
      split at hk
      · cases hk
        exact .inl ⟨by omega, rfl⟩
      · cases hk
  have hkeep : ∀ (i : ℕ) k, s.generations[i]? = some k → t.generations[i]? = some k := by
    intro i k hk
    rw [hgens, List.getElem?_append_left (List.getElem?_eq_some_iff.mp hk).1, hk]
  have hbalance : ∀ v r, t.balance v r = s.balance v r := by
    intro v r
    rw [balance, balance, hbalances]
  -- An address of the new generation lies behind all the others.
  have hadm : ∀ i r a, t.admissionAt i r = some a →
      i = s.generations.length ∧ a = s.heap.length + r ∧ r < n ∨
        s.admissionAt i r = some a ∧ a < s.heap.length := by
    intro i r a ha
    rw [admissionAt_append hgens] at ha
    split at ha
    · next hi =>
      rw [hnew] at ha
      have hlt : r < n := by simpa using (List.getElem?_eq_some_iff.mp ha).1
      rw [getElem?_range' hlt] at ha
      cases ha
      exact .inl ⟨hi, by omega, hlt⟩
    · exact .inr ⟨ha, h.bound i r a ha⟩
  refine ⟨fun i k hk => ?_, fun i r a ha => ?_, fun i j r q a ha hb => ?_, fun v lb hlb => ?_,
    fun i k hk => ?_, fun a ha => ?_, fun i r hi => ?_, fun i r a ha => ?_, fun i r phase hc => ?_,
    fun i hmem => ?_⟩
  · rcases hold i k hk with ⟨rfl, rfl⟩ | hk
    · exact hversion
    · exact h.version i k hk
  · have hcases := hadm i r a ha
    omega
  · rcases hadm i r a ha with hi | ⟨hi, hlt⟩
    · have hj := hadm j q a hb
      omega
    · rcases hadm j q a hb with hj | ⟨hj, -⟩
      · omega
      · exact h.distinct i j r q a hi hj
  · rw [hbalances] at hlb
    obtain ⟨i, k, hk, hentry⟩ := h.entry v lb hlb
    exact ⟨i, k, hkeep i k hk, hentry⟩
  · rcases hold i k hk with ⟨-, rfl⟩ | hk
    · exact hquiet
    · exact h.quiet i k hk
  · rw [hledger]
    exact h.fresh a (by omega)
  · rw [hledger]
    refine h.unpassed i r ?_
    rw [hgens, length_append] at hi
    omega
  · rw [hledger, hbalance]
    rcases hadm i r a ha with ⟨rfl, rfl, -⟩ | ⟨ha, -⟩
    · rw [h.unpassed _ r le_rfl, h.balance_absent le_rfl]
      obtain ⟨hdrawn, hreturned⟩ := h.fresh (s.heap.length + r) (by omega)
      omega
    · exact h.conserved i r a ha
  · rw [hcall] at hc
    obtain ⟨k, hk, hpos, hzero⟩ := h.leased i r phase hc
    exact ⟨k, hkeep i k hk, hpos, fun hp => (hbalance _ _).trans (hzero hp)⟩
  · rw [hretired] at hmem
    obtain ⟨k, hk, hnotified, hnone⟩ := h.retired i hmem
    exact ⟨k, hkeep i k hk, hnotified, by rw [hbalances, hnone]⟩

lemma Inv.keeps_publish (h : Inv s) {routes : List AdmissionLimits} {now : ℤ}
    (ht : s.publish routes now = some t) : Keeps s t := by
  rw [publish, map_eq_some_iff] at ht
  obtain ⟨previous, hlast, rfl⟩ := ht
  have hversion : previous.version + 1 = s.generations.length + 1 := by
    rw [getLast?_eq_getElem?] at hlast
    have hpos := (List.getElem?_eq_some_iff.mp hlast).1
    rw [h.version _ previous hlast]
    omega
  have hinv := h.extend (t := { s with
      heap := (build s.heap (previous.version + 1) previous.workers routes now).1
      generations := s.generations ++
        [(build s.heap (previous.version + 1) previous.workers routes now).2] })
    rfl (by simp [build]) hversion rfl nofun rfl rfl rfl rfl
  refine (Keeps.refl h).same hinv rfl rfl (fun _ hi => hi) fun i r a ha => ?_
  rw [admissionAt_append rfl, if_neg, ha]
  rintro rfl
  rw [admissionAt, getElem?_eq_none le_rfl] at ha
  cases ha

/-! ### A piece of `TryAdmit` -/

/-- What a piece of `TryAdmit` for one route does to the balances and the ledger. -/
structure Charges (s t : WorkerData) (i r a : ℕ) : Prop where
  heap : t.heap.length = s.heap.length
  generations : t.generations = s.generations
  retired : t.retired = s.retired
  elsewhere : ∀ v, v ≠ i + 1 → t.leaseBalances.lookup v = s.leaseBalances.lookup v
  entry : ∀ lb, t.leaseBalances.lookup (i + 1) = some lb → ∃ g : RuntimeGeneration,
    s.generations[i]? = some g ∧ lb.admissions = g.admissions ∧
      lb.balances.length = g.admissions.length
  others : ∀ q, q ≠ r → t.balance (i + 1) q = s.balance (i + 1) q
  drawn : ∀ b, b ≠ a → t.ledger.drawn b = s.ledger.drawn b
  returned : ∀ b, b ≠ a → t.ledger.returned b = s.ledger.returned b
  passed : ∀ j q, ¬(j = i ∧ q = r) → t.ledger.passed j q = s.ledger.passed j q
  own : t.ledger.drawn a + (s.ledger.passed i r + s.balance (i + 1) r + s.ledger.returned a) =
    s.ledger.drawn a + (t.ledger.passed i r + t.balance (i + 1) r + t.ledger.returned a)
  once : t.ledger.returned a = s.ledger.returned a ∨
    t.ledger.returned a = s.ledger.returned a + s.balance (i + 1) r ∧ t.balance (i + 1) r = 0

lemma Charges.balance (h : Charges s t i r a) {j q : ℕ} (hne : ¬(j = i ∧ q = r)) :
    t.balance (j + 1) q = s.balance (j + 1) q := by
  by_cases hj : j = i
  · subst hj
    exact h.others q fun hq => hne ⟨rfl, hq⟩
  · rw [WorkerData.balance, WorkerData.balance, tokensOf, tokensOf, h.elsewhere _ (by omega)]

lemma Charges.admissionAt (h : Charges s t i r a) (j q : ℕ) :
    t.admissionAt j q = s.admissionAt j q := by
  rw [WorkerData.admissionAt, WorkerData.admissionAt, h.generations]

lemma Inv.keeps_charges (h : Inv s) (hat : s.admissionAt i r = some a) (hi : i ∉ s.retired)
    (hcall : t.call = none) (hch : Charges s t i r a) : Keeps s t := by
  have hother : ∀ j q b, s.admissionAt j q = some b → ¬(j = i ∧ q = r) → b ≠ a := by
    rintro j q b hb hne rfl
    exact hne (h.distinct j i q r b hb hat)
  have hbound := h.bound i r a hat
  refine ⟨⟨fun j g hg => ?_, fun j q b hb => ?_, fun j k q p b hb hb' => ?_, fun v lb hlb => ?_,
    fun j g hg => ?_, fun b hb => ?_, fun j q hj => ?_, fun j q b hb => ?_, fun j q phase hc => ?_,
    fun j hmem => ?_⟩, fun j q b hb => ?_, fun j hmem => ?_, fun j q b hb => ?_,
    fun j hmem q b hb => ?_⟩
  · exact h.version j g (hch.generations ▸ hg)
  · rw [hch.admissionAt] at hb
    exact hch.heap ▸ h.bound j q b hb
  · rw [hch.admissionAt] at hb hb'
    exact h.distinct j k q p b hb hb'
  · rw [hch.generations]
    by_cases hv : v = i + 1
    · subst hv
      obtain ⟨g, hg, hadm, hlen⟩ := hch.entry lb hlb
      exact ⟨i, g, hg, rfl, hadm, hlen⟩
    · rw [hch.elsewhere v hv] at hlb
      exact h.entry v lb hlb
  · exact h.quiet j g (hch.generations ▸ hg)
  · rw [hch.heap] at hb
    rw [hch.drawn b (by omega), hch.returned b (by omega)]
    exact h.fresh b hb
  · rw [hch.generations] at hj
    rw [hch.passed j q]
    · exact h.unpassed j q hj
    · rintro ⟨rfl, rfl⟩
      rw [admissionAt, getElem?_eq_none hj] at hat
      cases hat
  · rw [hch.admissionAt] at hb
    have hbefore := h.conserved j q b hb
    by_cases hsame : j = i ∧ q = r
    · obtain ⟨rfl, rfl⟩ := hsame
      cases hat.symm.trans hb
      have hown := hch.own
      omega
    · have hne := hother j q b hb hsame
      rw [hch.drawn b hne, hch.returned b hne, hch.passed j q hsame, hch.balance hsame, hbefore]
  · rw [hcall] at hc
    cases hc
  · rw [hch.retired] at hmem
    obtain ⟨g, hg, hnotified, hnone⟩ := h.retired j hmem
    have hji : j ≠ i := fun heq => hi (heq ▸ hmem)
    exact ⟨g, hch.generations ▸ hg, hnotified, by rw [hch.elsewhere _ (by omega), hnone]⟩
  · rw [hch.admissionAt, hb]
  · rw [hch.retired]
    exact hmem
  · by_cases hsame : j = i ∧ q = r
    · obtain ⟨rfl, rfl⟩ := hsame
      cases hat.symm.trans hb
      exact hch.once
    · exact .inl (hch.returned b (hother j q b hb hsame))
  · refine hch.drawn b (hother j q b hb ?_)
    rintro ⟨rfl, rfl⟩
    exact hi hmem

lemma Inv.emplaced (h : Inv s) (hg : s.generations[i]? = some g) :
    (s.emplaced g).admissions = g.admissions ∧
      (s.emplaced g).balances.length = g.admissions.length := by
  rw [WorkerData.emplaced]
  cases hlb : s.leaseBalances.lookup g.version with
  | none => exact ⟨rfl, length_replicate⟩
  | some lb =>
    obtain ⟨j, k, hk, hj, hadm, hlen⟩ := h.entry _ lb hlb
    rw [h.version i g hg, Nat.add_right_cancel_iff] at hj
    subst hj
    cases hg.symm.trans hk
    exact ⟨hadm, hlen⟩

/-- The entry is written back unless the call was only about the in-flight slot. -/
def writeBack (s : WorkerData) (g : RuntimeGeneration) (r : ℕ) (phase : AdmitPhase)
    (after : LeaseCall) : AList (fun _ : ℕ => LeaseBalance) :=
  if phase = .idle then s.leaseBalances else
    s.leaseBalances.insert g.version
      { s.emplaced g with balances := (s.emplaced g).balances.set r after.balance }

section
variable (h : Inv s)
include h

lemma Inv.tokensOf_writeBack {after : LeaseCall} (hg : s.generations[i]? = some g)
    (hr : r < g.admissions.length)
    (hidle : phase = .idle → after.balance.toNat = s.balance (i + 1) r) (q : ℕ) :
    tokensOf (s.writeBack g r phase after) (i + 1) q =
      if q = r then after.balance.toNat else s.balance (i + 1) q := by
  have hversion := h.version i g hg
  rw [writeBack]
  split
  · next hphase =>
    split
    · next hq => rw [hq, hidle hphase, balance]
    · rfl
  · rw [tokensOf_insert, if_pos hversion.symm, LeaseBalance.tokens_set, tokens_emplaced, hversion,
      (h.emplaced hg).2]
    simp only [hr, and_true]

/-- **One piece of `TryAdmit`.** The admission of the route is charged with what the piece did,
and its balance is what the piece left. -/
theorem Inv.charges_piece {batch : UInt32} {admission admission' : GlobalAdmission}
    {after : LeaseCall} {result : Option Bool} (hg : s.generations[i]? = some g)
    (ha : g.admissions[r]? = some a) (hsettled : phase = .returned → s.balance (i + 1) r = 0)
    (hadv : LeaseCall.advance batch ⟨phase, (s.emplaced g).balances.getD r 0⟩ admission =
      (after, admission', result))
    (ht : t = { s with
      heap := s.heap.set a admission'
      leaseBalances := s.writeBack g r phase after
      ledger := s.ledger.record a ⟨i, r, .leased phase⟩
        ⟨phase, (s.emplaced g).balances.getD r 0⟩ after result
      call := none }) : Charges s t i r a ∧ t.balance (i + 1) r = after.balance.toNat := by
  have hversion := h.version i g hg
  have hr : r < g.admissions.length := (List.getElem?_eq_some_iff.mp ha).1
  have hbefore : ((s.emplaced g).balances.getD r 0).toNat = s.balance (i + 1) r := by
    rw [← hversion, ← tokens_emplaced, LeaseBalance.tokens]
  have hidle : phase = .idle → after.balance.toNat = s.balance (i + 1) r := by
    intro hphase
    rw [(LeaseCall.advance_idle hphase hadv).1, hbefore]
  have hbalance : ∀ q, t.balance (i + 1) q =
      if q = r then after.balance.toNat else s.balance (i + 1) q := by
    intro q
    rw [balance, ht]
    exact h.tokensOf_writeBack hg hr hidle q
  have hown : t.balance (i + 1) r = after.balance.toNat := by rw [hbalance, if_pos rfl]
  have htokens := LeaseCall.advance_tokens (fun hphase => by
    rw [← UInt32.toNat_inj, hbefore, hsettled hphase]
    rfl) hadv
  rw [hbefore] at htokens
  have hcleared : after.phase = .returned → after.balance = 0 := LeaseCall.Settled.advance hadv
  obtain ⟨hdrawn, hreturned, hpassed⟩ := s.ledger.record_self a ⟨i, r, .leased phase⟩
    ⟨phase, (s.emplaced g).balances.getD r 0⟩ after result
  have hledger : t.ledger = s.ledger.record a ⟨i, r, .leased phase⟩
    ⟨phase, (s.emplaced g).balances.getD r 0⟩ after result := by rw [ht]
  rw [← hledger, hbefore] at hreturned
  rw [← hledger] at hdrawn hpassed
  dsimp only at hpassed
  refine ⟨⟨?_, ?_, ?_, fun v hv => ?_, fun lb hlb => ?_, fun q hq => ?_, fun b hb => ?_,
    fun b hb => ?_, fun j q hjq => ?_, ?_, ?_⟩, hown⟩
  · rw [ht]
    exact length_set
  · rw [ht]
  · rw [ht]
  · rw [ht]
    rw [writeBack]
    split
    · rfl
    · exact lookup_insert_ne (by rw [hversion]; exact hv)
  · rw [ht] at hlb
    rw [writeBack] at hlb
    split at hlb
    · obtain ⟨j, k, hk, hj, hadm, hlen⟩ := h.entry _ lb hlb
      rw [Nat.add_right_cancel_iff] at hj
      exact ⟨k, hj ▸ hk, hadm, hlen⟩
    · rw [hversion, lookup_insert] at hlb
      cases hlb
      exact ⟨g, hg, (h.emplaced hg).1, length_set.trans (h.emplaced hg).2⟩
  · rw [hbalance, if_neg hq]
  · rw [ht]
    exact (s.ledger.record_of_ne hb _ _ _ _).1
  · rw [ht]
    exact (s.ledger.record_of_ne hb _ _ _ _).2
  · rw [ht]
    exact if_neg fun hc => hjq ⟨hc.1, hc.2.1⟩
  · rw [hown, hdrawn, hreturned, hpassed]
    omega
  rw [hown, hreturned]
  by_cases hphase : after.phase = .returned
  · rw [if_pos hphase, hcleared hphase]
    exact .inr ⟨rfl, rfl⟩
  · rw [if_neg hphase]
    exact .inl rfl

lemma Inv.keeps_tryAdmit (hcall : s.call = some ⟨i, r, .leased phase⟩)
    (ht : s.tryAdmit ⟨i, r, .leased phase⟩ phase = some t) : Keeps s t := by
  obtain ⟨g, hg, hpos, hsettled⟩ := h.leased i r phase hcall
  rw [tryAdmit, hg, bind_some] at ht
  cases ha : g.admissions[r]? with
  | none =>
    rw [ha] at ht
    exact keeps_endCall (Keeps.refl h).withoutCall ht
  | some a =>
    rw [ha] at ht
    obtain ⟨admission, -, hbody⟩ := bind_eq_some_iff.mp ht
    obtain ⟨⟨after, admission', result⟩, hadv⟩ : ∃ x, LeaseCall.advance
        (leaseBatch admission.limits.rate g.workers admission.limits.burst)
        ⟨phase, (s.emplaced g).balances.getD r 0⟩ admission = x := ⟨_, rfl⟩
    dsimp only at hbody
    rw [hadv] at hbody
    have hat : s.admissionAt i r = some a := by rw [admissionAt, hg, bind_some, ha]
    obtain ⟨hcharges, hbalance⟩ := h.charges_piece hg ha hsettled hadv rfl
    have hkeeps := h.keeps_charges hat (h.unretired hcall) rfl hcharges
    cases result with
    | none =>
      cases hbody
      refine hkeeps.same (hkeeps.inv.withCall fun j q p heq => ?_) rfl rfl (fun _ hj => hj)
        fun _ _ _ hb => hb
      cases heq
      refine ⟨g, hg, hpos, fun hp => ?_⟩
      rw [hbalance, (LeaseCall.Settled.advance hadv) hp]
      rfl
    | some admitted => exact keeps_endCall hkeeps hbody

/-! ### The whole step -/

lemma Inv.keeps_settles (hidle : s.call = none) (hst : Settles s t) : Keeps s t := by
  refine ⟨h.settles hidle hst, fun i r a ha => (hst.admissionAt i r).trans ha,
    fun i hi => hst.retired ▸ hi, fun i r a ha => ?_, fun i _ r a _ => by rw [hst.drawn]⟩
  rcases hst.returned i r a ha with ⟨hsame, -⟩ | hreturned
  · exact .inl hsame
  · exact .inr hreturned

/-- What `ReturnGenerationLeaseBalance` does outside of `HandleRequest`. -/
lemma Inv.keeps_returnGeneration (hidle : s.call = none) (v : ℕ) :
    Keeps s (s.returnGenerationLeaseBalance v) ∧
      (s.returnGenerationLeaseBalance v).generations = s.generations ∧
      (s.returnGenerationLeaseBalance v).retired = s.retired ∧
      (s.returnGenerationLeaseBalance v).leaseBalances.lookup v = none := by
  rw [returnGenerationLeaseBalance]
  cases hlb : s.leaseBalances.lookup v with
  | none => exact ⟨.refl h, rfl, rfl, hlb⟩
  | some lb =>
    obtain ⟨hst, hzero⟩ := h.settles_returnEntry hidle v
    have hkeeps := h.keeps_settles hidle hst
    obtain ⟨hinv, hbalance⟩ := hkeeps.inv.eraseEntry hzero
    refine ⟨⟨hinv, hkeeps.admissionAt, hkeeps.retired, fun i r a ha => ?_, hkeeps.undrawn⟩,
      hst.generations, hst.retired, lookup_erase _ _⟩
    rw [hbalance]
    exact hkeeps.once i r a ha

lemma Inv.retire (hg : s.generations[i]? = some g)
    (hnotified : g.retirementNotified) (hnone : s.leaseBalances.lookup (i + 1) = none) :
    Inv { s with retired := i :: s.retired } := by
  refine { h with retired := fun j hmem => ?_ }
  rcases mem_cons.mp hmem with rfl | hmem
  · exact ⟨g, hg, hnotified, hnone⟩
  · exact h.retired j hmem

lemma Inv.keeps_returnBalance (hidle : s.call = none)
    (hg : s.generations[i]? = some g) (hnotified : g.retirementNotified) :
    Keeps s { s.returnGenerationLeaseBalance g.version with retired := i :: s.retired } := by
  obtain ⟨hkeeps, hgens, hretired, hnone⟩ := h.keeps_returnGeneration hidle g.version
  rw [h.version i g hg] at hnone
  have hinv := hkeeps.inv.retire (hgens ▸ hg) hnotified (h.version i g hg ▸ hnone)
  rw [hretired] at hinv
  refine hkeeps.same hinv rfl rfl (fun j hj => ?_) fun _ _ _ ha => ha
  exact mem_cons_of_mem i (hretired ▸ hj)

lemma Inv.keeps_modify (a : ℕ) (f : GlobalAdmission → GlobalAdmission) :
    Keeps s { s with heap := s.heap.modify a f } :=
  (Keeps.refl h).same (h.frame (length_modify _ _ _) (.refl _) h.quiet rfl rfl rfl h.leased)
    rfl rfl (fun _ hi => hi) fun _ _ _ ha => ha

lemma Inv.step {e : Event} (ht : s.step e = some t) : Keeps s t := by
  cases e with
  | publish routes now => exact h.keeps_publish ht
  | request route =>
    rw [WorkerData.step] at ht
    obtain ⟨-, ⟨⟩⟩ := ite_none_left_eq_some.mp ht
    exact (Keeps.refl h).same (h.withCall nofun) rfl rfl (fun _ hi => hi) fun _ _ _ ha => ha
  | advance =>
    obtain ⟨⟨i, r, phase⟩, hcall, hbody⟩ := bind_eq_some_iff.mp ht
    cases phase with
    | loaded => exact h.keeps_acquireLease hbody
    | leased phase => exact h.keeps_tryAdmit hcall hbody
  | control i c =>
    obtain ⟨g, hg, rfl⟩ := map_eq_some_iff.mp ht
    obtain ⟨hquiet, hlater, hleases⟩ := (h.quiet i g hg).control c
    exact keeps_setGeneration (.refl h) hg hquiet hlater (hleases ▸ h.heldByCall_le hg)
  | otherLease i =>
    obtain ⟨k, hk, rfl⟩ := map_eq_some_iff.mp ht
    obtain ⟨g, hg, hacquire⟩ := bind_eq_some_iff.mp hk
    obtain ⟨hquiet, hlater, -, hleases⟩ := (h.quiet i g hg).tryAcquireRequestLease hacquire
    refine keeps_setGeneration (.refl h) hg hquiet hlater ?_
    exact (h.heldByCall_le hg).trans (hleases ▸ Nat.le_succ _)
  | finish i =>
    obtain ⟨g, hg, hbody⟩ := bind_eq_some_iff.mp ht
    obtain ⟨hheld, hbody⟩ := ite_none_left_eq_some.mp hbody
    refine keeps_releaseLease (.refl h) hbody fun k hk _ => ?_
    cases hg.symm.trans hk
    omega
  | others a op | othersInflight a | releaseInflight a =>
    cases ht
    exact h.keeps_modify a _
  | returnBalance i =>
    obtain ⟨g, hg, hbody⟩ := bind_eq_some_iff.mp ht
    obtain ⟨hready, ⟨⟩⟩ := ite_none_left_eq_some.mp hbody
    rw [not_or, Bool.not_eq_true, isSome_eq_false_iff, isNone_iff_eq_none,
      Bool.not_eq_false] at hready
    exact h.keeps_returnBalance hready.1 hg hready.2
  | shutdown =>
    rw [WorkerData.step] at ht
    obtain ⟨hidle, ⟨⟩⟩ := ite_none_left_eq_some.mp ht
    rw [Bool.not_eq_true, isSome_eq_false_iff, isNone_iff_eq_none] at hidle
    exact h.keeps_settles hidle (h.settles_shutdown hidle)

end

/-! ## Whole runs -/

lemma inv_create (workers : UInt32) (routes : List AdmissionLimits) (now : ℤ) :
    Inv (create workers routes now) := by
  have hempty : Inv { heap := [], generations := [] } :=
    ⟨nofun, nofun, nofun, nofun, nofun, fun _ _ => ⟨rfl, rfl⟩, fun _ _ _ => rfl, nofun, nofun,
      nofun⟩
  exact hempty.extend (n := routes.length) rfl
    (by simp [create, build]) rfl rfl nofun rfl rfl rfl rfl

lemma Inv.run_retired (h : Inv s) {fs : List Event} (ht : run WorkerData.step s fs = some t)
    (hi : i ∈ s.retired) :
    Inv t ∧ i ∈ t.retired ∧ ∀ r a, s.admissionAt i r = some a →
      t.ledger.drawn a = s.ledger.drawn a := by
  have hrun : Inv t ∧ i ∈ t.retired ∧ ∀ r a, s.admissionAt i r = some a →
      t.admissionAt i r = some a ∧ t.ledger.drawn a = s.ledger.drawn a := by
    refine run_invariant (I := fun u => Inv u ∧ i ∈ u.retired ∧ ∀ r a, s.admissionAt i r = some a →
      u.admissionAt i r = some a ∧ u.ledger.drawn a = s.ledger.drawn a) ?_
      ⟨h, hi, fun _ _ ha => ⟨ha, rfl⟩⟩ ht
    intro u e v ⟨hu, hmem, hdrawn⟩ hv
    have hkeeps := hu.step hv
    refine ⟨hkeeps.inv, hkeeps.retired i hmem, fun r a ha => ?_⟩
    obtain ⟨hadm, hsame⟩ := hdrawn r a ha
    exact ⟨hkeeps.admissionAt i r a hadm, (hkeeps.undrawn i hmem r a hadm).trans hsame⟩
  exact ⟨hrun.1, hrun.2.1, fun r a ha => (hrun.2.2 r a ha).2⟩

/-- **Leases are conserved across reloads.** In every reachable state, for every route of every
generation: what was drawn from its admission was spent by requests, is held or was returned to
it; no other route has that admission; a step returns nothing to it or all that is held for the
route, which then holds nothing; and once the balance of a retired generation was returned, the
worker holds nothing for it and draws nothing from it ever after. -/
theorem leases_conserved {workers : UInt32} {routes : List AdmissionLimits} {now : ℤ}
    {es : List Event} (hs : run WorkerData.step (create workers routes now) es = some s) :
    ∀ (i : ℕ) (g : RuntimeGeneration), s.generations[i]? = some g →
      (∀ r a, g.admissions[r]? = some a →
        s.ledger.drawn a = s.ledger.passed i r + s.balance g.version r + s.ledger.returned a ∧
        (∀ (j : ℕ) (k : RuntimeGeneration) q, s.generations[j]? = some k →
          k.admissions[q]? = some a → j = i ∧ q = r) ∧
        ∀ e t, s.step e = some t → t.ledger.returned a = s.ledger.returned a ∨
          t.ledger.returned a = s.ledger.returned a + s.balance g.version r ∧
            t.balance g.version r = 0) ∧
      (i ∈ s.retired → ∀ fs t, run WorkerData.step s fs = some t →
        t.leaseBalances.lookup g.version = none ∧
          ∀ a ∈ g.admissions, t.ledger.drawn a = s.ledger.drawn a) := by
  have h : Inv s := run_invariant (I := Inv) (fun u e v hu hv => (hu.step hv).inv)
    (inv_create workers routes now) hs
  intro i g hg
  have hat : ∀ r, s.admissionAt i r = g.admissions[r]? := by
    intro r
    rw [admissionAt, hg, bind_some]
  rw [h.version i g hg]
  refine ⟨fun r a ha => ⟨h.conserved i r a (by rw [hat, ha]), fun j k q hk hq => ?_,
    fun e t ht => (h.step ht).once i r a (by rw [hat, ha])⟩, fun hi fs t ht => ?_⟩
  · refine h.distinct j i q r a ?_ (by rw [hat, ha])
    rw [admissionAt, hk, bind_some, hq]
  · obtain ⟨hinv, hmem, hdrawn⟩ := h.run_retired ht hi
    obtain ⟨k, -, -, hnone⟩ := hinv.retired i hmem
    refine ⟨hnone, fun a ha => ?_⟩
    obtain ⟨r, hr⟩ := getElem?_of_mem ha
    exact hdrawn r a (by rw [hat, hr])

/-- A request draws two tokens and spends one; a reload retires its generation. -/
theorem leases_conserved_reload : ∃ s g,
    run WorkerData.step (create 1 [⟨2, 2, 4, by decide, by decide, by decide⟩] 0)
      [.request 0, .advance, .advance, .advance, .advance, .advance, .publish [] 0,
        .control 0 .beginRetirement, .finish 0, .returnBalance 0] = some s ∧
      s.generations[0]? = some g ∧ s.ledger.drawn 0 = 2 ∧ s.ledger.passed 0 0 = 1 ∧
      s.ledger.drawn 0 = s.ledger.passed 0 0 + s.balance g.version 0 + s.ledger.returned 0 ∧
      ∀ fs t, run WorkerData.step s fs = some t → t.ledger.drawn 0 = s.ledger.drawn 0 := by
  obtain ⟨s, hs⟩ : ∃ s, run step
      (create 1 [⟨2, 2, 4, by decide, by decide, by decide⟩] 0)
      [.request 0, .advance, .advance, .advance, .advance, .advance, .publish [] 0,
        .control 0 .beginRetirement, .finish 0, .returnBalance 0] = some s := ⟨_, rfl⟩
  have h := leases_conserved hs
  cases hs
  obtain ⟨hroute, hretired⟩ := h 0 _ rfl
  refine ⟨_, _, rfl, rfl, rfl, rfl, (hroute 0 0 rfl).1, fun fs t ht => ?_⟩
  exact (hretired (by decide) fs t ht).2 0 (by decide)

end WorkerData
end AegisGate.Runtime
