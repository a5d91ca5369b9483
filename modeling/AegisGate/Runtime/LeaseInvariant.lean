import AegisGate.Runtime.WorkerData

/-!
# The balances of a worker between steps

For every route of every generation, what the worker drew from the route's admission is what
its requests spent, what it still holds and what it gave back to that same admission. The
invariant below states this with the facts it rests on: no two routes share an admission, an
entry of the balances belongs to the generation of its version, and a generation whose last
request lease was reported has no leases.

The loops that return balances, at retirement and at shutdown, are here as well: each turn
clears the balance it returns.
-/

namespace AegisGate.Runtime
open Lib Resilience Option Function List AList

/-! ## Balances after a change -/

lemma LeaseBalance.tokens_set (lb : LeaseBalance) (route : ℕ) (n : UInt32) (r : ℕ) :
    LeaseBalance.tokens { lb with balances := lb.balances.set route n } r =
      if r = route ∧ route < lb.balances.length then n.toNat else lb.tokens r := by
  rw [tokens, tokens, getD_eq_getElem?_getD, getD_eq_getElem?_getD, getElem?_set]
  by_cases hr : route = r
  · subst hr
    by_cases hlt : route < lb.balances.length
    · simp [hlt]
    · simp [hlt]
  · rw [if_neg hr, if_neg (by simp [Ne.symm hr])]

lemma tokensOf_insert (m : AList (fun _ : ℕ => LeaseBalance)) (v : ℕ) (lb : LeaseBalance)
    (w r : ℕ) : tokensOf (m.insert v lb) w r = if w = v then lb.tokens r else tokensOf m w r := by
  by_cases hw : w = v
  · subst hw
    simp [tokensOf]
  · simp [tokensOf, hw, lookup_insert_ne hw]

lemma tokensOf_erase (m : AList (fun _ : ℕ => LeaseBalance)) (v w r : ℕ) :
    tokensOf (m.erase v) w r = if w = v then 0 else tokensOf m w r := by
  by_cases hw : w = v
  · subst hw
    simp [tokensOf]
  · simp [tokensOf, hw, lookup_erase_ne hw]

lemma tokensOf_lookup {m : AList (fun _ : ℕ => LeaseBalance)} {v : ℕ} {lb : LeaseBalance}
    (h : m.lookup v = some lb) (r : ℕ) : tokensOf m v r = lb.tokens r := by
  rw [tokensOf, h]

/-- What a piece of `TryAdmit` adds to the ledger of its own admission and route. -/
lemma LeaseLedger.record_self (l : LeaseLedger) (a : ℕ) (req : AdmitRequest) (c d : LeaseCall)
    (result : Option Bool) :
    (l.record a req c d result).drawn a =
        l.drawn a + (if c.phase = .returned then d.balance.toNat else 0) ∧
      (l.record a req c d result).returned a =
        l.returned a + (if d.phase = .returned then c.balance.toNat else 0) ∧
      (l.record a req c d result).passed req.generation req.route =
        l.passed req.generation req.route + (result == some true).toNat := by
  refine ⟨?_, ?_, ?_⟩
  · by_cases hphase : c.phase = .returned <;> simp [record, hphase]
  · by_cases hphase : d.phase = .returned <;> simp [record, hphase]
  · by_cases hresult : result = some true <;> simp [record, hresult]

lemma LeaseLedger.record_of_ne (l : LeaseLedger) {a b : ℕ} (hb : b ≠ a) (req : AdmitRequest)
    (c d : LeaseCall) (result : Option Bool) :
    (l.record a req c d result).drawn b = l.drawn b ∧
      (l.record a req c d result).returned b = l.returned b := by
  refine ⟨?_, ?_⟩
  · by_cases hphase : c.phase = .returned <;> simp [record, hphase, hb]
  · by_cases hphase : d.phase = .returned <;> simp [record, hphase, hb]

namespace WorkerData
variable {s t u : WorkerData}

lemma tokens_emplaced (s : WorkerData) (g : RuntimeGeneration) (r : ℕ) :
    (s.emplaced g).tokens r = s.balance g.version r := by
  rw [emplaced, balance, tokensOf]
  cases s.leaseBalances.lookup g.version with
  | none =>
    rw [getD_none, LeaseBalance.tokens, getD_eq_getElem?_getD]
    by_cases hr : r < g.admissions.length
    · simp [hr]
    · simp [hr]
  | some lb => rfl

/-! ## The invariant -/

def admissionAt (s : WorkerData) (i r : ℕ) : Option ℕ :=
  s.generations[i]?.bind fun g => g.admissions[r]?

/-- The worker and its gateway between steps. The version of a generation is one more than its
number. -/
structure Inv (s : WorkerData) : Prop where
  version : ∀ (i : ℕ) g, s.generations[i]? = some g → g.version = i + 1
  bound : ∀ i r a, s.admissionAt i r = some a → a < s.heap.length
  /-- No two routes share an admission. -/
  distinct : ∀ i j r q a, s.admissionAt i r = some a → s.admissionAt j q = some a → i = j ∧ r = q
  /-- An entry belongs to the generation of its version. -/
  entry : ∀ v lb, s.leaseBalances.lookup v = some lb → ∃ i g, s.generations[i]? = some g ∧
    v = i + 1 ∧ lb.admissions = g.admissions ∧ lb.balances.length = g.admissions.length
  quiet : ∀ (i : ℕ) (g : RuntimeGeneration), s.generations[i]? = some g → g.Quiet
  fresh : ∀ a, s.heap.length ≤ a → s.ledger.drawn a = 0 ∧ s.ledger.returned a = 0
  unpassed : ∀ i r, s.generations.length ≤ i → s.ledger.passed i r = 0
  conserved : ∀ i r a, s.admissionAt i r = some a →
    s.ledger.drawn a = s.ledger.passed i r + s.balance (i + 1) r + s.ledger.returned a
  leased : ∀ i r phase, s.call = some ⟨i, r, .leased phase⟩ → ∃ g : RuntimeGeneration,
    s.generations[i]? = some g ∧ 1 ≤ g.activeRequestLeases ∧
      (phase = .returned → s.balance (i + 1) r = 0)
  retired : ∀ i ∈ s.retired, ∃ g : RuntimeGeneration, s.generations[i]? = some g ∧
    g.retirementNotified ∧ s.leaseBalances.lookup (i + 1) = none

lemma Inv.unretired (h : Inv s) {i r : ℕ} {phase : AdmitPhase}
    (hcall : s.call = some ⟨i, r, .leased phase⟩) : i ∉ s.retired := by
  intro hmem
  obtain ⟨g, hg, hpos, -⟩ := h.leased i r phase hcall
  obtain ⟨k, hk, hnotified, -⟩ := h.retired i hmem
  cases hg.symm.trans hk
  have hzero := (h.quiet i g hg hnotified).2
  omega

/-- The same generations, some of them at a later time. -/
structure Aligned (gs ks : List RuntimeGeneration) : Prop where
  length : ks.length = gs.length
  back : ∀ (i : ℕ) k, ks[i]? = some k → ∃ g : RuntimeGeneration, gs[i]? = some g ∧ g.Later k
  forth : ∀ (i : ℕ) (g : RuntimeGeneration), gs[i]? = some g → ∃ k, ks[i]? = some k ∧ g.Later k

lemma Aligned.refl (gs : List RuntimeGeneration) : Aligned gs gs :=
  ⟨rfl, fun _ k hk => ⟨k, hk, .refl k⟩, fun _ g hg => ⟨g, hg, .refl g⟩⟩

lemma aligned_set {gs : List RuntimeGeneration} {i : ℕ} {g k : RuntimeGeneration}
    (hg : gs[i]? = some g) (hlater : g.Later k) : Aligned gs (gs.set i k) := by
  have hlt : i < gs.length := (List.getElem?_eq_some_iff.mp hg).1
  refine ⟨length_set, fun j m hm => ?_, fun j m hm => ?_⟩
  · rw [getElem?_set] at hm
    split at hm
    · next hij =>
      subst hij
      cases hm
      exact ⟨g, hg, hlater⟩
    · exact ⟨m, hm, .refl m⟩
  rw [getElem?_set]
  split
  · next hij =>
    subst hij
    cases hg.symm.trans hm
    exact ⟨k, rfl, hlater⟩
  · exact ⟨m, hm, .refl m⟩

lemma Aligned.admissionAt (h : Aligned s.generations t.generations) (i r : ℕ) :
    t.admissionAt i r = s.admissionAt i r := by
  rw [WorkerData.admissionAt, WorkerData.admissionAt]
  cases hk : t.generations[i]? with
  | none =>
    cases hg : s.generations[i]? with
    | none => rfl
    | some g =>
      obtain ⟨k, hk', -⟩ := h.forth i g hg
      rw [hk] at hk'
      cases hk'
  | some k =>
    obtain ⟨g, hg, hlater⟩ := h.back i k hk
    rw [hg, bind_some, bind_some, hlater.admissions]

lemma Inv.frame (h : Inv s) (hheap : t.heap.length = s.heap.length)
    (hgens : Aligned s.generations t.generations)
    (hquiet : ∀ (i : ℕ) (g : RuntimeGeneration), t.generations[i]? = some g → g.Quiet)
    (hbalances : t.leaseBalances = s.leaseBalances) (hledger : t.ledger = s.ledger)
    (hretired : t.retired = s.retired)
    (hleased : ∀ i r phase, t.call = some ⟨i, r, .leased phase⟩ → ∃ g : RuntimeGeneration,
      t.generations[i]? = some g ∧ 1 ≤ g.activeRequestLeases ∧
        (phase = .returned → s.balance (i + 1) r = 0)) : Inv t := by
  have hbalance : ∀ v r, t.balance v r = s.balance v r := by
    intro v r
    rw [balance, balance, hbalances]
  refine ⟨fun i k hk => ?_, fun i r a ha => ?_, fun i j r q a ha hb => ?_, fun v lb hlb => ?_,
    hquiet, fun a ha => ?_, fun i r hi => ?_, fun i r a ha => ?_, fun i r phase hcall => ?_,
    fun i hmem => ?_⟩
  · obtain ⟨g, hg, hlater⟩ := hgens.back i k hk
    exact hlater.version.trans (h.version i g hg)
  · rw [hgens.admissionAt] at ha
    exact hheap ▸ h.bound i r a ha
  · rw [hgens.admissionAt] at ha hb
    exact h.distinct i j r q a ha hb
  · rw [hbalances] at hlb
    obtain ⟨i, g, hg, hversion, hadmissions, hlength⟩ := h.entry v lb hlb
    obtain ⟨k, hk, hlater⟩ := hgens.forth i g hg
    rw [← hlater.admissions] at hadmissions hlength
    exact ⟨i, k, hk, hversion, hadmissions, hlength⟩
  · rw [hledger]
    exact h.fresh a (hheap ▸ ha)
  · rw [hledger]
    exact h.unpassed i r (hgens.length ▸ hi)
  · rw [hgens.admissionAt] at ha
    rw [hledger, hbalance]
    exact h.conserved i r a ha
  · obtain ⟨g, hg, hpos, hzero⟩ := hleased i r phase hcall
    exact ⟨g, hg, hpos, fun hphase => (hbalance _ _).trans (hzero hphase)⟩
  · rw [hretired] at hmem
    obtain ⟨g, hg, hnotified, hnone⟩ := h.retired i hmem
    obtain ⟨k, hk, hlater⟩ := hgens.forth i g hg
    exact ⟨k, hk, hlater.notified hnotified, by rw [hbalances, hnone]⟩

/-! ## The loops that return balances -/

/-- What was returned for a route between two states: nothing, or its whole balance, which it
then no longer holds. -/
def ReturnsOwn (s t : WorkerData) : Prop :=
  ∀ i r a, s.admissionAt i r = some a →
    t.ledger.returned a = s.ledger.returned a ∧ t.balance (i + 1) r = s.balance (i + 1) r ∨
      t.ledger.returned a = s.ledger.returned a + s.balance (i + 1) r ∧ t.balance (i + 1) r = 0

/-- What the return of balances may change. -/
structure Settles (s t : WorkerData) : Prop where
  heap : t.heap.length = s.heap.length
  generations : t.generations = s.generations
  call : t.call = s.call
  retired : t.retired = s.retired
  drawn : t.ledger.drawn = s.ledger.drawn
  passed : t.ledger.passed = s.ledger.passed
  entry : ∀ v lb, t.leaseBalances.lookup v = some lb → ∃ lb', s.leaseBalances.lookup v = some lb' ∧
    lb.admissions = lb'.admissions ∧ lb.balances.length = lb'.balances.length
  outside : ∀ a, s.heap.length ≤ a → t.ledger.returned a = s.ledger.returned a
  returned : ReturnsOwn s t

lemma Settles.refl (s : WorkerData) : Settles s s :=
  ⟨rfl, rfl, rfl, rfl, rfl, rfl, fun _ lb hlb => ⟨lb, hlb, rfl, rfl⟩, fun _ _ => rfl,
    fun _ _ _ _ => .inl ⟨rfl, rfl⟩⟩

lemma Settles.admissionAt (h : Settles s t) (i r : ℕ) : t.admissionAt i r = s.admissionAt i r := by
  rw [WorkerData.admissionAt, WorkerData.admissionAt, h.generations]

lemma Settles.trans (h : Settles s t) (k : Settles t u) : Settles s u := by
  refine ⟨k.heap.trans h.heap, k.generations.trans h.generations, k.call.trans h.call,
    k.retired.trans h.retired, k.drawn.trans h.drawn, k.passed.trans h.passed,
    fun v lb hlb => ?_, fun a ha => ?_, fun i r a ha => ?_⟩
  · obtain ⟨lb', hlb', hadm, hlen⟩ := k.entry v lb hlb
    obtain ⟨lb'', hlb'', hadm', hlen'⟩ := h.entry v lb' hlb'
    exact ⟨lb'', hlb'', hadm.trans hadm', hlen.trans hlen'⟩
  · exact (k.outside a (h.heap ▸ ha)).trans (h.outside a ha)
  · -- A balance that was returned is zero, so a second return adds nothing.
    have hfirst := h.returned i r a ha
    have hsecond := k.returned i r a (by rw [h.admissionAt]; exact ha)
    omega

/-- The loops keep the invariant; they run outside of `HandleRequest`. -/
lemma Inv.settles (h : Inv s) (hidle : s.call = none) (hst : Settles s t) : Inv t := by
  refine ⟨fun i g hg => ?_, fun i r a ha => ?_, fun i j r q a ha hb => ?_, fun v lb hlb => ?_,
    fun i g hg => ?_, fun a ha => ?_, fun i r hi => ?_, fun i r a ha => ?_,
    fun i r phase hcall => ?_, fun i hmem => ?_⟩
  · exact h.version i g (hst.generations ▸ hg)
  · rw [hst.admissionAt] at ha
    exact hst.heap ▸ h.bound i r a ha
  · rw [hst.admissionAt] at ha hb
    exact h.distinct i j r q a ha hb
  · obtain ⟨lb', hlb', hadm, hlen⟩ := hst.entry v lb hlb
    obtain ⟨i, g, hg, hversion, hadm', hlen'⟩ := h.entry v lb' hlb'
    exact ⟨i, g, hst.generations ▸ hg, hversion, hadm.trans hadm', hlen.trans hlen'⟩
  · exact h.quiet i g (hst.generations ▸ hg)
  · rw [hst.heap] at ha
    rw [hst.drawn, hst.outside a ha]
    exact h.fresh a ha
  · rw [hst.passed]
    exact h.unpassed i r (hst.generations ▸ hi)
  · rw [hst.admissionAt] at ha
    have hbefore := h.conserved i r a ha
    have hreturned := hst.returned i r a ha
    rw [hst.drawn, hst.passed]
    omega
  · rw [hst.call, hidle] at hcall
    cases hcall
  obtain ⟨g, hg, hnotified, hnone⟩ := h.retired i (hst.retired ▸ hmem)
  refine ⟨g, hst.generations ▸ hg, hnotified, ?_⟩
  cases hlb : t.leaseBalances.lookup (i + 1) with
  | none => rfl
  | some lb =>
    obtain ⟨lb', hlb', -⟩ := hst.entry _ lb hlb
    rw [hnone] at hlb'
    cases hlb'

lemma Inv.admissionAt_entry (h : Inv s) {v r a : ℕ} {lb : LeaseBalance}
    (hlb : s.leaseBalances.lookup v = some lb) (ha : lb.admissions[r]? = some a) :
    ∃ i, v = i + 1 ∧ s.admissionAt i r = some a ∧ lb.balances.length = lb.admissions.length := by
  obtain ⟨i, g, hg, hversion, hadm, hlen⟩ := h.entry v lb hlb
  refine ⟨i, hversion, ?_, hlen.trans (congrArg length hadm).symm⟩
  rw [admissionAt, hg, bind_some, ← hadm, ha]

lemma Inv.settles_returnRoute (h : Inv s) (v r : ℕ) :
    Settles s (s.returnRoute v r) ∧ (s.returnRoute v r).balance v r = 0 := by
  rw [returnRoute]
  cases hlb : s.leaseBalances.lookup v with
  | none => exact ⟨.refl s, by rw [balance, tokensOf, hlb]⟩
  | some lb =>
    dsimp only
    split
    · next a n ha hn =>
      obtain ⟨i, hversion, hat, -⟩ := h.admissionAt_entry hlb ha
      have hlt : r < lb.balances.length := (List.getElem?_eq_some_iff.mp hn).1
      have hown : lb.tokens r = n.toNat := by
        simp [LeaseBalance.tokens, getD_eq_getElem?_getD, hn]
      refine ⟨⟨length_modify _ _ _, rfl, rfl, rfl, rfl, rfl, fun w lb' hlb' => ?_,
        fun b hb => ?_, fun j q b hb => ?_⟩, ?_⟩
      · by_cases hw : w = v
        · subst hw
          rw [lookup_insert] at hlb'
          cases hlb'
          exact ⟨lb, hlb, rfl, length_set⟩
        · rw [lookup_insert_ne hw] at hlb'
          exact ⟨lb', hlb', rfl, rfl⟩
      · have hne : b ≠ a := by
          have hbound := h.bound i r a hat
          omega
        exact update_of_ne hne _ _
      · rw [balance, balance, tokensOf_insert, LeaseBalance.tokens_set]
        by_cases hsame : b = a
        · subst hsame
          obtain ⟨rfl, rfl⟩ := h.distinct j i q r b hb hat
          refine .inr ⟨?_, ?_⟩
          · rw [← hversion, tokensOf_lookup hlb, hown]
            exact update_self _ _ _
          · rw [if_pos hversion.symm, if_pos ⟨rfl, hlt⟩]
            rfl
        refine .inl ⟨update_of_ne hsame _ _, ?_⟩
        by_cases hv : j + 1 = v
        · have hq : q ≠ r := by
            rintro rfl
            have hji : j = i := by omega
            subst hji
            exact hsame (some.inj (hb.symm.trans hat))
          rw [if_pos hv, if_neg (by simp [hq]), hv, tokensOf_lookup hlb]
        · rw [if_neg hv]
      · rw [balance, tokensOf_insert, if_pos rfl, LeaseBalance.tokens_set, if_pos ⟨rfl, hlt⟩]
        rfl
    next hnone =>
    refine ⟨.refl s, ?_⟩
    have hout : lb.balances[r]? = none := by
      obtain ⟨i, g, -, -, hadm, hlen⟩ := h.entry v lb hlb
      cases hn : lb.balances[r]? with
      | none => rfl
      | some n =>
        have hlt : r < lb.admissions.length := by
          rw [hadm, ← hlen]
          exact (List.getElem?_eq_some_iff.mp hn).1
        exact absurd hn (hnone _ n (getElem?_eq_getElem hlt))
    rw [balance, tokensOf_lookup hlb]
    simp [LeaseBalance.tokens, getD_eq_getElem?_getD, hout]

lemma Inv.settles_foldl {β : Type} {f : WorkerData → β → WorkerData}
    (hf : ∀ s x, Inv s → s.call = none → Settles s (f s x)) (l : List β) (h : Inv s)
    (hidle : s.call = none) : Settles s (l.foldl f s) := by
  induction l generalizing s with
  | nil => exact .refl s
  | cons x l ih =>
    have hx := hf s x h hidle
    exact hx.trans (ih (h.settles hidle hx) (hx.call.trans hidle))

lemma Inv.balance_foldl (h : Inv s) (hidle : s.call = none) (i : ℕ) (l : List ℕ) {r a : ℕ}
    (ha : s.admissionAt i r = some a) (hr : s.balance (i + 1) r = 0 ∨ r ∈ l) :
    (l.foldl (fun s r => s.returnRoute (i + 1) r) s).balance (i + 1) r = 0 := by
  induction l generalizing s with
  | nil =>
    rcases hr with hzero | hmem
    · exact hzero
    · cases hmem
  | cons q l ih =>
    obtain ⟨hst, hq⟩ := h.settles_returnRoute (i + 1) q
    refine ih (h.settles hidle hst) (hst.call.trans hidle) (by rw [hst.admissionAt, ha]) ?_
    rcases hr with hzero | hmem
    · left
      rcases hst.returned i r a ha with ⟨-, hkept⟩ | ⟨-, hcleared⟩
      · exact hkept.trans hzero
      · exact hcleared
    · rcases mem_cons.mp hmem with rfl | hmem
      · exact .inl hq
      · exact .inr hmem

lemma Inv.settles_returnEntry (h : Inv s) (hidle : s.call = none) (v : ℕ) :
    Settles s (s.returnEntry v) ∧ ∀ r, (s.returnEntry v).balance v r = 0 := by
  rw [returnEntry]
  cases hlb : s.leaseBalances.lookup v with
  | none => exact ⟨.refl s, fun r => by rw [balance, tokensOf, hlb]⟩
  | some lb =>
    obtain ⟨i, g, hg, rfl, hadm, hlen⟩ := h.entry v lb hlb
    set n := min lb.balances.length lb.admissions.length with hn
    have hst := Inv.settles_foldl (f := fun s r => s.returnRoute (i + 1) r)
      (fun s r hs _ => (hs.settles_returnRoute (i + 1) r).1) (range n) h hidle
    refine ⟨hst, fun r => ?_⟩
    by_cases hr : r < n
    · have hlt : r < g.admissions.length := by
        rw [← hadm]
        omega
      refine h.balance_foldl hidle i _ (a := g.admissions[r]) ?_ (.inr (mem_range.mpr hr))
      rw [admissionAt, hg, bind_some, getElem?_eq_getElem hlt]
    · -- Beyond the routes of the entry there is nothing to hold.
      rw [balance, tokensOf]
      cases hafter : ((range n).foldl (fun s r => s.returnRoute (i + 1) r) s
        ).leaseBalances.lookup (i + 1) with
      | none => rfl
      | some lb' =>
        obtain ⟨lb'', hlb'', -, hlen'⟩ := hst.entry _ _ hafter
        cases hlb.symm.trans hlb''
        have hout : lb'.balances[r]? = none := by
          rw [getElem?_eq_none_iff, hlen', hlen, ← hadm]
          rw [hadm] at hn
          rw [hadm]
          omega
        simp [LeaseBalance.tokens, getD_eq_getElem?_getD, hout]

lemma Inv.settles_shutdown (h : Inv s) (hidle : s.call = none) : Settles s s.shutdown :=
  h.settles_foldl (fun _ v hs hcall => (hs.settles_returnEntry hcall v).1) _ hidle

lemma Inv.eraseEntry (h : Inv s) {v : ℕ} (hzero : ∀ r, s.balance v r = 0) :
    Inv { s with leaseBalances := s.leaseBalances.erase v } ∧
      ∀ w r, balance { s with leaseBalances := s.leaseBalances.erase v } w r = s.balance w r := by
  have hbalance : ∀ w r,
      balance { s with leaseBalances := s.leaseBalances.erase v } w r = s.balance w r := by
    intro w r
    rw [balance, tokensOf_erase]
    split
    · next hw => rw [hw, hzero]
    · rfl
  have hlookup : ∀ w lb, (s.leaseBalances.erase v).lookup w = some lb →
      s.leaseBalances.lookup w = some lb := by
    intro w lb hlb
    by_cases hw : w = v
    · subst hw
      rw [lookup_erase] at hlb
      cases hlb
    · rwa [lookup_erase_ne hw] at hlb
  refine ⟨⟨h.version, h.bound, h.distinct, fun w lb hlb => h.entry w lb (hlookup w lb hlb), h.quiet,
    h.fresh, h.unpassed, fun i r a ha => ?_, fun i r phase hcall => ?_, fun i hmem => ?_⟩, hbalance⟩
  · rw [hbalance]
    exact h.conserved i r a ha
  · obtain ⟨g, hg, hpos, hphase⟩ := h.leased i r phase hcall
    exact ⟨g, hg, hpos, fun heq => (hbalance _ _).trans (hphase heq)⟩
  obtain ⟨g, hg, hnotified, hnone⟩ := h.retired i hmem
  refine ⟨g, hg, hnotified, ?_⟩
  cases hlb : (s.leaseBalances.erase v).lookup (i + 1) with
  | none => rfl
  | some lb =>
    rw [hlookup _ lb hlb] at hnone
    cases hnone

end WorkerData
end AegisGate.Runtime
