import AegisGate.Proxy.Lifecycle

/-!
# The outcomes of a transaction's attempts

The part of the ledger the breaker sees: the link of the current attempt, the one-shot
flag, and the entries of the history that open, publish or cancel an outcome reservation
or say how an attempt ended. Releasing any other guard leaves it alone.

`Tally.Sound` says that reservations are finalized once, that a published result is that
of its own attempt, and that it is backed by how the attempt ended.
-/

namespace AegisGate.Proxy
open Health Effect List

/-- An entry about an outcome reservation or about how an attempt ended. -/
def Effect.isOutcome : Effect → Bool
  | reserved .. | published .. | cancelled _ | delivered .. | timedOut _ | aborted _ => true
  | _ => false

/-- The breaker link and what was reported. -/
structure Tally where
  link : Option BreakerLink
  accounted : Bool
  outcomes : List Effect

def Ledger.tally (l : Ledger) : Tally where
  link := l.breakerLink
  accounted := l.attemptAccounted
  outcomes := l.trace.filter isOutcome

namespace Tally

def emit (t : Tally) (e : Effect) : Tally := { t with outcomes := e :: t.outcomes }

def publish (t : Tally) (link : BreakerLink) (success : Bool) : Tally :=
  if link.finalized then t
  else { t with link := some { link with finalized := true } }.emit
    (.published link.attempt (link.outcome success))

def account (t : Tally) (success : Bool) : Tally :=
  match t.link with
  | none => t
  | some link => if t.accounted then t else { t with accounted := true }.publish link success

def resetLink (t : Tally) : Tally :=
  match t.link with
  | none => t
  | some link =>
    if link.finalized then { t with link := none }
    else { t with link := none }.emit (.cancelled link.attempt)

def installLink (t : Tally) (attempt : ℕ) : Option (ℕ × ℕ × AttemptPermit) → Tally
  | none => t
  | some (routeIndex, endpointIndex, permit) =>
    { t with link := some { attempt, routeIndex, endpointIndex, permit } }.emit
      (.reserved attempt routeIndex endpointIndex permit)

end Tally

/-! ## The ledger's operations on the view -/

namespace Ledger
variable (l : Ledger)

lemma tally_emit (e : Effect) :
    (l.emit e).tally = if e.isOutcome then l.tally.emit e else l.tally := by
  cases h : e.isOutcome <;> simp [tally, emit, Tally.emit, h]

@[simp] lemma tally_releaseReservation : l.releaseReservation.tally = l.tally := by
  unfold releaseReservation
  split
  · exact tally_emit _ _
  · rfl

@[simp] lemma tally_releaseActive : l.releaseActive.tally = l.tally := by
  unfold releaseActive
  split
  · rfl
  · exact tally_emit _ _

@[simp] lemma tally_acquireActive (attempt : ℕ) : (l.acquireActive attempt).tally = l.tally :=
  (tally_emit _ _).trans (tally_releaseActive l)

@[simp] lemma tally_completeMetric (status : ℕ) (upstream : Option Config.Endpoint)
    (reason : TerminalReason) : (l.completeMetric status upstream reason).tally = l.tally := by
  unfold completeMetric
  split
  · exact tally_emit _ _
  · rfl

@[simp] lemma tally_logTerminal (status : ℕ) (reason : TerminalReason) (retries : ℕ) :
    (l.logTerminal status reason retries).tally = l.tally := by
  unfold logTerminal
  split
  · rfl
  · exact tally_emit _ _

@[simp] lemma tally_publish (link : BreakerLink) (success : Bool) :
    (l.publish link success).tally = l.tally.publish link success := by
  unfold publish Tally.publish
  split
  · rfl
  · exact tally_emit _ _

@[simp] lemma tally_account (success : Bool) :
    (l.account success).tally = l.tally.account success := by
  have hview : l.tally.link = l.breakerLink := rfl
  unfold account Tally.account
  cases hlink : l.breakerLink with
  | none => rw [hview, hlink]
  | some link =>
    rw [hview, hlink]
    by_cases hflag : l.attemptAccounted
    · dsimp only
      rw [if_pos hflag, if_pos (show l.tally.accounted from hflag)]
    · dsimp only
      rw [if_neg hflag, if_neg (show ¬l.tally.accounted from hflag), tally_publish]
      rw [← hlink]
      rfl

@[simp] lemma tally_resetLink : l.resetLink.tally = l.tally.resetLink := by
  have hview : l.tally.link = l.breakerLink := rfl
  unfold resetLink Tally.resetLink
  cases hlink : l.breakerLink with
  | none => rw [hview, hlink]
  | some link =>
    rw [hview, hlink]
    dsimp only
    split
    · rfl
    · exact tally_emit _ _

@[simp] lemma tally_installLink (attempt : ℕ) (link : Option (ℕ × ℕ × AttemptPermit)) :
    (l.installLink attempt link).tally = l.tally.installLink attempt link := by
  cases link with
  | none => rfl
  | some data => exact tally_emit _ _

end Ledger

/-! ## Soundness -/

/-- What a published success or failure of the attempt rests on: a complete response below
500 for a success; a failed exchange, a complete response from 500 on, or a deadline for a
failure. -/
def Evidence (outcomes : List Effect) (attempt : ℕ) : Bool → Prop
  | true => ∃ status < 500, delivered attempt .success (some status) ∈ outcomes
  | false =>
    (∃ result status, delivered attempt result status ∈ outcomes ∧
      (result ≠ .success ∨ ∃ n, status = some n ∧ 500 ≤ n)) ∨
    timedOut attempt ∈ outcomes

lemma Evidence.mono {outcomes more : List Effect} (hsub : outcomes ⊆ more) {attempt : ℕ}
    {success : Bool} (h : Evidence outcomes attempt success) : Evidence more attempt success := by
  cases success with
  | true =>
    obtain ⟨status, hlt, hmem⟩ := h
    exact ⟨status, hlt, hsub hmem⟩
  | false =>
    rcases h with ⟨result, status, hmem, hbad⟩ | hmem
    · exact .inl ⟨result, status, hsub hmem, hbad⟩
    · exact .inr (hsub hmem)

namespace Tally

/-- The outcome reservation of the attempt is still open. -/
def isOpen (t : Tally) (attempt : ℕ) : Bool :=
  t.link.any fun link => link.attempt == attempt && !link.finalized

/-- The invariant; attempts below `started` have been started. -/
structure Sound (t : Tally) (started : ℕ) : Prop where
  /-- Every reservation that was opened is open or was finalized, once. -/
  balance : ∀ k, t.outcomes.countP (finalizes k) + (t.isOpen k).toNat = t.outcomes.countP (opens k)
  once : ∀ k, t.outcomes.countP (opens k) ≤ 1
  opened : ∀ k, started ≤ k → t.outcomes.countP (opens k) = 0
  /-- The link is that of the newest attempt. -/
  link : ∀ link, t.link = some link → link.attempt + 1 = started ∧
    reserved link.attempt link.routeIndex link.endpointIndex link.permit ∈ t.outcomes
  /-- A result carries what its own attempt was admitted with. -/
  own : ∀ k result, published k result ∈ t.outcomes →
    reserved k result.routeIndex result.endpointIndex result.permit ∈ t.outcomes
  evidence : ∀ k result, published k result ∈ t.outcomes →
    Evidence t.outcomes k result.success
  aborted : ∀ k result, aborted k ∈ t.outcomes → published k result ∉ t.outcomes

variable {t : Tally} {started : ℕ}

lemma sound_empty : Sound { link := none, accounted := false, outcomes := [] } started := by
  constructor <;> simp [isOpen]

lemma Sound.flag (h : Sound t started) (accounted : Bool) : Sound { t with accounted } started :=
  { h with }

lemma isOpen_of_link {link : BreakerLink} (hlink : t.link = some link) (k : ℕ) :
    t.isOpen k = (link.attempt == k && !link.finalized) := by
  simp [isOpen, hlink]

/-- An outcome is added: what it opens is new, and what it publishes rests on the outcomes before
it. -/
lemma Sound.entry (h : Sound t started) {u : Tally} {e : Effect} {n : ℕ}
    (houtcomes : u.outcomes = e :: t.outcomes) (hn : started ≤ n)
    (hbalance : ∀ k, (e.finalizes k).toNat + (u.isOpen k).toNat =
      (t.isOpen k).toNat + (e.opens k).toNat)
    (hopens : ∀ k, e.opens k → started ≤ k ∧ k < n)
    (hlink : ∀ link, u.link = some link → link.attempt + 1 = n ∧
      reserved link.attempt link.routeIndex link.endpointIndex link.permit ∈ u.outcomes)
    (hpublished : ∀ k result, e = .published k result →
      reserved k result.routeIndex result.endpointIndex result.permit ∈ t.outcomes ∧
        Evidence t.outcomes k result.success ∧ Effect.aborted k ∉ t.outcomes)
    (haborted : ∀ k result, e = .aborted k → published k result ∉ t.outcomes) : Sound u n := by
  have hcount : ∀ p : Effect → Bool, u.outcomes.countP p = t.outcomes.countP p + (p e).toNat := by
    intro p
    rw [houtcomes, countP_cons]
    cases p e <;> rfl
  have hsub : t.outcomes ⊆ u.outcomes := houtcomes ▸ subset_cons_self _ _
  refine ⟨fun k => ?_, fun k => ?_, fun k hk => ?_, hlink, fun k result hpub => ?_,
    fun k result hpub => ?_, fun k result hab hpub => ?_⟩
  · have hbefore := h.balance k
    have hentry := hbalance k
    rw [hcount, hcount]
    omega
  · rw [hcount]
    cases hk : e.opens k with
    | true => rw [h.opened k (hopens k hk).1, Bool.toNat_true]
    | false => exact h.once k
  · have hopen : e.opens k = false := Bool.eq_false_iff.mpr fun hopen =>
      absurd (hopens k hopen).2 (by omega)
    rw [hcount, h.opened k (by omega), hopen]
    rfl
  all_goals rw [houtcomes] at hpub
  · rcases mem_cons.mp hpub with heq | hold
    · exact hsub (hpublished k result heq.symm).1
    · exact hsub (h.own k result hold)
  · rcases mem_cons.mp hpub with heq | hold
    · exact (hpublished k result heq.symm).2.1.mono hsub
    · exact (h.evidence k result hold).mono hsub
  · rw [houtcomes] at hab
    rcases mem_cons.mp hab with rfl | hab <;> rcases mem_cons.mp hpub with heq | hold
    · cases heq
    · exact haborted k result rfl hold
    · exact (hpublished k result heq.symm).2.2 hab
    · exact h.aborted k result hab hold

lemma Sound.emit (h : Sound t started) {e : Effect}
    (hfinal : ∀ k, e.finalizes k = false) (hopen : ∀ k, e.opens k = false)
    (habort : ∀ k result, e = .aborted k → published k result ∉ t.outcomes) :
    Sound (t.emit e) started := by
  refine h.entry rfl le_rfl (fun k => ?_) (fun k hk => ?_) (fun link hlink => ?_)
    (fun k result heq => ?_) habort
  · rw [hfinal, hopen]
    exact Nat.add_comm _ _
  · cases (hopen k).symm.trans hk
  · exact (h.link link hlink).imp id (mem_cons_of_mem e)
  · subst heq
    simpa [finalizes] using hfinal k

lemma Sound.account (h : Sound t started) {success : Bool}
    (hevidence : ∀ link, t.link = some link → t.accounted = false → link.finalized = false →
      Evidence t.outcomes link.attempt success ∧ Effect.aborted link.attempt ∉ t.outcomes) :
    Sound (t.account success) started := by
  unfold Tally.account
  cases hlink : t.link with
  | none => exact h
  | some link =>
    dsimp only
    split
    · exact h
    next hflag =>
    unfold publish
    split
    · exact hlink ▸ h.flag true
    next hopen =>
    obtain ⟨hnum, hres⟩ := h.link link hlink
    refine h.entry (e := .published link.attempt (link.outcome success)) rfl le_rfl (fun k => ?_)
      nofun (fun l hl => ?_) (fun k result heq => ?_) nofun
    · -- The reservation that was open is the one that is finalized.
      rw [isOpen_of_link hlink, isOpen_of_link rfl, Bool.eq_false_iff.mpr hopen]
      simp [finalizes, opens]
    · obtain rfl : { link with finalized := true } = l := Option.some.inj hl
      exact ⟨hnum, mem_cons_of_mem _ hres⟩
    · cases heq
      exact ⟨hres, hevidence link hlink (by simpa using hflag) (by simpa using hopen)⟩

lemma Sound.resetLink (h : Sound t started) : Sound t.resetLink started := by
  unfold Tally.resetLink
  cases hlink : t.link with
  | none => exact h
  | some link =>
    dsimp only
    split
    · next hfin =>
      refine { h with balance := fun k => ?_, link := nofun }
      simpa [isOpen, hlink, hfin] using h.balance k
    next hopen =>
    refine h.entry (e := .cancelled link.attempt) rfl le_rfl (fun k => ?_) nofun nofun nofun nofun
    rw [isOpen_of_link hlink, Bool.eq_false_iff.mpr hopen]
    simp [isOpen, Tally.emit, finalizes, opens]

lemma Sound.installLink (h : Sound t started) (hnone : t.link = none)
    (data : Option (ℕ × ℕ × AttemptPermit)) : Sound (t.installLink started data) (started + 1) := by
  cases data with
  | none =>
    exact { h with
      opened := fun k hk => h.opened k (by omega)
      link := fun l hl => absurd (hnone.symm.trans hl) (by simp) }
  | some data =>
    obtain ⟨routeIndex, endpointIndex, permit⟩ := data
    refine h.entry (e := .reserved started routeIndex endpointIndex permit) rfl (Nat.le_succ _)
      (fun k => ?_) (fun k hk => ?_) (fun l hl => ?_) nofun nofun
    · simp [isOpen, Tally.installLink, Tally.emit, hnone, finalizes, opens]
    · obtain rfl : started = k := by simpa [opens] using hk
      exact ⟨le_rfl, Nat.lt_succ_self _⟩
    · obtain rfl : _ = l := Option.some.inj hl
      exact ⟨rfl, mem_cons_self⟩

end Tally
end AegisGate.Proxy
