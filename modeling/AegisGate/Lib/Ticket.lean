import AegisGate.Lib.Ring

/-!
# Tickets from two counters

A dispenser gives out a fixed number of tickets with two separate atomic counters. A thread
first takes one off the number that is left, in a compare-exchange loop that gives up when
nothing is left, and then draws its ticket by incrementing the other counter. Between the two a
thread has a right to a ticket and no number yet, and others may overtake it there.

What the threads have is a multiset of phases, so that it does not matter in which table, or
among which other threads, they are kept.
-/

namespace AegisGate.Lib.Ticket

/-- The two counters. -/
structure Dispenser where
  remaining : ℕ
  issued : ℕ

/-- Where a thread is. -/
inductive Phase
  | entered
  /-- In the loop, with the number it expects to be left. -/
  | loaded (remaining : ℕ)
  /-- The exchange has succeeded and the ticket is not yet drawn. -/
  | exchanged
  | counted (ticket : ℕ)
  | left (ticket : Option ℕ)
  deriving DecidableEq

/-- The ticket a thread has drawn. -/
def Phase.ticket : Phase → Option ℕ
  | .counted k => some k
  | .left k => k
  | _ => none

/-- The next step of a thread. The weak exchange may fail without reason, and a failed one
loads. -/
def take (width : ℕ) (d : Dispenser) (spurious : Bool) : Phase → Option (Dispenser × Phase)
  | .entered => some (d, .loaded d.remaining)
  | .loaded 0 => some (d, .left none)
  | .loaded (n + 1) =>
    if d.remaining = n + 1 ∧ spurious = false then some ({ d with remaining := n }, .exchanged)
    else some (d, .loaded d.remaining)
  | .exchanged => some ({ d with issued := incW width d.issued }, .counted d.issued)
  | .counted k => some (d, .left (some k))
  | .left _ => none

/-- Rights without a ticket, tickets and what is left make up the quota, and the tickets are the
first numbers, each drawn once. -/
structure Balanced (quota : ℕ) (d : Dispenser) (phases : Multiset Phase) : Prop where
  total : phases.count .exchanged + d.issued + d.remaining = quota
  tickets : phases.filterMap Phase.ticket = Multiset.range d.issued

variable {width quota : ℕ} {d d' : Dispenser} {phases phases' : Multiset Phase} {p p' : Phase}
  {spurious : Bool}

lemma balanced_full (quota : ℕ) : Balanced quota ⟨quota, 0⟩ 0 := ⟨by simp, rfl⟩

/-- What one thread has. -/
lemma filterMap_ticket (p : Phase) :
    Multiset.filterMap Phase.ticket {p} = (p.ticket.toList : Multiset ℕ) := by
  rw [← Multiset.cons_zero, Multiset.filterMap_cons]
  cases p.ticket <;> rfl

/-- A new thread. -/
lemma Balanced.enter (h : Balanced quota d phases) : Balanced quota d (phases + {.entered}) := by
  refine ⟨?_, ?_⟩
  · rw [Multiset.count_add, Multiset.count_singleton, if_neg nofun]
    exact h.total
  · rw [Multiset.filterMap_add, h.tickets, filterMap_ticket]
    exact Multiset.add_zero _

lemma Balanced.nodup (h : Balanced quota d phases) : (phases.filterMap Phase.ticket).Nodup := by
  rw [h.tickets]
  exact Multiset.nodup_range _

lemma Balanced.lt (h : Balanced quota d phases) {k : ℕ}
    (hk : k ∈ phases.filterMap Phase.ticket) : k < quota := by
  rw [h.tickets, Multiset.mem_range] at hk
  have htotal := h.total
  omega

/-- One thread moves on: only its right and its ticket change. -/
lemma replace (hset : phases' + {p} = phases + {p'}) :
    phases'.count .exchanged + (if p = .exchanged then 1 else 0) =
        phases.count .exchanged + (if p' = .exchanged then 1 else 0) ∧
      phases'.filterMap Phase.ticket + p.ticket.toList =
        phases.filterMap Phase.ticket + (p'.ticket.toList : Multiset ℕ) := by
  refine ⟨?_, ?_⟩
  · have hcount := congrArg (Multiset.count Phase.exchanged) hset
    rw [Multiset.count_add, Multiset.count_add, Multiset.count_singleton,
      Multiset.count_singleton] at hcount
    simpa only [eq_comm] using hcount
  · have htickets := congrArg (Multiset.filterMap Phase.ticket) hset
    rwa [Multiset.filterMap_add, Multiset.filterMap_add, filterMap_ticket,
      filterMap_ticket] at htickets

/-- A step without a counter, where the thread keeps its right and its ticket. -/
lemma Balanced.keep (h : Balanced quota d phases) (hset : phases' + {p} = phases + {p'})
    (hright : p = .exchanged ↔ p' = .exchanged) (hticket : p.ticket = p'.ticket) :
    Balanced quota d phases' := by
  obtain ⟨hcount, htickets⟩ := replace hset
  rw [hticket, Multiset.add_left_inj] at htickets
  refine ⟨?_, htickets.trans h.tickets⟩
  have htotal := h.total
  simp only [hright] at hcount
  omega

/-- **Every step keeps the balance.** -/
theorem Balanced.take (h : Balanced quota d phases) (hquota : quota < 2 ^ width)
    (hset : phases' + {p} = phases + {p'}) (hp : p ∈ phases)
    (hstep : Ticket.take width d spurious p = some (d', p')) : Balanced quota d' phases' := by
  have htotal := h.total
  cases p with
  | entered | counted k =>
    cases hstep
    exact h.keep hset (by simp) rfl
  | loaded n =>
    cases n with
    | zero =>
      cases hstep
      exact h.keep hset (by simp) rfl
    | succ n =>
      rw [Ticket.take] at hstep
      split at hstep
      · next hvalue =>
        -- The right is taken off what is left.
        cases hstep
        obtain ⟨hcount, htickets⟩ := replace hset
        refine ⟨?_, (Multiset.add_left_inj.mp htickets).trans h.tickets⟩
        have hone := hvalue.1
        simp only [reduceCtorEq, if_false, if_true] at hcount
        dsimp only
        omega
      · cases hstep
        exact h.keep hset (by simp) rfl
  | exchanged =>
    -- The right becomes the next ticket.
    cases hstep
    obtain ⟨hcount, htickets⟩ := replace hset
    have hpos : 0 < phases.count .exchanged := Multiset.count_pos.mpr hp
    have hinc : incW width d.issued = d.issued + 1 := by
      rw [incW, Nat.mod_eq_of_lt (by omega)]
    simp only [reduceCtorEq, if_false, if_true] at hcount
    refine ⟨?_, ?_⟩
    · dsimp only
      omega
    · rw [hinc, Multiset.range_succ, ← Multiset.singleton_add, add_comm, ← h.tickets]
      exact (Multiset.add_zero _).symm.trans htickets
  | left k => cases hstep

end AegisGate.Lib.Ticket
