/-
What one call does to one policy's ledger.

A call on the manager may sweep first, and a reservation may have to open the
ledger of its window.  Neither shows in the counts or in the open reservations, so
each call is stated here by what it does to the policy's ledger, up to the final
reservations a sweep may have dropped.
-/
import LiteAIG.Budget.Enforcer

namespace LiteAIG.Budget

open Lib Manager

variable {m : Manager} {policy : Policy} {id : String} {estimate now : Int}

/-! ### Sweeping -/

/-- The same ledger, but for final reservations that were dropped. -/
structure Pruned (w w' : Window) : Prop where
  start : w'.start = w.start
  reserved : w'.reserved = w.reserved
  consumed : w'.consumed = w.consumed
  unknown : ∀ id, w.reservations.lookup id = none → w'.reservations.lookup id = none
  same : ∀ id estimate, w'.reservations.lookup id = some ⟨estimate, false⟩ ↔
    w.reservations.lookup id = some ⟨estimate, false⟩

theorem Pruned.refl (w : Window) : Pruned w w := ⟨rfl, rfl, rfl, fun _ h => h, fun _ _ => Iff.rfl⟩

theorem pruned_prune (w : Window) : Pruned w w.prune where
  start := rfl
  reserved := rfl
  consumed := rfl
  unknown id h := by
    show (w.reservations.filter _).lookup id = none
    rw [Assoc.lookup_filter, h]
    rfl
  same id estimate := by
    show (w.reservations.filter _).lookup id = _ ↔ _
    rw [Assoc.lookup_filter, Option.filter_eq_some_iff]
    simp

theorem lookup_sweepLocked (m : Manager) (now : Int) (p : String) :
    (m.sweepLocked now).windows.lookup p = (m.windows.lookup p).map
          (if now - m.lastSweep < sweepInterval then fun w => w else Window.prune) := by
  unfold Manager.sweepLocked
  by_cases h : now - m.lastSweep < sweepInterval
  · simp only [if_pos h, Option.map_id']
  · simp only [if_neg h, Assoc.lookup_map]

variable {p : String} {w : Window} {r : ReservationState}

theorem sweepLocked_some (hw : m.windows.lookup p = some w) (now : Int) :
    ∃ w', (m.sweepLocked now).windows.lookup p = some w' ∧ Pruned w w' := by
  rw [lookup_sweepLocked, hw]
  refine ⟨_, rfl, ?_⟩
  split
  · exact .refl w
  · exact pruned_prune w

/-! ### The ledger of a policy's window -/

/-- The policy's ledger as a reservation for its window finds it. -/
def Manager.ledgerOf (m : Manager) (policy : Policy) : Window :=
  match m.windows.lookup policy.id with
  | some w => if w.start = policy.windowStart then w else Window.open policy.windowStart
  | none => Window.open policy.windowStart

theorem ledgerOf_of_lookup (hw : m.windows.lookup policy.id = some w)
    (hs : w.start = policy.windowStart) : m.ledgerOf policy = w := by
  simp only [ledgerOf, hw, if_pos hs]

theorem ledgerOf_of_none (hw : m.windows.lookup policy.id = none) :
    m.ledgerOf policy = Window.open policy.windowStart := by
  simp only [ledgerOf, hw]

theorem ledgerOf_of_ne (hw : m.windows.lookup policy.id = some w)
    (hs : w.start ≠ policy.windowStart) : m.ledgerOf policy = Window.open policy.windowStart := by
  simp only [ledgerOf, hw, if_neg hs]

theorem ledgerOf_put (hs : w.start = policy.windowStart) :
    ({ m with windows := m.windows.insert policy.id w } : Manager).ledgerOf policy = w :=
  ledgerOf_of_lookup Assoc.lookup_insert_self hs

section

variable (m : Manager) (policy : Policy) (now : Int)

theorem ledgerOf_start :
    (m.ledgerOf policy).start = policy.windowStart := by
  unfold ledgerOf
  split
  · split
    · assumption
    · rfl
  · rfl

theorem pruned_ledgerOf_sweepLocked :
    Pruned (m.ledgerOf policy) ((m.sweepLocked now).ledgerOf policy) := by
  cases hw : m.windows.lookup policy.id with
  | none =>
    rw [ledgerOf_of_none hw, ledgerOf_of_none (by rw [lookup_sweepLocked, hw]; rfl)]
    exact .refl _
  | some w =>
    obtain ⟨w', hw', hp⟩ := sweepLocked_some hw now
    by_cases hs : w.start = policy.windowStart
    · rw [ledgerOf_of_lookup hw hs, ledgerOf_of_lookup hw' (hp.start.trans hs)]
      exact hp
    · rw [ledgerOf_of_ne hw hs, ledgerOf_of_ne hw' fun hc => hs (hp.start.symm.trans hc)]
      exact .refl _

/-- `Reserve` works on the ledger of the policy's window, and puts it in place. -/
theorem ledger_spec :
    (m.ledger policy now).1 = m.ledgerOf policy ∧
      (m.ledger policy now).2.windows.lookup policy.id = some (m.ledgerOf policy) := by
  unfold Manager.ledger
  cases hw : m.windows.lookup policy.id with
  | none =>
    rw [ledgerOf_of_none hw]
    exact ⟨rfl, Assoc.lookup_insert_self⟩
  | some w =>
    by_cases hs : w.start = policy.windowStart
    · simp only [if_pos hs]
      rw [ledgerOf_of_lookup hw hs]
      exact ⟨rfl, hw⟩
    · simp only [if_neg hs]
      rw [ledgerOf_of_ne hw hs]
      exact ⟨rfl, Assoc.lookup_insert_self⟩

end

/-- A ledger with a reservation is one that is in place. -/
theorem lookup_of_ledgerOf (h : (m.ledgerOf policy).reservations.lookup id = some r) :
    m.windows.lookup policy.id = some (m.ledgerOf policy) := by
  cases hw : m.windows.lookup policy.id with
  | none =>
    rw [ledgerOf_of_none hw] at h
    cases h
  | some w =>
    by_cases hs : w.start = policy.windowStart
    · rw [ledgerOf_of_lookup hw hs]
    · rw [ledgerOf_of_ne hw hs] at h
      cases h

/-! ### Reserving -/

/-- The manager has room for the reservation: the request is in order and, in hard mode, stays
within the limit. -/
def Manager.takes (m : Manager) (policy : Policy) (id : String) (estimate now : Int) : Bool :=
  policy.admissible id estimate now &&
    !(policy.mode = .hard &&
      policy.tokenLimit < (m.ledgerOf policy).reserved + (m.ledgerOf policy).consumed + estimate)

theorem reserve_inadmissible (h : policy.admissible id estimate now = false) :
    m.reserve policy id estimate now = (.error .invalidReservation, m) := by
  simp [Manager.reserve, h]

/-- The ledger with one more open reservation. -/
def Window.hold (w : Window) (id : String) (estimate : Int) : Window :=
  { w with
    reserved := w.reserved + estimate
    reservations := w.reservations.insert id ⟨estimate, false⟩ }

/-- `Reserve` under the lock, for an id the ledger does not have. -/
theorem reserveLocked_eq (hl : ((m.sweepLocked now).ledger policy now).1 = w)
    (hid : w.reservations.lookup id = none) :
    m.reserveLocked policy id estimate now =
      if policy.mode = .hard && policy.tokenLimit < w.reserved + w.consumed + estimate then
        (.error .exceeded, ((m.sweepLocked now).ledger policy now).2)
      else
        (.ok ⟨id, policy.id, estimate,
            policy.mode = .soft && policy.tokenLimit < w.reserved + w.consumed + estimate⟩,
          { ((m.sweepLocked now).ledger policy now).2 with
            windows := ((m.sweepLocked now).ledger policy now).2.windows.insert policy.id
              (w.hold id estimate) }) := by
  subst hl
  simp only [reserveLocked, hid]
  rfl

theorem reserve_refused (ha : policy.admissible id estimate now)
    (hf : (m.ledgerOf policy).reservations.lookup id = none)
    (h : m.takes policy id estimate now = false) :
    ∃ m' w, m.reserve policy id estimate now = (.error .exceeded, m') ∧
      Pruned (m.ledgerOf policy) w ∧ m'.windows.lookup policy.id = some w := by
  have hp := pruned_ledgerOf_sweepLocked m policy now
  obtain ⟨hl, hw⟩ := ledger_spec (m.sweepLocked now) policy now
  simp only [takes, ha, Bool.true_and, Bool.not_eq_false', ← hp.reserved, ← hp.consumed] at h
  have hr : m.reserve policy id estimate now = m.reserveLocked policy id estimate now := if_pos ha
  rw [reserveLocked_eq hl (hp.unknown id hf), if_pos h] at hr
  exact ⟨_, _, hr, hp, hw⟩

theorem reserve_taken (hf : (m.ledgerOf policy).reservations.lookup id = none)
    (h : m.takes policy id estimate now) :
    ∃ warning m' w, m.reserve policy id estimate now =
      (.ok ⟨id, policy.id, estimate, warning⟩, m') ∧
      Pruned (m.ledgerOf policy) w ∧ m'.windows.lookup policy.id = some (w.hold id estimate) := by
  have hp := pruned_ledgerOf_sweepLocked m policy now
  obtain ⟨hl, -⟩ := ledger_spec (m.sweepLocked now) policy now
  simp only [takes, Bool.and_eq_true, Bool.not_eq_true', ← hp.reserved, ← hp.consumed] at h
  have hr : m.reserve policy id estimate now = m.reserveLocked policy id estimate now := if_pos h.1
  rw [reserveLocked_eq hl (hp.unknown id hf), if_neg (Bool.eq_false_iff.mp h.2)] at hr
  exact ⟨_, _, _, hr, hp, Assoc.lookup_insert_self⟩

theorem recordTenant_eq {σ : Type} (e : BudgetEnforcer σ) (pid tid : String) :
    ∃ tenants, e.recordTenant pid tid = { e with tenantByPolicy := tenants } := by
  unfold BudgetEnforcer.recordTenant
  split
  · exact ⟨_, rfl⟩
  · exact ⟨_, rfl⟩

/-! ### Settling -/

section

variable (hw : m.windows.lookup p = some w)

include hw

/-- A settlement of a reservation that the ledger in place holds open. -/
theorem ledgerFor_current (hid : w.reservations.lookup id = some r) :
    m.ledgerFor p id = some (.current, w, r) := by
  simp [ledgerFor, hw, hid]

theorem release_current (hid : w.reservations.lookup id = some ⟨estimate, false⟩) :
    m.release p id = { m with windows := m.windows.insert p (w.close id ⟨estimate, false⟩ 0) } := by
  simp [release, settle, ledgerFor_current hw hid, store]

theorem usage_of_lookup :
    m.usage p = (w.reserved, w.consumed) := by
  simp [usage, hw]

end

/-- What was just held is released without a trace in the counts. -/
theorem usage_release_hold (hw : m.windows.lookup p = some (w.hold id estimate)) :
    (m.release p id).usage p = (w.reserved, w.consumed) := by
  rw [release_current hw Assoc.lookup_insert_self, usage_of_lookup Assoc.lookup_insert_self]
  simp [Window.close, Window.hold]

/-! ### One window -/

/-- The policy has no ledger but that of its window. -/
structure Manager.OneWindow (m : Manager) (policy : Policy) : Prop where
  ledger : ∀ w, m.windows.lookup policy.id = some w → w.start = policy.windowStart
  retired : m.retired.lookup policy.id = none

namespace Manager.OneWindow

section

variable (h : m.OneWindow policy)

include h

theorem put {w : Window} (hw : w.start = policy.windowStart) :
    ({ m with windows := m.windows.insert policy.id w } : Manager).OneWindow policy := by
  refine ⟨?_, h.retired⟩
  intro v hv
  rw [Assoc.lookup_insert_self, Option.some.injEq] at hv
  rw [← hv, hw]

theorem sweepLocked (now : Int) : (m.sweepLocked now).OneWindow policy := by
  constructor
  · intro w hw
    cases hw₀ : m.windows.lookup policy.id with
    | none =>
      rw [lookup_sweepLocked, hw₀] at hw
      cases hw
    | some w₀ =>
      obtain ⟨w', hw', hp⟩ := sweepLocked_some hw₀ now
      rw [hw, Option.some.injEq] at hw'
      rw [hw', hp.start]
      exact h.ledger w₀ hw₀
  · unfold Manager.sweepLocked
    split
    · exact h.retired
    · rw [Assoc.lookup_filter, h.retired]
      rfl

theorem openLedger (now : Int) : (m.ledger policy now).2.OneWindow policy := by
  unfold Manager.ledger
  cases hw : m.windows.lookup policy.id with
  | none => exact h.put rfl
  | some w =>
    simp only [if_pos (h.ledger w hw)]
    exact h

theorem reserve (id : String) (estimate now : Int) :
    (m.reserve policy id estimate now).2.OneWindow policy := by
  have hl := (h.sweepLocked now).openLedger now
  have hs : ((m.sweepLocked now).ledger policy now).1.start = policy.windowStart := by
    rw [(ledger_spec _ policy now).1, ledgerOf_start]
  unfold Manager.reserve
  split
  · unfold reserveLocked
    dsimp only
    split
    · exact hl
    · split
      · exact hl
      · exact hl.put hs
  · exact h

theorem usage_eq :
    m.usage policy.id = ((m.ledgerOf policy).reserved, (m.ledgerOf policy).consumed) := by
  cases hw : m.windows.lookup policy.id with
  | none => simp [usage, hw, ledgerOf_of_none hw, Window.open]
  | some w => rw [usage_of_lookup hw, ledgerOf_of_lookup hw (h.ledger w hw)]

/-- What a settlement finds: nothing, or a reservation of the ledger in place. -/
theorem ledgerFor_cases (id : String) :
    m.ledgerFor policy.id id = none ∨ ∃ r, (m.ledgerOf policy).reservations.lookup id = some r ∧
        m.windows.lookup policy.id = some (m.ledgerOf policy) ∧
        m.ledgerFor policy.id id = some (.current, m.ledgerOf policy, r) := by
  cases hid : (m.ledgerOf policy).reservations.lookup id with
  | some r =>
    have hw := lookup_of_ledgerOf hid
    exact Or.inr ⟨r, rfl, hw, ledgerFor_current hw hid⟩
  | none =>
    refine Or.inl ?_
    unfold ledgerFor
    cases hw : m.windows.lookup policy.id with
    | none => simp [h.retired]
    | some w =>
      rw [ledgerOf_of_lookup hw (h.ledger w hw)] at hid
      simp [h.retired, hid]

end

end Manager.OneWindow

end LiteAIG.Budget
