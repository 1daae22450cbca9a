/-
What a call on the enforcer does to the ledgers of the policy it is about.

The distributed ledger and the slices decide whether a reservation stands, but only
the manager keeps the counts, so each call is first reduced to one on the manager.
Of a call about one reservation two things are said.  In the window of the policy it
leaves every other reservation as it is, and the consumed total changes by what it
charges.  Over a change of windows a reservation that was open is still found, in the
ledger that was retired.
-/
import LiteAIG.Proofs.Budget.History

namespace LiteAIG.Budget

open Lib Ledger BudgetEnforcer Assoc Option

/-! ### The manager behind the enforcer -/

section

variable {σ : Type} (e : BudgetEnforcer σ) (pid : String)

theorem manager_setAuthority_eq (authority : SliceAuthority) :
    (e.setAuthority pid authority).manager = e.manager := by
  unfold setAuthority
  split <;> rfl

variable (policy : Policy)

theorem manager_admitSlice (estimate : Int) :
    (e.admitSlice policy estimate).2.manager = e.manager := by
  unfold admitSlice
  split
  · rfl
  · dsimp only
    rw [manager_setAuthority_eq]
    unfold authorityFor
    split
    · rfl
    · split <;> rfl

theorem manager_syncSlice : (e.syncSlice pid).manager = e.manager := by
  unfold syncSlice
  split
  · rfl
  · exact manager_setAuthority_eq ..

theorem manager_settleDistributed (settle : String → σ → Except LedgerError Unit × σ) :
    (e.settleDistributed pid settle).manager = e.manager := by
  unfold settleDistributed
  split <;> rfl

variable [BudgetLedger σ]

theorem manager_reserveDistributed (id : String) (estimate : Int) :
    (e.reserveDistributed policy id estimate).2.manager = e.manager := by
  unfold reserveDistributed
  cases e.distributed with
  | none => rfl
  | some ledger =>
    dsimp only
    split
    · rfl
    · split <;> rfl

/-- A reservation stands with the manager, fails with it, or is undone there. -/
theorem enforcer_reserve_cases (id : String) (estimate now : Int) :
    (∃ reserved, (e.manager.reserve policy id estimate now).1 = .ok reserved ∧
      (e.reserve policy id estimate now).1 = .ok reserved ∧
      (e.reserve policy id estimate now).2.manager = (e.manager.reserve policy id estimate now).2) ∨
    ((∃ err, (e.manager.reserve policy id estimate now).1 = .error err ∧
        (e.reserve policy id estimate now).1 = .error (.budget err)) ∧
      (e.reserve policy id estimate now).2.manager = (e.manager.reserve policy id estimate now).2) ∨
    (∃ reserved err, (e.manager.reserve policy id estimate now).1 = .ok reserved ∧
      (e.reserve policy id estimate now).1 = .error err ∧
      (e.reserve policy id estimate now).2.manager =
        (e.manager.reserve policy id estimate now).2.release policy.id id) := by
  obtain ⟨tenants, ht⟩ := recordTenant_eq e policy.id policy.tenantID
  unfold reserve
  rw [ht]
  dsimp only
  cases hr : e.manager.reserve policy id estimate now with
  | mk result manager =>
    cases result with
    | error err => exact .inr (.inl ⟨⟨err, rfl, rfl⟩, rfl⟩)
    | ok reserved =>
      dsimp only
      have hd := manager_reserveDistributed
        { e with manager, tenantByPolicy := tenants } policy id estimate
      generalize reserveDistributed (σ := σ) _ policy id estimate = dist at hd ⊢
      obtain ⟨distributed, e₁⟩ := dist
      cases distributed with
      | error err =>
        exact .inr (.inr ⟨reserved, err, rfl, rfl,
          congrArg (Manager.release · policy.id id) hd⟩)
      | ok u =>
        dsimp only
        have hs := (manager_admitSlice e₁ policy estimate).trans hd
        generalize admitSlice e₁ policy estimate = slice at hs ⊢
        obtain ⟨admitted, e₂⟩ := slice
        cases admitted with
        | error err =>
          exact .inr (.inr ⟨reserved, _, rfl, rfl,
            congrArg (Manager.release · policy.id id) hs⟩)
        | ok u => exact .inl ⟨reserved, rfl, rfl, hs⟩

theorem manager_release (pid id : String) :
    (e.release pid id).manager = e.manager.release pid id := by
  unfold release
  rw [manager_syncSlice, manager_settleDistributed]

theorem manager_reconcile (pid id : String) (actual : Int) :
    (e.reconcile pid id actual).1 = (e.manager.reconcile pid id actual).1 ∧
      (e.reconcile pid id actual).2.manager = (e.manager.reconcile pid id actual).2 := by
  unfold reconcile
  cases e.manager.reconcile pid id actual with
  | mk result manager =>
    cases result with
    | error err => exact ⟨rfl, rfl⟩
    | ok u => exact ⟨rfl, by rw [manager_syncSlice, manager_settleDistributed]⟩

end

/-! ### In the window -/

/-- A ledger after calls about the reservation `id` that charged `tokens`. -/
structure Window.Charged (w w' : Window) (id : String) (tokens : Int) : Prop where
  consumed : w'.consumed = w.consumed + tokens
  unknown : ∀ x, x ≠ id → w.reservations.lookup x = none → w'.reservations.lookup x = none
  held : ∀ x, x ≠ id → ∀ estimate, w.reservations.lookup x = some ⟨estimate, false⟩ →
    w'.reservations.lookup x = some ⟨estimate, false⟩

section

variable {w w' w'' : Window} {id : String} {a b estimate : Int}

theorem Window.Charged.trans (h : w.Charged w' id a) (h' : w'.Charged w'' id b) :
    w.Charged w'' id (a + b) where
  consumed := by rw [h'.consumed, h.consumed, add_assoc]
  unknown x hx hw := h'.unknown x hx (h.unknown x hx hw)
  held x hx estimate hw := h'.held x hx estimate (h.held x hx estimate hw)

theorem Pruned.charged (h : Pruned w w') : w.Charged w' id 0 where
  consumed := by rw [h.consumed, add_zero]
  unknown x _ hw := h.unknown x hw
  held x _ estimate hw := (h.same x estimate).mpr hw

theorem charged_hold :
    w.Charged (w.hold id estimate) id 0 where
  consumed := (add_zero _).symm
  unknown _ hx hw := (lookup_insert_ne hx).trans hw
  held _ hx _ hw := (lookup_insert_ne hx).trans hw

theorem charged_close (r : ReservationState) (tokens : Int) :
    w.Charged (w.close id r tokens) id tokens where
  consumed := rfl
  unknown _ hx hw := (lookup_insert_ne hx).trans hw
  held _ hx _ hw := (lookup_insert_ne hx).trans hw

end

section

variable {m : Manager} {policy : Policy} {id : String} {estimate now : Int} {reserved : Reservation}

/-- The policy's ledger in place, if there is one, is that of its window. -/
def Manager.Current (m : Manager) (policy : Policy) : Prop :=
  ∀ w, m.windows.lookup policy.id = some w → w.start = policy.windowStart

theorem Manager.Current.usage (h : m.Current policy) :
    (m.usage policy.id).2 = (m.ledgerOf policy).consumed := by
  cases hw : m.windows.lookup policy.id with
  | none => simp [Manager.usage, hw, ledgerOf_of_none hw, Window.open]
  | some w => rw [usage_of_lookup hw, ledgerOf_of_lookup hw (h w hw)]

section

variable (m : Manager) (policy : Policy) (id : String) (estimate now : Int)

/-- The ledger of the window after a reservation: swept, and perhaps with the reservation in it. -/
theorem reserve_ledgerOf :
    ∃ w, Pruned (m.ledgerOf policy) w ∧ ((m.reserve policy id estimate now).2.ledgerOf policy = w ∨
        (m.reserve policy id estimate now).2.ledgerOf policy = w.hold id estimate) := by
  unfold Manager.reserve
  split
  · have hp := pruned_ledgerOf_sweepLocked m policy now
    obtain ⟨hl, hw⟩ := ledger_spec (m.sweepLocked now) policy now
    have hs := ledgerOf_start (m.sweepLocked now) policy
    refine ⟨_, hp, ?_⟩
    rcases reserveLocked_snd m policy id estimate now with ⟨-, -, h⟩ | ⟨-, h⟩
    · rw [h, hl]
      exact .inr (ledgerOf_put hs)
    · rw [h]
      exact .inl (ledgerOf_of_lookup hw hs)
  · exact ⟨_, .refl _, .inl rfl⟩

theorem charged_reserve :
    (m.ledgerOf policy).Charged ((m.reserve policy id estimate now).2.ledgerOf policy) id 0 := by
  obtain ⟨w, hp, h | h⟩ := reserve_ledgerOf m policy id estimate now
  · rw [h]
    exact hp.charged
  · rw [h]
    exact hp.charged.trans charged_hold

end

theorem Manager.Current.reserve (h : m.Current policy) (id : String) (estimate now : Int) :
    (m.reserve policy id estimate now).2.Current policy := by
  unfold Manager.reserve
  split
  · obtain ⟨hl, hw⟩ := ledger_spec (m.sweepLocked now) policy now
    have hs := ledgerOf_start (m.sweepLocked now) policy
    intro w hin
    rcases reserveLocked_snd m policy id estimate now with ⟨-, -, hm⟩ | ⟨-, hm⟩
    · rw [hm, hl] at hin
      rw [← Option.some.inj (lookup_insert_self.symm.trans hin)]
      exact hs
    · rw [hm, hw] at hin
      rw [← Option.some.inj hin]
      exact hs
  · exact h

section

variable (hn : (m.ledgerOf policy).reservations.lookup id = none)
  (h : (m.reserve policy id estimate now).1 = .ok reserved)
include hn h

/-- A reservation with a new id is accepted only when there is room for it. -/
theorem takes_of_reserve :
    m.takes policy id estimate now = true := by
  by_contra hc
  rw [Bool.not_eq_true] at hc
  by_cases ha : policy.admissible id estimate now = true
  · obtain ⟨_, _, hr, -⟩ := reserve_refused ha hn hc
    rw [hr] at h
    cases h
  · rw [reserve_inadmissible (Bool.eq_false_iff.mpr ha)] at h
    cases h

theorem held_of_reserve :
    reserved = ⟨id, policy.id, estimate, reserved.warning⟩ ∧
      ((m.reserve policy id estimate now).2.ledgerOf policy).reservations.lookup id
        = some ⟨estimate, false⟩ ∧
      (m.reserve policy id estimate now).2.windows.lookup policy.id
        = some ((m.reserve policy id estimate now).2.ledgerOf policy) := by
  obtain ⟨warning, m', w, hr, hp, hw⟩ := reserve_taken hn (takes_of_reserve hn h)
  have hs : (w.hold id estimate).start = policy.windowStart :=
    hp.start.trans (ledgerOf_start m policy)
  rw [hr] at h ⊢
  cases h
  rw [ledgerOf_of_lookup hw hs]
  exact ⟨rfl, lookup_insert_self, hw⟩

end

section

variable (h : (m.ledgerOf policy).reservations.lookup id = some ⟨estimate, false⟩)

include h

variable (tokens : Int)

/-- A settlement of a reservation that is open in the ledger of the window. -/
theorem settle_held :
    m.settle policy.id id tokens = { m with
        windows := m.windows.insert policy.id
          ((m.ledgerOf policy).close id ⟨estimate, false⟩ tokens) } := by
  simp [Manager.settle, ledgerFor_current (lookup_of_ledgerOf h) h, Manager.store]

theorem charged_settle :
    (m.ledgerOf policy).Charged ((m.settle policy.id id tokens).ledgerOf policy) id tokens := by
  have hs : ((m.ledgerOf policy).close id ⟨estimate, false⟩ tokens).start = policy.windowStart :=
    ledgerOf_start m policy
  rw [settle_held h, ledgerOf_put hs]
  exact charged_close ..

theorem current_settle : (m.settle policy.id id tokens).Current policy := by
  intro w hw
  rw [settle_held h] at hw
  rw [← Option.some.inj (lookup_insert_self.symm.trans hw)]
  exact ledgerOf_start m policy

end

theorem reconcile_negative {actual : Int} (ha : actual < 0) (p : String) :
    m.reconcile p id actual = (.error .negativeActual, m) := if_pos ha

end

/-! ### Counts of several policies -/

/-- A ledger after a reservation `id` of this many tokens was tried: the reserved total has grown by
what was granted of it. -/
structure Window.Took (w w' : Window) (id : String) (granted : Int) : Prop where
  reserved : w'.reserved = w.reserved + granted
  consumed : w'.consumed = w.consumed
  unknown : ∀ x, x ≠ id → w.reservations.lookup x = none → w'.reservations.lookup x = none

section

variable {m : Manager} {policy policy' : Policy} {id : String} {estimate now : Int} {w w' : Window}

theorem Pruned.took (h : Pruned w w') : w.Took w' id 0 :=
  ⟨by rw [h.reserved, add_zero], h.consumed, fun x _ => h.unknown x⟩

theorem Pruned.took_hold (h : Pruned w w') : w.Took (w'.hold id estimate) id estimate where
  reserved := congrArg (· + estimate) h.reserved
  consumed := h.consumed
  unknown x hx hw := (lookup_insert_ne hx).trans (h.unknown x hw)

theorem Window.Took.close (h : w.Took w' id estimate) :
    w.Took (w'.close id ⟨estimate, false⟩ 0) id 0 where
  reserved := by
    show w'.reserved - estimate = _
    rw [h.reserved]
    omega
  consumed := (add_zero _).trans h.consumed
  unknown x hx hw := (lookup_insert_ne hx).trans (h.unknown x hx hw)

theorem ledgerOf_congr {m' : Manager}
    (h : m'.windows.lookup policy.id = m.windows.lookup policy.id) :
    m'.ledgerOf policy = m.ledgerOf policy := by
  simp only [Manager.ledgerOf, h]

/-- A reservation under one policy only sweeps the ledger of another. -/
theorem reserve_ledgerOf_ne (hne : policy'.id ≠ policy.id) (m : Manager) (id : String)
    (estimate now : Int) :
    Pruned (m.ledgerOf policy') ((m.reserve policy id estimate now).2.ledgerOf policy') := by
  unfold Manager.reserve
  split
  swap
  · exact .refl _
  have hl : ((m.sweepLocked now).ledger policy now).2.windows.lookup policy'.id
      = (m.sweepLocked now).windows.lookup policy'.id := by
    unfold Manager.ledger
    dsimp only
    split
    · split
      · rfl
      · exact lookup_insert_ne hne
    · exact lookup_insert_ne hne
  have hs : (m.reserveLocked policy id estimate now).2.ledgerOf policy'
      = (m.sweepLocked now).ledgerOf policy' := by
    refine ledgerOf_congr ?_
    rcases reserveLocked_snd m policy id estimate now with ⟨-, -, h⟩ | ⟨-, h⟩
    · rw [h]
      exact (lookup_insert_ne hne).trans hl
    · rw [h]
      exact hl
  rw [hs]
  exact pruned_ledgerOf_sweepLocked m policy' now

theorem release_ledgerOf_ne (hne : policy'.id ≠ policy.id) :
    (m.release policy.id id).ledgerOf policy' = m.ledgerOf policy' := by
  refine ledgerOf_congr ?_
  change (m.settle policy.id id 0).ledgerIn policy'.id .current = m.ledgerIn policy'.id .current
  unfold Manager.settle
  split
  · rfl
  · split
    · rfl
    · exact ledgerIn_store_ne fun hc => hne hc.1

variable {σ : Type} [BudgetLedger σ]

omit [BudgetLedger σ] in
theorem took_of_reserve {reserved : Reservation}
    (hn : (m.ledgerOf policy).reservations.lookup id = none)
    (h : (m.reserve policy id estimate now).1 = .ok reserved) :
    (m.ledgerOf policy).Took
      ((m.reserve policy id estimate now).2.ledgerOf policy) id estimate := by
  obtain ⟨warning, m', w, hr, hp, hw⟩ := reserve_taken hn (takes_of_reserve hn h)
  have hs : (w.hold id estimate).start = policy.windowStart :=
    hp.start.trans (ledgerOf_start m policy)
  rw [hr, ledgerOf_of_lookup hw hs]
  exact hp.took_hold

omit [BudgetLedger σ] in
theorem pruned_of_reserve {err : BudgetError}
    (hn : (m.ledgerOf policy).reservations.lookup id = none)
    (h : (m.reserve policy id estimate now).1 = .error err) :
    Pruned (m.ledgerOf policy) ((m.reserve policy id estimate now).2.ledgerOf policy) := by
  by_cases ha : policy.admissible id estimate now = true
  · cases ht : m.takes policy id estimate now with
    | true =>
      obtain ⟨_, _, _, hr, -⟩ := reserve_taken hn ht
      rw [hr] at h
      cases h
    | false =>
      obtain ⟨m', w, hr, hp, hw⟩ := reserve_refused ha hn ht
      rw [hr, ledgerOf_of_lookup hw (hp.start.trans (ledgerOf_start m policy))]
      exact hp
  · rw [reserve_inadmissible (Bool.eq_false_iff.mpr ha)]
    exact .refl _

/-- A reservation with a new id is granted, and then there was room for it, or it leaves the counts
as they were. -/
theorem enforcer_reserve_took (e : BudgetEnforcer σ)
    (hn : (e.manager.ledgerOf policy).reservations.lookup id = none) :
    (∃ reserved, (e.reserve policy id estimate now).1 = .ok reserved ∧
      e.manager.takes policy id estimate now = true ∧
      (e.manager.ledgerOf policy).Took
        ((e.reserve policy id estimate now).2.manager.ledgerOf policy)
        id estimate) ∨
    (∃ err, (e.reserve policy id estimate now).1 = .error err) ∧
      (e.manager.ledgerOf policy).Took
        ((e.reserve policy id estimate now).2.manager.ledgerOf policy)
        id 0 := by
  rcases enforcer_reserve_cases e policy id estimate now with
    ⟨reserved, hok, hr, hm⟩ | ⟨⟨err, he, hr⟩, hm⟩ | ⟨reserved, err, hok, hr, hm⟩
  · rw [hm]
    exact .inl ⟨reserved, hr, takes_of_reserve hn hok, took_of_reserve hn hok⟩
  · rw [hm]
    exact .inr ⟨⟨_, hr⟩, (pruned_of_reserve hn he).took⟩
  · rw [hm]
    obtain ⟨-, hh, hin⟩ := held_of_reserve hn hok
    have hs : (((e.manager.reserve policy id estimate now).2.ledgerOf policy).close id
        ⟨estimate, false⟩ 0).start = policy.windowStart := ledgerOf_start ..
    refine .inr ⟨⟨err, hr⟩, ?_⟩
    rw [release_current hin hh, ledgerOf_put hs]
    exact (took_of_reserve hn hok).close

theorem enforcer_reserve_ne (e : BudgetEnforcer σ) (hne : policy'.id ≠ policy.id) :
    (e.manager.ledgerOf policy').Took
      ((e.reserve policy id estimate now).2.manager.ledgerOf policy')
      id 0 := by
  have ho := reserve_ledgerOf_ne hne e.manager id estimate now
  rcases enforcer_reserve_cases e policy id estimate now with
    ⟨reserved, -, -, hm⟩ | ⟨-, hm⟩ | ⟨reserved, err, -, -, hm⟩
  · rw [hm]
    exact ho.took
  · rw [hm]
    exact ho.took
  · rw [hm, release_ledgerOf_ne hne]
    exact ho.took

end

/-! ### Without a distributed ledger -/

section

variable {σ : Type} {e : BudgetEnforcer σ} {policy : Policy} {id : String} {estimate now : Int}

/-- A slice that is opened for the reservation has room for all of the limit. -/
theorem admitSlice_fresh (hs : e.slices.lookup policy.id = none)
    (hl : 0 ≤ policy.tokenLimit) (hes : estimate ≤ policy.tokenLimit) :
    (e.admitSlice policy estimate).1 = .ok () ∧
      (e.admitSlice policy estimate).2.distributed = e.distributed ∧
      ∀ p, p ≠ policy.id →
        (e.admitSlice policy estimate).2.slices.lookup p = e.slices.lookup p := by
  unfold admitSlice
  by_cases hc : policy.consistency = .none
  · rw [if_pos hc]
    exact ⟨rfl, rfl, fun _ _ => rfl⟩
  rw [if_neg hc]
  have he : (estimate : ℚ) ≤ policy.tokenLimit := Int.cast_le.mpr hes
  have ho : 0 ≤ policy.overshoot := by
    unfold Policy.overshoot defaultSliceOvershootRatio
    split
    · have hli : (0 : ℚ) ≤ policy.tokenLimit := Int.cast_nonneg hl
      positivity
    · exact le_rfl
  have hr : ¬ (0 : ℚ) + estimate > (SliceAuthority.forMode policy.id policy.consistency).bound
      ⟨policy.tokenLimit, 0⟩ policy.overshoot := by
    unfold SliceAuthority.bound
    rw [zero_add, not_lt]
    split
    · exact he
    · exact he.trans (le_add_of_nonneg_right ho)
  have hco : (SliceAuthority.forMode policy.id policy.consistency).counter sliceRegion
      policy.tokenLimit = ⟨policy.tokenLimit, 0⟩ := rfl
  simp only [authorityFor, hs, SliceAuthority.admit, hco, if_neg hr,
    setAuthority, lookup_insert_self, true_and]
  intro p hp
  rw [lookup_insert_ne hp, lookup_insert_ne hp]

variable [BudgetLedger σ]

/-- With no other ledger and no slice yet, a reservation that the manager takes is granted. -/
theorem enforcer_reserve_fresh (hd : e.distributed = none)
    (hs : e.slices.lookup policy.id = none) (he : estimate ≤ policy.tokenLimit)
    (hn : (e.manager.ledgerOf policy).reservations.lookup id = none)
    (ht : e.manager.takes policy id estimate now) :
    (∃ reserved, (e.reserve policy id estimate now).1 = .ok reserved) ∧
      (e.reserve policy id estimate now).2.distributed = none ∧
      ∀ p, p ≠ policy.id →
        (e.reserve policy id estimate now).2.slices.lookup p = e.slices.lookup p := by
  obtain ⟨warning, m', w, hr, -⟩ := reserve_taken hn ht
  obtain ⟨tenants, hte⟩ := recordTenant_eq e policy.id policy.tenantID
  have hl : 0 ≤ policy.tokenLimit := by
    simp only [Manager.takes, Policy.admissible, Bool.and_eq_true, Bool.not_eq_true',
      Bool.or_eq_false_iff, decide_eq_false_iff_not, not_lt] at ht
    exact ht.1.1.1.1.2
  unfold reserve
  rw [hte]
  dsimp only
  rw [hr]
  dsimp only [reserveDistributed]
  rw [hd]
  dsimp only
  obtain ⟨hok, hdi, ho⟩ := admitSlice_fresh
    (e := { e with manager := m', distributed := none, tenantByPolicy := tenants }) hs hl
    he
  generalize admitSlice (σ := σ) _ policy estimate = admitted at hok hdi ho ⊢
  obtain ⟨result, e'⟩ := admitted
  dsimp only at hok hdi ho
  subst hok
  exact ⟨⟨_, rfl⟩, hdi, ho⟩

end

/-! ### Across windows -/

section

variable {m : Manager} {p id x : String} {policy : Policy}

/-- The reservation that a settlement finds. -/
def Manager.reservation (m : Manager) (p id : String) : Option ReservationState :=
  (m.ledgerFor p id).map fun found => found.2.2

/-- The reservation in one of the two places. -/
def Manager.reservationIn (m : Manager) (p : String) (place : Place) (id : String) :
    Option ReservationState :=
  (m.ledgerIn p place).bind fun w => w.reservations.lookup id

theorem reservation_eq :
    m.reservation p id = (m.reservationIn p .current id).or (m.reservationIn p .retired id) := by
  unfold Manager.reservation Manager.reservationIn Manager.ledgerFor Manager.ledgerIn
  cases m.windows.lookup p with
  | none =>
    cases m.retired.lookup p with
    | none => rfl
    | some retired => cases hr : retired.state.reservations.lookup id <;> simp [hr]
  | some w =>
    cases hid : w.reservations.lookup id with
    | some r => simp [hid]
    | none =>
      cases m.retired.lookup p with
      | none => simp [hid]
      | some retired => cases hr : retired.state.reservations.lookup id <;> simp [hid, hr]

theorem reservation_settle (hne : id ≠ x) (tokens : Int) :
    (m.settle p x tokens).reservation p id = m.reservation p id := by
  unfold Manager.settle
  cases hf : m.ledgerFor p x with
  | none => rfl
  | some found =>
    obtain ⟨place, w, r⟩ := found
    dsimp only
    split
    · rfl
    · obtain ⟨hin, -⟩ := ledgerFor_some hf
      have hpl : ∀ place', (m.store p (w.close x r tokens) place).reservationIn p place' id
          = m.reservationIn p place' id := by
        intro place'
        by_cases hp : place' = place
        · subst hp
          unfold Manager.reservationIn
          rw [ledgerIn_store_self hin, hin]
          exact lookup_insert_ne hne
        · unfold Manager.reservationIn
          rw [ledgerIn_store_ne fun hc => hp hc.2]
      rw [reservation_eq, reservation_eq, hpl, hpl]

/-- A reservation in the ledger in place is still found after a reservation in whatever window. -/
theorem reservation_reserve {estimate : Int}
    (h : m.reservationIn policy.id .current id = some ⟨estimate, false⟩) (hne : id ≠ x)
    (est' now : Int) :
    (m.reserve policy x est' now).2.reservation policy.id id = some ⟨estimate, false⟩ := by
  obtain ⟨w, hw, hid⟩ := bind_eq_some_iff.mp h
  unfold Manager.reserve
  split
  swap
  · rw [reservation_eq, h]
    rfl
  obtain ⟨w', hw', hp⟩ := sweepLocked_some hw now
  have hi := (hp.same id estimate).mpr hid
  -- What the ledger step leaves, and that a hold on another id does not change it.
  have hle : ((m.sweepLocked now).ledger policy now).2.reservation policy.id id
      = some ⟨estimate, false⟩ := by
    cases ho : (m.sweepLocked now).opens policy with
    | false =>
      rw [ledger_of_not_opens ho, reservation_eq]
      simp [Manager.reservationIn, Manager.ledgerIn, hw', hi]
    | true =>
      obtain ⟨-, hc, hr, -⟩ := ledger_of_opens ho now
      rw [reservation_eq]
      unfold Manager.reservationIn
      rw [hc, hr]
      simp [Manager.ledgerIn, hw', hi, Window.open]
  rcases reserveLocked_snd m policy x est' now with ⟨-, -, hm⟩ | ⟨-, hm⟩
  · obtain ⟨hl, hin⟩ := ledger_spec (m.sweepLocked now) policy now
    rw [hm, ← hle, reservation_eq, reservation_eq]
    have hc : (((m.sweepLocked now).ledger policy now).2.store policy.id
        (((m.sweepLocked now).ledger policy now).1.hold x est') .current).reservationIn
          policy.id .current id
        = ((m.sweepLocked now).ledger policy now).2.reservationIn policy.id .current id := by
      unfold Manager.reservationIn
      rw [ledgerIn_store_self (w := ((m.sweepLocked now).ledger policy now).1)
        (by rw [hl]; exact hin)]
      rw [show ((m.sweepLocked now).ledger policy now).2.ledgerIn policy.id .current
        = some ((m.sweepLocked now).ledger policy now).1 by rw [hl]; exact hin]
      exact lookup_insert_ne hne
    have hr : (((m.sweepLocked now).ledger policy now).2.store policy.id
        (((m.sweepLocked now).ledger policy now).1.hold x est') .current).reservationIn
          policy.id .retired id
        = ((m.sweepLocked now).ledger policy now).2.reservationIn policy.id .retired id := rfl
    rw [hc, hr]
  · rw [hm]
    exact hle

/-- An accepted reservation carries the id and the policy it was asked for, and is found. -/
theorem found_of_reserve {estimate now : Int} {reserved : Reservation}
    (h : (m.reserve policy id estimate now).1 = .ok reserved) :
    id ≠ "" ∧ reserved.id = id ∧ reserved.policyID = policy.id ∧
      ∃ r, (m.reserve policy id estimate now).2.reservation policy.id id = some r := by
  have had : policy.admissible id estimate now = true := by
    by_contra hc
    rw [reserve_inadmissible (Bool.eq_false_iff.mpr hc)] at h
    cases h
  have hid : id ≠ "" := by
    rintro rfl
    simp [Policy.admissible] at had
  have hre : m.reserve policy id estimate now = m.reserveLocked policy id estimate now :=
    if_pos had
  have hin := (ledger_spec (m.sweepLocked now) policy now).2
  rw [← (ledger_spec (m.sweepLocked now) policy now).1] at hin
  rw [hre] at h ⊢
  refine ⟨hid, ?_⟩
  cases hl : ((m.sweepLocked now).ledger policy now).1.reservations.lookup id with
  | some r =>
    simp only [Manager.reserveLocked, hl, Except.ok.injEq] at h ⊢
    refine ⟨by rw [← h], by rw [← h], r, ?_⟩
    rw [reservation_eq]
    simp [Manager.reservationIn, Manager.ledgerIn, hin, hl]
  | none =>
    rw [reserveLocked_eq rfl hl] at h ⊢
    split at h
    · cases h
    · rename_i hr
      rw [if_neg hr]
      cases h
      refine ⟨rfl, rfl, ⟨estimate, false⟩, ?_⟩
      rw [reservation_eq]
      simp [Manager.reservationIn, Manager.ledgerIn, Window.hold]

theorem reconcile_found {r : ReservationState} (h : m.reservation p id = some r) {actual : Int}
    (ha : 0 ≤ actual) : m.reconcile p id actual = (.ok (), m.settle p id actual) := by
  obtain ⟨found, hf, -⟩ := map_eq_some_iff.mp h
  simp [Manager.reconcile, hf, ha]

end

end LiteAIG.Budget
