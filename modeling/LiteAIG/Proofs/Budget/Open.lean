/-
Which reservations are open.

A policy has up to two ledgers, the current one and the retired one, and the manager
looks for a reservation in the current one first.  So there are two readings of an
open reservation: some ledger of the policy has it open, or the one that the manager
finds is.  The first never becomes true of a reservation that nobody makes, whatever
else is done.  The second is false once the reservation has been settled.
-/
import LiteAIG.Proofs.Budget.Calls

namespace LiteAIG.Budget

open Lib Ledger Manager Option

section

variable {m m' m'' : Manager} {policy : Policy} {p q id x : String} {place : Place}
  {estimate now : Int}

/-- The ledger in one place has the reservation open. -/
def Manager.OpenIn (m : Manager) (p : String) (place : Place) (id : String) : Prop :=
  ∃ estimate, m.reservationIn p place id = some ⟨estimate, false⟩

/-- A ledger of the policy has the reservation open. -/
def Manager.Holds (m : Manager) (p id : String) : Prop := ∃ place, m.OpenIn p place id

/-- The reservation that the manager finds is open. -/
def Manager.Open (m : Manager) (p id : String) : Prop :=
  ∃ estimate, m.reservation p id = some ⟨estimate, false⟩

theorem Manager.Open.holds (h : m.Open p id) : m.Holds p id := by
  obtain ⟨estimate, h⟩ := h
  rw [reservation_eq, or_eq_some_iff] at h
  rcases h with hc | ⟨-, hr⟩
  · exact ⟨.current, estimate, hc⟩
  · exact ⟨.retired, estimate, hr⟩

theorem Manager.OpenIn.open (h : m.OpenIn p .current id) : m.Open p id := by
  obtain ⟨estimate, h⟩ := h
  exact ⟨estimate, by rw [reservation_eq, h]; rfl⟩

/-- The second manager has nothing open that the first has not. -/
def Manager.OpensNone (m m' : Manager) : Prop := ∀ p id, m'.Holds p id → m.Holds p id

theorem Manager.OpensNone.refl (m : Manager) : m.OpensNone m := fun _ _ h => h

/-! ### Reserving -/

theorem openIn_sweepLocked (h : (m.sweepLocked now).OpenIn p place id) : m.OpenIn p place id := by
  obtain ⟨estimate, h⟩ := h
  obtain ⟨w', hw', hid⟩ := bind_eq_some_iff.mp h
  obtain ⟨w, hw, rfl | rfl⟩ := ledgerIn_sweepLocked hw'
  · exact ⟨estimate, bind_eq_some_iff.mpr ⟨w', hw, hid⟩⟩
  · exact ⟨estimate, bind_eq_some_iff.mpr ⟨w, hw, ((pruned_prune w).same id estimate).mp hid⟩⟩

/-- Opening a ledger moves what is open to the retired one, and nothing else becomes open. -/
theorem holds_ledger (h : (m.ledger policy now).2.OpenIn p place id) : m.Holds p id := by
  cases ho : m.opens policy with
  | false =>
    rw [ledger_of_not_opens ho] at h
    exact ⟨place, h⟩
  | true =>
    obtain ⟨-, hc, hr, hot⟩ := ledger_of_opens ho now
    obtain ⟨estimate, h⟩ := h
    obtain ⟨w, hw, hid⟩ := bind_eq_some_iff.mp h
    by_cases hp : p = policy.id
    · subst hp
      cases place with
      | current =>
        rw [hc] at hw
        cases hw
        cases hid
      | retired =>
        rw [hr, or_eq_some_iff] at hw
        rcases hw with hw | ⟨-, hw⟩
        · exact ⟨.current, estimate, bind_eq_some_iff.mpr ⟨w, hw, hid⟩⟩
        · exact ⟨.retired, estimate, bind_eq_some_iff.mpr ⟨w, hw, hid⟩⟩
    · rw [hot p place hp] at hw
      exact ⟨place, estimate, bind_eq_some_iff.mpr ⟨w, hw, hid⟩⟩

/-- A reservation opens its own id in the current ledger, and no other. -/
theorem openIn_reserve (h : (m.reserve policy x estimate now).2.OpenIn p place id) :
    m.Holds p id ∨ (m.reserve policy x estimate now).1.isOk ∧ p = policy.id ∧ place = .current ∧
      id = x := by
  unfold reserve at h ⊢
  split at h
  swap
  · exact .inl ⟨place, h⟩
  rename_i ha
  rw [if_pos ha]
  have hle : ∀ place', ((m.sweepLocked now).ledger policy now).2.OpenIn p place' id →
      m.Holds p id := by
    intro place' ho
    obtain ⟨place'', hs⟩ := holds_ledger ho
    exact ⟨place'', openIn_sweepLocked hs⟩
  rcases reserveLocked_snd m policy x estimate now with ⟨had, -, hm⟩ | ⟨-, hm⟩
  · rw [hm] at h
    obtain ⟨hl, hw⟩ := ledger_spec (m.sweepLocked now) policy now
    by_cases hp : p = policy.id ∧ place = .current
    · obtain ⟨rfl, rfl⟩ := hp
      by_cases hid : id = x
      · exact .inr ⟨(Bool.and_eq_true_iff.mp had).2, rfl, rfl, hid⟩
      · -- another id in the ledger is what it was before the hold
        obtain ⟨est', h⟩ := h
        unfold reservationIn at h
        rw [ledgerIn_store_self (w := ((m.sweepLocked now).ledger policy now).1)
          (by rw [hl]; exact hw)] at h
        have hi : ((m.sweepLocked now).ledger policy now).1.reservations.lookup id
            = some ⟨est', false⟩ := (Assoc.lookup_insert_ne hid).symm.trans h
        refine .inl (hle .current ⟨est', bind_eq_some_iff.mpr ⟨_, ?_, hi⟩⟩)
        rw [hl]
        exact hw
    · refine .inl (hle place ?_)
      obtain ⟨est', h⟩ := h
      unfold reservationIn at h
      rw [ledgerIn_store_ne hp] at h
      exact ⟨est', h⟩
  · rw [hm] at h
    exact .inl (hle place h)

theorem opensNone_reserve_error {err : BudgetError}
    (h : (m.reserve policy x estimate now).1 = .error err) :
    m.OpensNone (m.reserve policy x estimate now).2 := by
  rintro p id ⟨place, ho⟩
  rcases openIn_reserve ho with hh | ⟨hok, -⟩
  · exact hh
  · rw [h] at hok
    cases hok

/-! ### Settling -/

variable {tokens : Int}

theorem openIn_settle (h : (m.settle q x tokens).OpenIn p place id) : m.OpenIn p place id := by
  unfold settle at h
  cases hf : m.ledgerFor q x with
  | none =>
    rw [hf] at h
    exact h
  | some found =>
    obtain ⟨place', w, r⟩ := found
    obtain ⟨hin, hx⟩ := ledgerFor_some hf
    rw [hf] at h
    dsimp only at h
    split at h
    · exact h
    · obtain ⟨estimate, h⟩ := h
      unfold reservationIn at h
      by_cases hp : p = q ∧ place = place'
      · obtain ⟨rfl, rfl⟩ := hp
        rw [ledgerIn_store_self hin] at h
        refine ⟨estimate, bind_eq_some_iff.mpr ⟨w, hin, ?_⟩⟩
        by_cases hid : id = x
        · subst hid
          cases Assoc.lookup_insert_self.symm.trans h
        · exact (Assoc.lookup_insert_ne hid).symm.trans h
      · rw [ledgerIn_store_ne hp] at h
        exact ⟨estimate, h⟩

theorem opensNone_settle : m.OpensNone (m.settle p id tokens) :=
  fun _ _ ⟨place, h⟩ => ⟨place, openIn_settle h⟩

theorem not_open_settle : ¬ (m.settle p id tokens).Open p id := by
  rintro ⟨estimate, h⟩
  unfold settle at h
  cases hfo : m.ledgerFor p id with
  | none =>
    rw [hfo] at h
    simp [reservation, hfo] at h
  | some found =>
    obtain ⟨place, w, r⟩ := found
    obtain ⟨hin, hid⟩ := ledgerFor_some hfo
    rw [hfo] at h
    dsimp only at h
    split at h
    · rename_i hf
      simp only [reservation, hfo, map_some, Option.some.injEq] at h
      rw [h] at hf
      cases hf
    · have hs : (m.store p (w.close id r tokens) place).reservationIn p place id
          = some { r with final := true } := by
        unfold reservationIn
        rw [ledgerIn_store_self hin]
        exact Assoc.lookup_insert_self
      rw [reservation_eq] at h
      cases place with
      | current =>
        rw [hs] at h
        cases h
      | retired =>
        -- the current ledger did not have it, and has not been written
        have hcu : (m.store p (w.close id r tokens) .retired).reservationIn p .current id
            = none := by
          unfold reservationIn
          rw [ledgerIn_store_ne fun hc => by cases hc.2]
          cases hw : m.ledgerIn p .current with
          | none => rfl
          | some v =>
            cases hv : v.reservations.lookup id with
            | none => exact hv
            | some r' =>
              rw [ledgerFor_current hw hv] at hfo
              cases hfo
        rw [hcu, hs] at h
        cases h

theorem opensNone_reserve_settle :
    m.OpensNone ((m.reserve policy x estimate now).2.settle policy.id x tokens) := by
  rintro p id ⟨place, ho⟩
  rcases openIn_reserve (openIn_settle ho) with hh | ⟨-, rfl, rfl, rfl⟩
  · exact hh
  · exact absurd ho.open not_open_settle

/-- The manager reconciles what it finds, and nothing otherwise. -/
theorem reconcile_cases (m : Manager) (p id : String) (actual : Int) :
    m.reconcile p id actual = (.ok (), m.settle p id actual) ∨
      ∃ err, m.reconcile p id actual = (.error err, m) := by
  unfold reconcile
  split
  · exact .inr ⟨_, rfl⟩
  · split
    · exact .inr ⟨_, rfl⟩
    · exact .inl rfl

end

/-! ### Through the enforcer -/

section

variable {σ : Type} [BudgetLedger σ] (e : BudgetEnforcer σ)

/-- A reservation through the enforcer opens its own id if it is granted, and nothing otherwise. -/
theorem enforcer_reserve_opens (policy : Policy) (x : String) (estimate now : Int) :
    (∃ reserved, (e.reserve policy x estimate now).1 = .ok reserved ∧ x ≠ "" ∧
        reserved.id = x ∧ reserved.policyID = policy.id ∧
        (e.reserve policy x estimate now).2.manager = (e.manager.reserve policy x estimate now).2) ∨
      (∃ err, (e.reserve policy x estimate now).1 = .error err) ∧
        e.manager.OpensNone (e.reserve policy x estimate now).2.manager := by
  rcases enforcer_reserve_cases e policy x estimate now with
    ⟨reserved, hok, hr, hm⟩ | ⟨⟨err, he, hr⟩, hm⟩ | ⟨reserved, err, -, hr, hm⟩
  · obtain ⟨hx, hid, hp, -⟩ := found_of_reserve hok
    exact .inl ⟨reserved, hr, hx, hid, hp, hm⟩
  · rw [hm]
    exact .inr ⟨⟨_, hr⟩, opensNone_reserve_error he⟩
  · rw [hm]
    exact .inr ⟨⟨err, hr⟩, opensNone_reserve_settle⟩

end

end LiteAIG.Budget
