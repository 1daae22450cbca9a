/-
What a rejected reservation leaves behind.

The enforcer takes up to three holds in a row.  A refusal by the manager or by the
distributed ledger undoes what came before it.  A refusal by the slice releases the
manager's hold only: what the distributed ledger reserved stays reserved there.
The theorem says exactly when the three books read the same as before, for every
distributed ledger that keeps the contract.

The manager and the slices are read by policy id, so a call that moves on to
another window changes what they read unless nothing was counted there.
-/
import LiteAIG.Proofs.Budget.Ledger
import LiteAIG.Proofs.Ledger.Contract

namespace LiteAIG.Budget

open Lib Ledger BudgetEnforcer SliceAuthority

/-! ### What can be read -/

section

variable {σ : Type} [BudgetLedger σ] [LawfulBudgetLedger σ]

/-- The same counters and the same open reservations. -/
def SameBooks (l l' : σ) : Prop :=
  (∀ tenantID key, LawfulBudgetLedger.counter l' tenantID key
    = LawfulBudgetLedger.counter l tenantID key) ∧
  ∀ tenantID id, LawfulBudgetLedger.isOpen l' tenantID id ↔ LawfulBudgetLedger.isOpen l tenantID id

/-- The three books of a policy read the same after as before. -/
structure Unchanged (e e' : BudgetEnforcer σ) (policyID : String) : Prop where
  usage : e'.usage policyID = e.usage policyID
  distributed : ∀ l, e.distributed = some l → ∃ l', e'.distributed = some l' ∧ SameBooks l l'
  slice : e'.sliceUsed policyID = e.sliceUsed policyID

/-- What has to hold before the call for a rejection to leave no trace. -/
structure Undone (e : BudgetEnforcer σ) (ledger : σ) (policy : Policy) (id : String)
    (estimate now : Int) : Prop where
  /-- A request that passes the manager's first check does not displace a ledger of another
  window that has counted something. -/
  manager : policy.admissible id estimate now = true →
    ∀ w, e.manager.windows.lookup policy.id = some w → w.start ≠ policy.windowStart →
      w.reserved = 0 ∧ w.consumed = 0
  /-- What the manager takes, the distributed ledger does not. -/
  distributed : e.manager.takes policy id estimate now = true →
    ¬ (LawfulBudgetLedger.available ledger ∧
      LawfulBudgetLedger.room ledger (distributedRequest policy id estimate))
  /-- And where the policy goes on without the ledger, it does not displace a slice of another
  window that is in use. -/
  slice : e.manager.takes policy id estimate now = true → ¬ LawfulBudgetLedger.available ledger →
    policy.mode = .soft → ∀ entry, e.slices.lookup policy.id = some entry →
      entry.windowStart ≠ policy.windowStart → entry.authority.used = 0

end

/-! ### The manager -/

theorem usage_ledgerOf_iff (m : Manager) (p : Policy) :
    ((m.ledgerOf p).reserved, (m.ledgerOf p).consumed) = m.usage p.id ↔
      ∀ w, m.windows.lookup p.id = some w → w.start ≠ p.windowStart →
        w.reserved = 0 ∧ w.consumed = 0 := by
  cases hw : m.windows.lookup p.id with
  | none =>
    rw [ledgerOf_of_none hw]
    simp [Manager.usage, hw, Window.open]
  | some w =>
    rw [usage_of_lookup hw]
    by_cases hs : w.start = p.windowStart
    · rw [ledgerOf_of_lookup hw hs]
      simp [hs]
    · rw [ledgerOf_of_ne hw hs]
      simp [hs, Window.open, eq_comm]

/-! ### The slices -/

/-- The use of the slice of the policy's window. -/
def sliceOf (slices : Assoc String SliceEntry) (policy : Policy) : ℚ :=
  match slices.lookup policy.id with
  | some entry => if entry.windowStart = policy.windowStart then entry.authority.used else 0
  | none => 0

theorem SliceAuthority.used_admit_error {a a' : SliceAuthority} {amount strict overshoot : ℚ}
    {err : SliceError} (h : a.admit sliceRegion amount strict overshoot = (.error err, a')) :
    a'.used = a.used := by
  unfold SliceAuthority.admit at h
  by_cases ho : (a.counter sliceRegion strict).used + amount
      > a.bound (a.counter sliceRegion strict) overshoot
  · rw [if_pos ho, Prod.mk.injEq] at h
    rw [← h.2]
    unfold used state counter
    cases a.slices.lookup sliceRegion <;> simp
  · rw [if_neg ho] at h
    cases h

section

variable {σ : Type} {e e' : BudgetEnforcer σ} {p : Policy}

theorem sliceOf_iff :
    sliceOf e.slices p = e.sliceUsed p.id ↔
      ∀ entry, e.slices.lookup p.id = some entry → entry.windowStart ≠ p.windowStart →
        entry.authority.used = 0 := by
  unfold sliceOf sliceUsed
  cases h : e.slices.lookup p.id with
  | none => simp
  | some entry =>
    by_cases hs : entry.windowStart = p.windowStart
    · simp [hs]
    · simp [hs, eq_comm]

/-- The authority that is asked is the one of the policy's window, and it is in place. -/
theorem authorityFor_spec :
    (e.authorityFor p).1.used = sliceOf e.slices p ∧
      (∃ entry, (e.authorityFor p).2.slices.lookup p.id = some entry) ∧
      (e.authorityFor p).2.manager = e.manager ∧
      (e.authorityFor p).2.distributed = e.distributed := by
  unfold authorityFor sliceOf
  cases h : e.slices.lookup p.id with
  | none => exact ⟨rfl, ⟨_, Assoc.lookup_insert_self⟩, rfl, rfl⟩
  | some entry =>
    by_cases hs : entry.windowStart = p.windowStart
    · simp [hs, h]
    · simp only [if_neg hs]
      exact ⟨rfl, ⟨_, Assoc.lookup_insert_self⟩, trivial, trivial⟩

/-- A slice that refuses keeps the use it has in the policy's window. -/
theorem admitSlice_error {est : Int} {err : SliceError}
    (h : e.admitSlice p est = (.error err, e')) :
    e'.sliceUsed p.id = sliceOf e.slices p ∧ e'.manager = e.manager ∧
      e'.distributed = e.distributed := by
  unfold admitSlice at h
  by_cases hc : p.consistency = .none
  · rw [if_pos hc] at h
    cases h
  · rw [if_neg hc] at h
    obtain ⟨hu, ⟨entry, he⟩, hm, hd⟩ := authorityFor_spec
    generalize e.authorityFor p = found at *
    obtain ⟨a, e₁⟩ := found
    simp only at h hu he hm hd
    cases ha : a.admit sliceRegion est p.tokenLimit p.overshoot with
    | mk result a' =>
      rw [ha] at h
      simp only [Prod.mk.injEq] at h
      obtain ⟨rfl, rfl⟩ := h
      have hu' := (used_admit_error ha).trans hu
      simp [setAuthority, sliceUsed, he, hu', hm, hd]

end

/-! ### The distributed ledger -/

section

variable {σ : Type} [BudgetLedger σ] [LawfulBudgetLedger σ] {e : BudgetEnforcer σ} {ledger : σ}
  {p : Policy} {id : String} {est : Int}

open LawfulBudgetLedger

section

variable (hd : e.distributed = some ledger) (hs : sound ledger (distributedRequest p id est))
include hd hs

theorem reserveDistributed_room (hup : available ledger)
    (hr : room ledger (distributedRequest p id est)) :
    ∃ ledger', e.reserveDistributed p id est
        = (.ok (), { e with distributed := some ledger' }) ∧ isOpen ledger' p.tenantID id := by
  obtain ⟨ledger', hre, ho⟩ := reserve_room hs hup hr
  refine ⟨ledger', ?_, ho⟩
  simp [reserveDistributed, hd, failModeReserve, hre]

theorem reserveDistributed_full (hup : available ledger)
    (hr : ¬ room ledger (distributedRequest p id est)) :
    e.reserveDistributed p id est = (.error (.budget .exceeded), e) := by
  have he : { e with distributed := some ledger } = e := by rw [← hd]
  simp [reserveDistributed, hd, failModeReserve, reserve_full hs hup hr, he]

/-- An unavailable ledger stops a hard policy and lets a soft one go on. -/
theorem reserveDistributed_unavailable (hdo : ¬ available ledger) :
    ∃ alerts, e.reserveDistributed p id est
      = (if p.mode = .soft then .ok () else .error (.ledger .ledgerUnavailable),
        { e with alerts }) := by
  have he : ∀ alerts, ({ e with distributed := some ledger, alerts } : BudgetEnforcer σ)
      = { e with alerts } := by
    intro alerts
    rw [← hd]
  by_cases hm : p.mode = .soft
  · simp [reserveDistributed, hd, failModeReserve, reserve_unavailable hs hdo,
      Policy.failMode, hm, he]
  · simp [reserveDistributed, hd, failModeReserve, reserve_unavailable hs hdo,
      Policy.failMode, hm, he]

end

/-! ### The whole call -/

variable {now : Int}

theorem SameBooks.refl (l : σ) : SameBooks l l := ⟨fun _ _ => rfl, fun _ _ => Iff.rfl⟩

variable {e' : BudgetEnforcer σ}

/-- A rejection that the distributed ledger has no part in. -/
theorem unchanged_iff (hd : e'.distributed = e.distributed) :
    Unchanged e e' p.id ↔
      e'.usage p.id = e.usage p.id ∧ e'.sliceUsed p.id = e.sliceUsed p.id := by
  refine ⟨fun h => ⟨h.usage, h.slice⟩, fun h => ⟨h.1, ?_, h.2⟩⟩
  intro l hl
  exact ⟨l, hd.trans hl, .refl l⟩

omit [BudgetLedger σ] [LawfulBudgetLedger σ] in
theorem fresh_ledgerOf
    (hf : ∀ w, e.manager.windows.lookup p.id = some w → w.reservations.lookup id = none) :
    (e.manager.ledgerOf p).reservations.lookup id = none := by
  unfold Manager.ledgerOf
  cases hw : e.manager.windows.lookup p.id with
  | none => rfl
  | some w =>
    by_cases hs : w.start = p.windowStart
    · simpa only [if_pos hs] using hf w hw
    · simp only [if_neg hs]
      rfl

omit [BudgetLedger σ] [LawfulBudgetLedger σ] in
theorem takes_admissible (h : e.manager.takes p id est now) :
    p.admissible id est now = true :=
  (Bool.and_eq_true_iff.mp h).1

/-- A rejection after which the manager has the counts of the policy's window. -/
theorem undone_iff (ha : p.admissible id est now)
    (hd : e'.distributed = e.distributed)
    (hu : e'.usage p.id = ((e.manager.ledgerOf p).reserved, (e.manager.ledgerOf p).consumed))
    (hl : e.manager.takes p id est now = true →
      ¬ (available ledger ∧ room ledger (distributedRequest p id est)))
    (hs : e'.sliceUsed p.id = e.sliceUsed p.id ↔
      (e.manager.takes p id est now = true → ¬ available ledger → p.mode = .soft →
        ∀ entry, e.slices.lookup p.id = some entry → entry.windowStart ≠ p.windowStart →
          entry.authority.used = 0)) :
    Unchanged e e' p.id ↔ Undone e ledger p id est now := by
  rw [unchanged_iff hd, hu, hs]
  have hm := usage_ledgerOf_iff e.manager p
  constructor
  · intro h
    exact ⟨fun _ => hm.mp h.1, hl, h.2⟩
  · intro h
    exact ⟨hm.mpr (h.manager ha), h.slice⟩

/-- **Rejected reservations.** For every enforcer with a distributed ledger that keeps the
contract, every policy and every fresh id: when `Reserve` returns an error, the manager's counts,
the distributed ledger and the slice read the same as before exactly when `Undone` holds.  A
reservation that both the manager and the distributed ledger have room for is never undone. -/
theorem rejection_unchanged_iff (e : BudgetEnforcer σ) (ledger : σ) (policy : Policy) (id : String)
    (estimate now : Int) (hd : e.distributed = some ledger)
    (hsound : policy.admissible id estimate now = true →
      sound ledger (distributedRequest policy id estimate))
    (hfresh : ∀ w, e.manager.windows.lookup policy.id = some w → w.reservations.lookup id = none)
    (hclosed : ¬ isOpen ledger policy.tenantID id) {err : EnforcerError}
    (herr : (e.reserve policy id estimate now).1 = .error err) :
    Unchanged e (e.reserve policy id estimate now).2 policy.id ↔
      Undone e ledger policy id estimate now := by
  obtain ⟨tenants, ht⟩ := recordTenant_eq e policy.id policy.tenantID
  have hid := fresh_ledgerOf hfresh
  unfold reserve at herr ⊢
  rw [ht] at herr ⊢
  by_cases ha : policy.admissible id estimate now = true
  · by_cases hta : e.manager.takes policy id estimate now = true
    · -- the manager holds the estimate; the ledger and the slice follow
      obtain ⟨r, m', w, hre, hp, hw⟩ := reserve_taken hid hta
      have hu : (m'.release policy.id id).usage policy.id
          = ((e.manager.ledgerOf policy).reserved, (e.manager.ledgerOf policy).consumed) := by
        rw [usage_release_hold hw, hp.reserved, hp.consumed]
      simp only [hre] at herr ⊢
      have hd' : ({ e with
          manager := m', tenantByPolicy := tenants } : BudgetEnforcer σ).distributed
          = some ledger := hd
      by_cases hup : available ledger
      · by_cases hro : room ledger (distributedRequest policy id estimate)
        · obtain ⟨ledger', hle, ho⟩ := reserveDistributed_room hd' (hsound ha) hup hro
          simp only [hle] at herr ⊢
          split at herr
          · rename_i err' e₂ hr
            obtain ⟨-, -, hdi⟩ := admitSlice_error hr
            -- the slice refused, and the ledger keeps the reservation
            refine ⟨fun h => ?_, fun h => absurd ⟨hup, hro⟩ (h.distributed hta)⟩
            obtain ⟨l', hl', hsa⟩ := h.distributed ledger hd
            have heq : l' = ledger' := Option.some.inj (hl'.symm.trans hdi)
            rw [heq] at hsa
            exact absurd ((hsa.2 _ _).mp ho) hclosed
          · cases herr
        · simp only [reserveDistributed_full hd' (hsound ha) hup hro]
          refine undone_iff ha rfl hu (fun _ hc => hro hc.2) ?_
          exact ⟨fun _ _ hdo => absurd hup hdo, fun _ => rfl⟩
      · obtain ⟨alerts, hle⟩ := reserveDistributed_unavailable hd' (hsound ha) hup
        by_cases hs : policy.mode = .soft
        · simp only [hle, if_pos hs] at herr ⊢
          split at herr
          · rename_i err' e₂ hr
            obtain ⟨hsl, hm, hdi⟩ := admitSlice_error hr
            refine undone_iff ha hdi ?_ (fun _ hc => hup hc.1) ?_
            · show (e₂.manager.release policy.id id).usage policy.id = _
              rw [hm]
              exact hu
            · show e₂.sliceUsed policy.id = _ ↔ _
              rw [hsl]
              refine sliceOf_iff.trans ⟨fun h _ _ _ => h, fun h => h hta hup hs⟩
          · cases herr
        · simp only [hle, if_neg hs]
          refine undone_iff ha rfl hu (fun _ hc => hup hc.1) ?_
          exact ⟨fun _ _ _ hc => absurd hc hs, fun _ => rfl⟩
    · obtain ⟨m', w, hre, hp, hw⟩ := reserve_refused ha hid (Bool.eq_false_iff.mpr hta)
      simp only [hre]
      refine undone_iff ha rfl ?_ (fun hc => absurd hc hta) ?_
      · show m'.usage policy.id = _
        rw [usage_of_lookup hw, hp.reserved, hp.consumed]
      · exact ⟨fun _ hc => absurd hc hta, fun _ => rfl⟩
  · simp only [reserve_inadmissible (Bool.eq_false_iff.mpr ha)]
    have hn : ¬ e.manager.takes policy id estimate now = true := fun h => ha (takes_admissible h)
    exact ⟨fun _ => ⟨fun h => absurd h ha, fun h => absurd h hn, fun h => absurd h hn⟩,
      fun _ => ⟨rfl, fun l hl => ⟨l, hl, .refl l⟩, rfl⟩⟩

end

/-! ### A slice that refuses after the ledger reserved -/

def regionalPolicy (limit : Int) : Policy :=
  ⟨"p", "t", "", "", .soft, .regional, limit, 0, 3600 * 1000000000⟩

def unused : BudgetEnforcer MemoryBudgetLedger :=
  (BudgetEnforcer.new (.new 0)).withDistributedLedger .new

/-- After ten tokens were reserved under a limit of ten. -/
def usedUp : BudgetEnforcer MemoryBudgetLedger :=
  (unused.reserve (regionalPolicy 10) "a" 10 0).2

def ledgerCounter (e : BudgetEnforcer MemoryBudgetLedger) : Option ℚ :=
  e.distributed.map fun l =>
    LawfulBudgetLedger.counter l "t" "\x7btenant:t\x7d:budget:p:00010101000000"

/-- The limit is raised to a hundred.  The manager and the ledger have room for five more, but
the slice was opened with the old limit: `Reserve` fails and the ledger has counted fifteen. -/
theorem slice_rejection_keeps_ledger_hold :
    (usedUp.reserve (regionalPolicy 100) "b" 5 0).1 = .error (.slice .overshoot) ∧
      ¬ Unchanged usedUp (usedUp.reserve (regionalPolicy 100) "b" 5 0).2 "p" := by
  refine ⟨by decide +kernel, ?_⟩
  intro h
  have hb : ledgerCounter usedUp = some 10 := by decide +kernel
  have ha : ledgerCounter (usedUp.reserve (regionalPolicy 100) "b" 5 0).2 = some 15 := by
    decide +kernel
  unfold ledgerCounter at hb ha
  obtain ⟨l, hl, h10⟩ := Option.map_eq_some_iff.mp hb
  obtain ⟨l', hl', hs, -⟩ := h.distributed l hl
  rw [hl', Option.map_some, hs, h10] at ha
  exact absurd ha (by decide)

theorem full_ledger_rejection_unchanged :
    Unchanged unused (unused.reserve (regionalPolicy 10) "b" 11 0).2 "p" := by
  have he : (unused.reserve (regionalPolicy 10) "b" 11 0).1 = .error (.budget .exceeded) := by
    decide +kernel
  have hro : ¬ LawfulBudgetLedger.room MemoryBudgetLedger.new
      (distributedRequest (regionalPolicy 10) "b" 11) := by
    intro hc
    exact absurd (hc _ (List.mem_singleton.mpr rfl)) (by decide +kernel)
  refine (rejection_unchanged_iff unused .new (regionalPolicy 10) "b" 11 0 rfl ?_ ?_ ?_ he).mpr
    ⟨?_, ?_, ?_⟩
  · exact fun _ => ⟨by decide +kernel, by decide +kernel⟩
  · exact fun w hw => nomatch hw
  · exact fun ⟨r, hr, _⟩ => nomatch hr
  · exact fun _ w hw => nomatch hw
  · exact fun _ hc => hro hc.2
  · exact fun _ hd => absurd trivial hd

end LiteAIG.Budget
