/-
When the slice follows the manager.

`Reserve`, `Reconcile` and `Release` are sequences of steps, each under a lock of
its own, and the steps of concurrent requests interleave.  `Phase` is where a
request stands between two of its steps.  A reservation adds to the manager and
later to the slice; a settlement changes the manager, reads its total, and later
overwrites the slice with what it read.

The books are in step when the slice plus what is on its way to it is the manager's
total.  A settlement in progress suspends that, and its overwrite restores it if the
total it carries is still the total and nothing is on its way.  Nothing in the code
sees to that: a reservation between the read and the overwrite is lost to the slice.
-/
import LiteAIG.Lib.Run
import LiteAIG.Proofs.Budget.Ledger

namespace LiteAIG.Budget

open Lib Ledger Assoc SliceAuthority Option

/-! ### The machine -/

inductive Phase
  /-- `Reserve`: held by the manager, the distributed ledger is asked. -/
  | held (id : String) (estimate : Int)
  /-- `Reserve`: the slice authority is looked up next. -/
  | opening (id : String) (estimate : Int)
  /-- `Reserve`: the slice is asked next. -/
  | admitting (id : String) (estimate : Int)
  /-- `Reserve`: refused, the manager's hold is released next. -/
  | undoing (id : String) (estimate : Int)
  /-- A settlement: the manager is done, the slice entry is looked up next. -/
  | looking
  /-- A settlement: the manager's usage is read next. -/
  | reading
  /-- A settlement: the slice is overwritten next. -/
  | writing (total : Int)
  deriving DecidableEq

/-- What a reservation has added to the manager and not yet to the slice. -/
def Phase.inFlight : Phase → Option (String × Int)
  | .held id estimate | .opening id estimate | .admitting id estimate | .undoing id estimate =>
    some (id, estimate)
  | .looking | .reading | .writing _ => none

/-- The total a settlement is about to write. -/
def Phase.carried : Phase → Option Int
  | .writing total => some total
  | _ => none

def Phase.amount (ph : Phase) : Int := (ph.inFlight.map Prod.snd).getD 0

structure Requests (σ : Type) where
  enforcer : BudgetEnforcer σ
  phases : Assoc Nat Phase

inductive RequestAct
  | reserve (k : Nat) (id : String) (estimate now : Int)
  /-- The distributed ledger answered request `k`. -/
  | answer (k : Nat) (admits : Bool)
  | reconcile (k : Nat) (id : String) (actual : Int)
  | release (k : Nat) (id : String)
  /-- Request `k` takes its next step. -/
  | next (k : Nat)
  | sweep (now : Int)

variable {σ : Type}

/-- The next step of request `k`, from where it stands. -/
def Requests.advance (policy : Policy) (w : Requests σ) (k : Nat) : Phase → Requests σ
  | .held _ _ => w
  | .opening id estimate =>
    ⟨(w.enforcer.authorityFor policy).2, w.phases.insert k (.admitting id estimate)⟩
  | .admitting id estimate =>
    match w.enforcer.slices.lookup policy.id with
    | none => w
    | some entry =>
      match entry.authority.admit sliceRegion estimate policy.tokenLimit policy.overshoot with
      | (.ok (), authority) =>
        ⟨w.enforcer.setAuthority policy.id authority, w.phases.erase k⟩
      | (.error _, authority) =>
        ⟨w.enforcer.setAuthority policy.id authority,
          w.phases.insert k (.undoing id estimate)⟩
  | .undoing id _ =>
    ⟨{ w.enforcer with manager := w.enforcer.manager.release policy.id id }, w.phases.erase k⟩
  | .looking =>
    match w.enforcer.slices.lookup policy.id with
    | none => { w with phases := w.phases.erase k }
    | some _ => { w with phases := w.phases.insert k .reading }
  | .reading =>
    let (reserved, consumed) := w.enforcer.usage policy.id
    { w with phases := w.phases.insert k (.writing (reserved + consumed)) }
  | .writing total =>
    match w.enforcer.slices.lookup policy.id with
    | none => { w with phases := w.phases.erase k }
    | some entry =>
      ⟨w.enforcer.setAuthority policy.id (entry.authority.reconcile sliceRegion total).2,
        w.phases.erase k⟩

/-- One step of the requests on one policy.  A request that is under way does not begin again. -/
def Requests.step (policy : Policy) (w : Requests σ) : RequestAct → Requests σ
  | .reserve k id estimate now =>
    if (w.phases.lookup k).isSome then w
    else
      let e := w.enforcer.recordTenant policy.id policy.tenantID
      match e.manager.reserve policy id estimate now with
      | (.error _, manager) => { w with enforcer := { e with manager } }
      | (.ok _, manager) => ⟨{ e with manager }, w.phases.insert k (.held id estimate)⟩
  | .answer k admits =>
    match w.phases.lookup k with
    | some (.held id estimate) =>
      if admits then
        if policy.consistency = .none then { w with phases := w.phases.erase k }
        else { w with phases := w.phases.insert k (.opening id estimate) }
      else { w with phases := w.phases.insert k (.undoing id estimate) }
    | _ => w
  | .reconcile k id actual =>
    if (w.phases.lookup k).isSome then w
    else
      match w.enforcer.manager.reconcile policy.id id actual with
      | (.error _, manager) => { w with enforcer := { w.enforcer with manager } }
      | (.ok (), manager) => ⟨{ w.enforcer with manager }, w.phases.insert k .looking⟩
  | .release k id =>
    if (w.phases.lookup k).isSome then w
    else
      ⟨{ w.enforcer with manager := w.enforcer.manager.release policy.id id },
        w.phases.insert k .looking⟩
  | .next k =>
    match w.phases.lookup k with
    | none => w
    | some ph => w.advance policy k ph
  | .sweep now => { w with enforcer := { w.enforcer with manager := w.enforcer.manager.sweep now } }

/-- The manager's total for the policy. -/
def Requests.total (policy : Policy) (w : Requests σ) : Int :=
  (w.enforcer.usage policy.id).1 + (w.enforcer.usage policy.id).2

/-- Reservations come with ids the policy's ledger does not have. -/
def FreshId (policy : Policy) (w : Requests σ) : RequestAct → Prop
  | .reserve _ id _ _ => (w.enforcer.manager.ledgerOf policy).reservations.lookup id = none
  | _ => True

instance (policy : Policy) (w : Requests σ) : (a : RequestAct) → Decidable (FreshId policy w a)
  | .reserve .. => inferInstanceAs (Decidable (_ = none))
  | .answer .. | .reconcile .. | .release .. | .next _ | .sweep _ => isTrue trivial

/-- No reservation is between its manager step and its slice step. -/
def Requests.Landed (w : Requests σ) : Prop := ∀ e ∈ w.phases.entries, e.2.inFlight = none
  deriving Decidable

/-- A settlement is of a reservation that is not on its way any more, and the slice is
overwritten with a total that is still the total, while nothing is on its way. -/
def Undisturbed (policy : Policy) (w : Requests σ) : RequestAct → Prop
  | .reconcile _ id _ | .release _ id =>
    ∀ e ∈ w.phases.entries, e.2.inFlight.map Prod.fst ≠ some id
  | .next k => ∀ total ∈ (w.phases.lookup k).bind Phase.carried, total = w.total policy ∧ w.Landed
  | _ => True

instance (policy : Policy) (w : Requests σ) : (a : RequestAct) → Decidable (Undisturbed policy w a)
  | .reconcile .. | .release .. => inferInstanceAs (Decidable (∀ _ ∈ _, _ ≠ _))
  | .next _ => inferInstanceAs (Decidable (∀ _ ∈ _, _ ∧ _))
  | .reserve .. | .answer .. | .sweep _ => isTrue trivial

/-! ### Books in step -/

/-- No settlement is under way. -/
def Settled (phases : Assoc Nat Phase) : Prop :=
  ∀ k ph, phases.lookup k = some ph → ph.inFlight ≠ none

/-- What ties the policy's ledger, its slice counter and the requests under way together. -/
structure InStep (ledger : Window) (counter : Option SliceCounter) (phases : Assoc Nat Phase) :
    Prop where
  /-- What is on its way is open in the ledger. -/
  held : ∀ k ph id estimate, phases.lookup k = some ph → ph.inFlight = some (id, estimate) →
    ledger.reservations.lookup id = some ⟨estimate, false⟩
  distinct : ∀ k k' ph ph' id estimate estimate', phases.lookup k = some ph →
    phases.lookup k' = some ph' → ph.inFlight = some (id, estimate) →
    ph'.inFlight = some (id, estimate') → k = k'
  /-- As long as the slice has no counter, all that is open is on its way. -/
  unopened : counter = none → ∀ id estimate,
    ledger.reservations.lookup id = some ⟨estimate, false⟩ →
    ∃ k ph, phases.lookup k = some ph ∧ ph.inFlight = some (id, estimate)
  /-- The slice and what is on its way to it make the total, unless a settlement is under way. -/
  balanced : counter = none ∨ Settled phases →
    (counter.map SliceCounter.used).getD 0 + ((phases.sum Phase.amount : Int) : ℚ)
      = ((ledger.reserved + ledger.consumed : Int) : ℚ)

section

variable {ledger : Window} {counter : Option SliceCounter} {phases : Assoc Nat Phase} {k : Nat}
  {ph : Phase} {id : String} {estimate : Int} {c : SliceCounter}

theorem inStep_new (start : Int) : InStep (.open start) none .empty where
  held k ph id estimate h := nomatch h
  distinct k k' ph ph' id estimate estimate' h := nomatch h
  unopened _ id estimate h := nomatch h
  balanced _ := by simp [Window.open, sum, empty]

theorem InStep.prune (h : InStep ledger counter phases) {ledger' : Window}
    (hp : Pruned ledger ledger') : InStep ledger' counter phases where
  held k ph id estimate hk hf := (hp.same id estimate).mpr (h.held k ph id estimate hk hf)
  distinct := h.distinct
  unopened hc id estimate hid := h.unopened hc id estimate ((hp.same id estimate).mp hid)
  balanced hc := by rw [hp.reserved, hp.consumed, h.balanced hc]

theorem Phase.amount_of_inFlight (h : ph.inFlight = some (id, estimate)) :
    ph.amount = estimate := by
  rw [Phase.amount, h]
  rfl

theorem Phase.amount_of_none (h : ph.inFlight = none) : ph.amount = 0 := by
  rw [Phase.amount, h]
  rfl

/-- What every request that ends leaves of the others. -/
theorem settled_of_erase (hs : Settled (phases.erase k)) (hk : phases.lookup k = some ph)
    (hf : ph.inFlight ≠ none) : Settled phases := by
  intro j q hq
  by_cases hj : j = k
  · grind
  · exact hs j q (by rwa [lookup_erase_ne hj])

section

variable (h : InStep ledger counter phases)

include h

theorem InStep.move (hk : phases.lookup k = some ph) {ph' : Phase}
    (hf : ph'.inFlight = ph.inFlight) :
    InStep ledger counter (phases.insert k ph') where
  held := by grind [h.held]
  distinct := by grind [h.distinct]
  unopened hc id e hid := by
    obtain ⟨j, q, hq, hfl⟩ := h.unopened hc id e hid
    by_cases hj : j = k
    · exact ⟨j, ph', by grind, by grind⟩
    · exact ⟨j, q, by grind, hfl⟩
  balanced hc := by
    rw [sum_insert, show ph'.amount = ph.amount by rw [Phase.amount, Phase.amount, hf],
      sum_erase_some _ hk]
    refine h.balanced (hc.imp_right fun hs j q hq => ?_)
    by_cases hj : j = k
    · have := hs k ph' lookup_insert_self
      grind
    · exact hs j q (by rwa [lookup_insert_ne hj])

/-- A reservation is held in the ledger and on its way to the slice. -/
theorem InStep.hold (hk : phases.lookup k = none) (hid : ledger.reservations.lookup id = none)
    (estimate : Int) :
    InStep (ledger.hold id estimate) counter (phases.insert k (.held id estimate)) where
  held := by grind [h.held, Window.hold, Phase.inFlight]
  distinct := by
    have ho : ∀ j q e, phases.lookup j = some q → q.inFlight ≠ some (id, e) :=
      fun j q e hq hfl => by simpa [hid] using h.held j q id e hq hfl
    grind [h.distinct, Phase.inFlight]
  unopened hc id' e' hi := by
    rcases lookup_insert_some hi with ⟨rfl, heq⟩ | ⟨-, hi⟩
    · cases heq
      exact ⟨k, _, lookup_insert_self, rfl⟩
    · obtain ⟨j, q, hq, hfl⟩ := h.unopened hc id' e' hi
      exact ⟨j, q, by grind, hfl⟩
  balanced hc := by
    have hb := h.balanced (hc.imp_right fun hs j q hq => hs j q (by grind))
    rw [sum_insert, sum_erase_none _ hk]
    show _ = ((ledger.reserved + estimate + ledger.consumed : Int) : ℚ)
    show _ + ((phases.sum Phase.amount + estimate : Int) : ℚ) = _
    push_cast at hb ⊢
    linarith

theorem InStep.land (hk : phases.lookup k = some ph) (hf : ph.inFlight = some (id, estimate))
    (hc : c.used = (counter.map SliceCounter.used).getD 0 + estimate) :
    InStep ledger (some c) (phases.erase k) where
  held := by grind [h.held]
  distinct := by grind [h.distinct]
  unopened hn := nomatch hn
  balanced hset := by
    have hb := h.balanced
      (Or.inr (settled_of_erase (hset.resolve_left (by simp)) hk (by simp [hf])))
    rw [← sum_erase_some _ hk, Phase.amount_of_inFlight hf] at hb
    show c.used + _ = _
    rw [hc]
    push_cast at hb ⊢
    linarith

/-- The slice gets its counter from a reservation that it refuses. -/
theorem InStep.openCounter (hc : c.used = (counter.map SliceCounter.used).getD 0) :
    InStep ledger (some c) phases where
  held := h.held
  distinct := h.distinct
  unopened hn := nomatch hn
  balanced hset := by
    show c.used + _ = _
    rw [hc]
    exact h.balanced (Or.inr (hset.resolve_left (by simp)))

/-- A reservation that is refused is taken out of the ledger. -/
theorem InStep.undo (hk : phases.lookup k = some ph) (hf : ph.inFlight = some (id, estimate)) :
    InStep (ledger.close id ⟨estimate, false⟩ 0) counter (phases.erase k) where
  held := by grind [h.held, h.distinct, Window.close]
  distinct := by grind [h.distinct]
  unopened hc id' e' hi := by
    rcases lookup_insert_some hi with ⟨-, heq⟩ | ⟨hne, hi⟩
    · cases heq
    · obtain ⟨j, q, hq, hfl⟩ := h.unopened hc id' e' hi
      exact ⟨j, q, by grind, hfl⟩
  balanced hset := by
    have hb := h.balanced (hset.imp_right fun hs => settled_of_erase hs hk (by simp [hf]))
    rw [← sum_erase_some _ hk, Phase.amount_of_inFlight hf] at hb
    show _ = ((ledger.reserved - estimate + (ledger.consumed + 0) : Int) : ℚ)
    push_cast at hb ⊢
    linarith

theorem InStep.begin (hk : phases.lookup k = none) :
    InStep ledger counter (phases.insert k .looking) where
  held := by grind [h.held, Phase.inFlight]
  distinct := by grind [h.distinct, Phase.inFlight]
  unopened hc id' e' hi := by
    obtain ⟨j, q, hq, hfl⟩ := h.unopened hc id' e' hi
    exact ⟨j, q, by grind, hfl⟩
  balanced hset := by
    have hc : counter = none := hset.resolve_right fun hs =>
      hs k .looking lookup_insert_self rfl
    rw [sum_insert, sum_erase_none _ hk, Phase.amount_of_none rfl, add_zero]
    exact h.balanced (Or.inl hc)

/-- The ledger closes a reservation that has landed, while a settlement is under way.  Since it
has landed, the slice has its counter. -/
theorem InStep.close (hid : ledger.reservations.lookup id = some ⟨estimate, false⟩)
    (ho : ∀ j q e, phases.lookup j = some q → q.inFlight ≠ some (id, e)) (actual : Int)
    (hk : phases.lookup k = some .looking) :
    InStep (ledger.close id ⟨estimate, false⟩ actual) counter phases := by
  have hco : counter ≠ none := by
    intro hc
    obtain ⟨j, q, hq, hfl⟩ := h.unopened hc id estimate hid
    exact ho j q estimate hq hfl
  constructor
  case held => grind [h.held, Window.close]
  case distinct => exact h.distinct
  case unopened => exact fun hc => absurd hc hco
  case balanced => exact fun hset => absurd rfl (hset.resolve_left hco k .looking hk)

end

theorem InStep.quit (h : InStep ledger none phases) (hk : phases.lookup k = some ph)
    (hf : ph.inFlight = none) : InStep ledger none (phases.erase k) where
  held := by grind [h.held]
  distinct := by grind [h.distinct]
  unopened hc id' e' hi := by
    obtain ⟨j, q, hq, hfl⟩ := h.unopened hc id' e' hi
    exact ⟨j, q, by grind, hfl⟩
  balanced _ := by
    have hb := h.balanced (Or.inl rfl)
    rwa [← sum_erase_some _ hk, Phase.amount_of_none hf, add_zero] at hb

/-- A settlement overwrites the slice with the total, and nothing is on its way. -/
theorem InStep.overwrite (hl : ∀ j q, phases.lookup j = some q → q.inFlight = none)
    (hc : c.used = ((ledger.reserved + ledger.consumed : Int) : ℚ)) :
    InStep ledger (some c) (phases.erase k) where
  held := by grind
  distinct := by grind
  unopened hn := nomatch hn
  balanced _ := by
    have hs : (phases.erase k).sum Phase.amount = 0 := sum_eq_zero _ fun j q hq =>
      Phase.amount_of_none (hl j q (lookup_erase_some hq).2)
    show c.used + _ = _
    rw [hc, hs]
    simp

end

/-! ### The slice counter -/

variable (e : BudgetEnforcer σ)

def BudgetEnforcer.counter (policyID : String) : Option SliceCounter :=
  (e.slices.lookup policyID).bind fun entry => entry.authority.slices.lookup sliceRegion

theorem sliceUsed_eq (pid : String) :
    e.sliceUsed pid = ((e.counter pid).map SliceCounter.used).getD 0 := by
  unfold BudgetEnforcer.sliceUsed BudgetEnforcer.counter used state
  cases e.slices.lookup pid with
  | none => rfl
  | some entry =>
    simp only [map_some, getD_some, bind_some, map_map]
    rfl

variable {a a' : SliceAuthority} {region : String} {amount strict overshoot : ℚ}
  {e : BudgetEnforcer σ} {entry : SliceEntry} {pid : String}

/-- A slice that is asked has a counter, and what it admits is added to it. -/
theorem SliceAuthority.admit_used (a : SliceAuthority) (region : String)
    (amount strict overshoot : ℚ) :
    ∃ c, ( a.admit region amount strict overshoot).2.slices.lookup region = some c ∧
      c.used = ((a.slices.lookup region).map SliceCounter.used).getD 0
        + if ( a.admit region amount strict overshoot).1.isOk then amount else 0 := by
  have hu : (a.counter region strict).used
      = ((a.slices.lookup region).map SliceCounter.used).getD 0 := by
    unfold counter
    cases a.slices.lookup region <;> rfl
  by_cases ho : (a.counter region strict).used +
    amount > a.bound (a.counter region strict) overshoot
  · simp only [if_pos ho, SliceAuthority.admit]
    exact ⟨_, lookup_insert_self, hu.trans (add_zero _).symm⟩
  · simp only [if_neg ho, SliceAuthority.admit]
    exact ⟨_, lookup_insert_self, congrArg (· + amount) hu⟩

theorem counter_of_lookup (h : e.slices.lookup pid = some entry) :
    e.counter pid = entry.authority.slices.lookup sliceRegion := by
  rw [BudgetEnforcer.counter, h]
  rfl

theorem counter_of_none (h : e.slices.lookup pid = none) : e.counter pid = none := by
  rw [BudgetEnforcer.counter, h]
  rfl

/-! ### Every step keeps the books in step -/

variable {policy : Policy} {w : Requests σ} {k : Nat} {id : String} {estimate : Int}

structure Requests.Ok (policy : Policy) (w : Requests σ) : Prop where
  manager : w.enforcer.manager.OneWindow policy
  slices : ∀ entry, w.enforcer.slices.lookup policy.id = some entry →
    entry.windowStart = policy.windowStart
  books : InStep (w.enforcer.manager.ledgerOf policy) (w.enforcer.counter policy.id) w.phases

theorem ok_reserve (h : w.Ok policy) (hk : w.phases.lookup k = none)
    (hid : (w.enforcer.manager.ledgerOf policy).reservations.lookup id = none)
    (estimate now : Int) :
    (w.step policy (.reserve k id estimate now)).Ok policy := by
  obtain ⟨tenants, ht⟩ := recordTenant_eq w.enforcer policy.id policy.tenantID
  have ho := h.manager.reserve id estimate now
  simp only [Requests.step, hk, isSome_none, Bool.false_eq_true, if_false, ht]
  by_cases ha : policy.admissible id estimate now = true
  · by_cases hta : w.enforcer.manager.takes policy id estimate now = true
    · obtain ⟨r, m', v, hr, hp, hv⟩ := reserve_taken hid hta
      rw [hr] at ho
      simp only [hr]
      refine ⟨ho, h.slices, ?_⟩
      show InStep (m'.ledgerOf policy) _ _
      rw [ledgerOf_of_lookup hv (ho.ledger _ hv)]
      exact (h.books.prune hp).hold hk (hp.unknown id hid) estimate
    · obtain ⟨m', v, hr, hp, hv⟩ := reserve_refused ha hid (Bool.eq_false_iff.mpr hta)
      rw [hr] at ho
      simp only [hr]
      refine ⟨ho, h.slices, ?_⟩
      show InStep (m'.ledgerOf policy) _ _
      rw [ledgerOf_of_lookup hv (ho.ledger _ hv)]
      exact h.books.prune hp
  · simp only [reserve_inadmissible (Bool.eq_false_iff.mpr ha)]
    exact ⟨h.manager, h.slices, h.books⟩

theorem ok_settle (h : w.Ok policy) (hk : w.phases.lookup k = none)
    (hou : ∀ j q e, w.phases.lookup j = some q → q.inFlight ≠ some (id, e)) (actual : Int) :
    Requests.Ok policy
      ⟨{ w.enforcer with manager := w.enforcer.manager.settle policy.id id actual },
        w.phases.insert k .looking⟩ := by
  unfold Manager.settle
  rcases h.manager.ledgerFor_cases id with hn | ⟨⟨estimate, final⟩, hid, hw, hso⟩
  · rw [hn]
    exact ⟨h.manager, h.slices, h.books.begin hk⟩
  · rw [hso]
    cases final with
    | true => exact ⟨h.manager, h.slices, h.books.begin hk⟩
    | false =>
      have ho : ∀ j q e, (w.phases.insert k .looking).lookup j = some q →
          q.inFlight ≠ some (id, e) := by
        intro j q e hq
        rcases lookup_insert_some hq with ⟨rfl, rfl⟩ | ⟨-, hq⟩
        · exact fun hc => nomatch hc
        · exact hou j q e hq
      have hs : ((w.enforcer.manager.ledgerOf policy).close id ⟨estimate, false⟩ actual).start
          = policy.windowStart := ledgerOf_start _ _
      refine ⟨h.manager.put hs, h.slices, ?_⟩
      show InStep (Manager.ledgerOf { w.enforcer.manager with windows := _ } policy) _ _
      rw [ledgerOf_put hs]
      exact (h.books.begin hk).close hid ho actual lookup_insert_self

theorem manager_setAuthority :
    (e.setAuthority pid a).manager = e.manager := by
  unfold BudgetEnforcer.setAuthority
  split <;> rfl

section

variable (h : w.Ok policy)

include h

/-- The slice's authority is changed, and the books with it. -/
theorem Requests.Ok.setAuthority (he : w.enforcer.slices.lookup policy.id = some entry)
    {phases : Assoc Nat Phase}
    (hb : InStep (w.enforcer.manager.ledgerOf policy) (a.slices.lookup sliceRegion) phases) :
    Requests.Ok policy ⟨w.enforcer.setAuthority policy.id a, phases⟩ := by
  refine ⟨?_, ?_, ?_⟩
  · show (w.enforcer.setAuthority policy.id a).manager.OneWindow policy
    rw [manager_setAuthority]
    exact h.manager
  · intro entry' hen
    simp only [BudgetEnforcer.setAuthority, he, lookup_insert_self, Option.some.injEq] at hen
    rw [← hen]
    exact h.slices entry he
  · show InStep ((w.enforcer.setAuthority policy.id a).manager.ledgerOf policy)
      ((w.enforcer.setAuthority policy.id a).counter policy.id) phases
    rw [manager_setAuthority]
    simpa [BudgetEnforcer.setAuthority, BudgetEnforcer.counter, he] using hb

theorem ok_opening (hk : w.phases.lookup k = some (.opening id estimate)) :
    (w.advance policy k (.opening id estimate)).Ok policy := by
  have hb := h.books.move hk (show Phase.inFlight (.admitting id estimate) = _ from rfl)
  unfold Requests.advance BudgetEnforcer.authorityFor
  cases hen : w.enforcer.slices.lookup policy.id with
  | none =>
    -- a new authority has no counter yet, as none was there before
    rw [counter_of_none hen] at hb
    refine ⟨h.manager, ?_, ?_⟩
    · intro entry he
      rw [lookup_insert_self, Option.some.injEq] at he
      rw [← he]
    · simpa [BudgetEnforcer.counter, forMode, new] using hb
  | some entry =>
    simp only [if_pos (h.slices entry hen)]
    exact ⟨h.manager, h.slices, hb⟩

theorem ok_admitting (hk : w.phases.lookup k = some (.admitting id estimate)) :
    (w.advance policy k (.admitting id estimate)).Ok policy := by
  cases he : w.enforcer.slices.lookup policy.id with
  | none =>
    simp only [Requests.advance, he]
    exact h
  | some entry =>
    have hb := h.books
    rw [counter_of_lookup he] at hb
    obtain ⟨c, hc, hu⟩ := entry.authority.admit_used sliceRegion estimate policy.tokenLimit
      policy.overshoot
    simp only [Requests.advance, he]
    split
    · rename_i ha
      rw [ha] at hc hu
      refine h.setAuthority he ?_
      rw [hc]
      exact hb.land hk rfl hu
    · rename_i ha
      rw [ha] at hc hu
      refine h.setAuthority he ?_
      rw [hc]
      exact (hb.openCounter (hu.trans (add_zero _))).move hk rfl

theorem ok_undoing (hk : w.phases.lookup k = some (.undoing id estimate)) :
    (w.advance policy k (.undoing id estimate)).Ok policy := by
  have hid := h.books.held k _ id estimate hk rfl
  have hs : ((w.enforcer.manager.ledgerOf policy).close id ⟨estimate, false⟩ 0).start
      = policy.windowStart := ledgerOf_start _ _
  simp only [Requests.advance, release_current (lookup_of_ledgerOf hid) hid]
  refine ⟨h.manager.put hs, h.slices, ?_⟩
  show InStep (Manager.ledgerOf { w.enforcer.manager with windows := _ } policy) _ _
  rw [ledgerOf_put hs]
  exact h.books.undo hk rfl

theorem Requests.Ok.quit (hc : w.enforcer.counter policy.id = none) {ph : Phase}
    (hk : w.phases.lookup k = some ph) (hf : ph.inFlight = none) :
    Requests.Ok policy { w with phases := w.phases.erase k } := by
  have hb := h.books
  rw [hc] at hb
  refine ⟨h.manager, h.slices, ?_⟩
  show InStep _ (w.enforcer.counter policy.id) _
  rw [hc]
  exact hb.quit hk hf

theorem ok_looking (hk : w.phases.lookup k = some .looking) :
    (w.advance policy k .looking).Ok policy := by
  cases he : w.enforcer.slices.lookup policy.id with
  | none =>
    simp only [Requests.advance, he]
    exact h.quit (counter_of_none he) hk rfl
  | some entry =>
    simp only [Requests.advance, he]
    exact ⟨h.manager, h.slices, h.books.move hk rfl⟩

theorem ok_writing {total : Int} (hk : w.phases.lookup k = some (.writing total))
    (ht : total = w.total policy) (hl : w.Landed) :
    (w.advance policy k (.writing total)).Ok policy := by
  have hb := h.books
  cases he : w.enforcer.slices.lookup policy.id with
  | none =>
    simp only [Requests.advance, he]
    exact h.quit (counter_of_none he) hk rfl
  | some entry =>
    rw [counter_of_lookup he] at hb
    simp only [Requests.advance, he]
    refine h.setAuthority he ?_
    unfold reconcile
    cases hs : entry.authority.slices.lookup sliceRegion with
    | none =>
      rw [hs] at hb ⊢
      exact hb.quit hk rfl
    | some slice =>
      dsimp only
      rw [lookup_insert_self]
      refine .overwrite (fun j q hq => hl _ (mem_of_lookup hq)) ?_
      show (total : ℚ) = _
      rw [ht, Requests.total, BudgetEnforcer.usage, h.manager.usage_eq]

theorem ok_advance {ph : Phase} (hk : w.phases.lookup k = some ph)
    (hu : Undisturbed policy w (.next k)) : (w.advance policy k ph).Ok policy := by
  cases ph with
  | held id estimate => exact h
  | opening id estimate => exact ok_opening h hk
  | admitting id estimate => exact ok_admitting h hk
  | undoing id estimate => exact ok_undoing h hk
  | looking => exact ok_looking h hk
  | reading => exact ⟨h.manager, h.slices, h.books.move hk rfl⟩
  | writing total =>
    have hc := hu total (by rw [hk]; rfl)
    exact ok_writing h hk hc.1 hc.2

theorem ok_answer (hc : policy.consistency ≠ .none) (k : Nat) (admits : Bool) :
    (w.step policy (.answer k admits)).Ok policy := by
  unfold Requests.step
  dsimp only
  split
  · rename_i id estimate hk
    cases admits with
    | true =>
      simp only [if_true, if_neg hc]
      exact ⟨h.manager, h.slices, h.books.move hk rfl⟩
    | false => exact ⟨h.manager, h.slices, h.books.move hk rfl⟩
  · exact h

theorem ok_sweep (now : Int) : (w.step policy (.sweep now)).Ok policy := by
  have hr : ({ w.enforcer.manager with lastSweep := 0 } : Manager).OneWindow policy :=
    ⟨h.manager.ledger, h.manager.retired⟩
  exact ⟨hr.sweepLocked now, h.slices,
    h.books.prune (pruned_ledgerOf_sweepLocked
      { w.enforcer.manager with lastSweep := 0 } policy now)⟩

end

theorem landed_id (h : ∀ e ∈ w.phases.entries, e.2.inFlight.map Prod.fst ≠ some id) :
    ∀ j q e, w.phases.lookup j = some q → q.inFlight ≠ some (id, e) := by
  intro j q e hq hc
  refine h _ (mem_of_lookup hq) ?_
  rw [hc]
  rfl

theorem ok_step (hc : policy.consistency ≠ .none) (h : w.Ok policy) {a : RequestAct}
    (hf : FreshId policy w a) (hu : Undisturbed policy w a) : (w.step policy a).Ok policy := by
  cases a with
  | reserve k id estimate now =>
    cases hk : w.phases.lookup k with
    | none => exact ok_reserve h hk hf estimate now
    | some ph =>
      simp only [Requests.step, hk, isSome_some, if_true]
      exact h
  | answer k admits => exact ok_answer h hc k admits
  | reconcile k id actual =>
    cases hk : w.phases.lookup k with
    | none =>
      have hset := ok_settle h hk (landed_id hu) actual
      simp only [Requests.step, hk, isSome_none, Bool.false_eq_true, if_false,
        Manager.reconcile]
      by_cases hn : actual < 0
      · simp only [if_pos hn]
        exact h
      · simp only [if_neg hn]
        cases hfo : w.enforcer.manager.ledgerFor policy.id id with
        | none => exact h
        | some found => exact hset
    | some ph =>
      simp only [Requests.step, hk, isSome_some, if_true]
      exact h
  | release k id =>
    cases hk : w.phases.lookup k with
    | none =>
      simp only [Requests.step, hk, isSome_none, Bool.false_eq_true, if_false]
      exact ok_settle h hk (landed_id hu) 0
    | some ph =>
      simp only [Requests.step, hk, isSome_some, if_true]
      exact h
  | next k =>
    cases hk : w.phases.lookup k with
    | none =>
      simp only [Requests.step, hk]
      exact h
    | some ph =>
      simp only [Requests.step, hk]
      exact ok_advance h hk hu
  | sweep now => exact ok_sweep h now

/-! ### Whole runs -/

def Requests.new (ledger : Option σ) (now : Int) : Requests σ :=
  ⟨⟨.new now, ledger, [], .empty, .empty⟩, .empty⟩

theorem ok_new (ledger : Option σ) (now : Int) :
    (Requests.new ledger now).Ok policy where
  manager := ⟨fun _ hw => (nomatch hw), rfl⟩
  slices _ h := nomatch h
  books := inStep_new policy.windowStart

/-- **Slices.** In every run of interleaved requests on a policy with a consistency mode, with
fresh ids and undisturbed settlements, the slice's use is the manager's total whenever no request
is under way. -/
theorem slice_follows_manager (policy : Policy) (hcons : policy.consistency ≠ .none)
    (ledger : Option σ) (now : Int) (acts : List RequestAct)
    (hfresh : Allowed (Requests.step policy) (FreshId policy) (Requests.new ledger now) acts)
    (hund : Allowed (Requests.step policy) (Undisturbed policy) (Requests.new ledger now) acts)
    (hidle : (run (Requests.step policy) (Requests.new ledger now) acts).phases.entries = []) :
    (run (Requests.step policy) (Requests.new ledger now) acts).enforcer.sliceUsed policy.id
      = ((run (Requests.step policy) (Requests.new ledger now) acts).total policy : ℚ) := by
  have hok := Allowed.invariant (I := fun w => w.Ok policy)
    (fun w a h hc => ok_step hcons h hc.1 hc.2) acts _ (ok_new ledger now)
    (allowed_and.mpr ⟨hfresh, hund⟩)
  generalize run (Requests.step policy) (Requests.new ledger now) acts = w at hidle hok ⊢
  have hn : ∀ k, w.phases.lookup k = none := fun k => by simp [lookup, hidle]
  have hb := hok.books.balanced (Or.inr fun k ph hk => by rw [hn] at hk; cases hk)
  rw [show w.phases.sum Phase.amount = 0 by simp [sum, hidle], Int.cast_zero, add_zero] at hb
  rw [sliceUsed_eq, hb, Requests.total, BudgetEnforcer.usage, hok.manager.usage_eq]

/-! ### A reservation between a settlement's read and its overwrite -/

def softPolicy : Policy :=
  ⟨"p", "t", "", "", .hard, .globalSoft, 100, 0, 3600 * 1000000000⟩

/-- A reservation of ten tokens from its first step to its last. -/
def reserveTen (k : Nat) (id : String) : List RequestAct :=
  [.reserve k id 10 0, .answer k true, .next k, .next k]

/-- The settlement of `a` reads a total of five; `b` is reserved before it is written. -/
def staleRun : List RequestAct :=
  reserveTen 0 "a" ++ [.reconcile 0 "a" 5, .next 0, .next 0] ++ reserveTen 1 "b" ++ [.next 0]

/-- All requests are done; the slice says five and the manager fifteen. -/
theorem stale_total_overwrites_slice :
    Allowed (Requests.step softPolicy) (FreshId softPolicy)
        (Requests.new (none : Option MemoryBudgetLedger) 0) staleRun ∧
      (run (Requests.step softPolicy)
        (Requests.new (none : Option MemoryBudgetLedger) 0) staleRun).phases.entries = [] ∧
      (run (Requests.step softPolicy)
        (Requests.new (none : Option MemoryBudgetLedger) 0) staleRun).enforcer.sliceUsed "p" = 5 ∧
      (run (Requests.step softPolicy)
        (Requests.new (none : Option MemoryBudgetLedger) 0) staleRun).total softPolicy = 15 := by
  refine ⟨?_, ?_, ?_, ?_⟩ <;> decide +kernel

theorem slice_follows_manager_in_turn :
    (run (Requests.step softPolicy) (Requests.new (none : Option MemoryBudgetLedger) 0)
        (reserveTen 0 "a" ++ [.reconcile 0 "a" 5, .next 0, .next 0, .next 0]
          ++ reserveTen 1 "b")).enforcer.sliceUsed "p" = (15 : ℚ) := by
  refine (slice_follows_manager softPolicy
    (by decide) none 0 _ ?_ ?_ ?_).trans ?_ <;> decide +kernel

end LiteAIG.Budget
