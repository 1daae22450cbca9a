/-
What a run settles.

A run reserves once for the request and once for each call on the gateway's own
account, and the deferred stage settles the first of these.  The pieces are stated
here one by one: what the finalizer does with a reservation, what a call of the
gateway leaves behind, and how a run goes in which the executor answered.  Two
questions are asked about that afterwards, how far the consumed total grows and with
what a stream is settled.
-/
import LiteAIG.Pipeline.Run
import LiteAIG.Proofs.Budget.Calls

namespace LiteAIG.Pipeline

open Lib Budget Guardrail Ledger Rate Facts List

/-! ### The log -/

/-- The executor answered. -/
def Entry.isAnswer : Entry → Bool
  | .executed _ | .streamed _ => true
  | .recorded _ | .settled _ _ | .metered _ _ => false

variable (id : String) {es : List Entry}

/-- What another reservation than `id` was reconciled with. -/
def Entry.elsewhere : Entry → Option Int
  | .settled x actual => if x = id then none else some actual
  | .executed _ | .streamed _ | .recorded _ | .metered _ _ => none

/-- What the reservations other than `id` were reconciled with. -/
def tokensElsewhere (log : List Entry) : Int :=
  (log.filterMap (Entry.elsewhere id)).sum

/-- An entry of a call with the reservation `x`. -/
def Entry.Concerns (x : String) : Entry → Prop
  | .recorded _ => True
  | .settled y _ => y = x
  | .executed _ | .streamed _ | .metered _ _ => False

theorem tokensElsewhere_append (log entries : List Entry) :
    tokensElsewhere id (log ++ entries) = tokensElsewhere id log + tokensElsewhere id entries := by
  simp [tokensElsewhere]

theorem tokensElsewhere_self {id : String}
    (h : ∀ entry ∈ es, entry.Concerns id) : tokensElsewhere id es = 0 := by
  have hn : es.filterMap (Entry.elsewhere id) = [] := by
    rw [filterMap_eq_nil_iff]
    intro entry he
    have hc := h entry he
    cases entry with
    | settled y actual => exact if_pos hc
    | executed _ | streamed _ | recorded _ | metered _ _ => rfl
  rw [tokensElsewhere, hn]
  rfl

theorem filter_isAnswer {x : String}
    (h : ∀ entry ∈ es, entry.Concerns x) : es.filter Entry.isAnswer = [] := by
  rw [filter_eq_nil_iff]
  intro entry he
  have hc := h entry he
  cases entry with
  | executed _ | streamed _ => cases hc
  | settled _ _ | recorded _ | metered _ _ => simp [Entry.isAnswer]

variable {σ τ : Type} [BudgetLedger σ]

/-! ### The finalizer -/

/-- What the finalizer reconciles the reservation with, if it comes to that. -/
def Facts.charge (refusal : Option Failure) (facts : Facts) : Option Int :=
  match refusal, facts.actualTokens with
  | none, some actual => if 0 ≤ actual then some actual else none
  | _, _ => none

/-- What the finalizer writes. -/
def Facts.entries (refusal : Option Failure) (facts : Facts) : List Entry :=
  if refusal.isNone then
    .recorded facts :: (facts.charge refusal).toList.map (.settled facts.reservationID)
  else []

theorem concerns_entries (refusal : Option Failure) (facts : Facts) :
    ∀ entry ∈ facts.entries refusal, entry.Concerns facts.reservationID := by
  intro entry he
  unfold entries at he
  split at he
  · rcases mem_cons.mp he with rfl | hm
    · exact trivial
    · obtain ⟨actual, -, rfl⟩ := mem_map.mp hm
      exact rfl
  · cases he

variable {refusal : Option Failure} {facts : Facts}

theorem tokensElsewhere_entries {id : String} (hne : facts.reservationID ≠ id) :
    tokensElsewhere id (facts.entries refusal) = (facts.charge refusal).getD 0 := by
  cases refusal with
  | some err => rfl
  | none =>
    cases hc : facts.charge none with
    | none => simp [tokensElsewhere, entries, hc, Entry.elsewhere, filterMap_cons]
    | some actual =>
      simp [tokensElsewhere, entries, hc, Entry.elsewhere, filterMap_cons, hne]

variable {g : Gateway σ τ} {r : ReservationState}

theorem release_of_reserved {pid id : String} (hid : id ≠ "") :
    g.release pid id = { g with budget := g.budget.release pid id } := if_neg hid

/-- The finalizer settles a reservation that is found for what it charges, writes so, and fails
only when the repository does or the tokens are negative. -/
theorem finalizer_found (hid : facts.reservationID ≠ "")
    (hf : g.budget.manager.reservation facts.budgetPolicyID facts.reservationID = some r) :
    (g.finalizer refusal facts).2.budget.manager =
        g.budget.manager.settle facts.budgetPolicyID facts.reservationID
          ((facts.charge refusal).getD 0) ∧
      (g.finalizer refusal facts).2.log = g.log ++ facts.entries refusal ∧
      ((g.finalizer refusal facts).1 = none ↔
        refusal = none ∧ ∀ actual, facts.actualTokens = some actual → 0 ≤ actual) := by
  unfold Gateway.finalizer
  cases refusal with
  | some err =>
    dsimp only
    rw [release_of_reserved hid]
    exact ⟨manager_release .., by simp [entries], by simp⟩
  | none =>
    dsimp only
    rw [if_neg hid]
    cases ha : facts.actualTokens with
    | none =>
      dsimp only
      rw [release_of_reserved hid]
      refine ⟨?_, by simp [entries, charge, ha, Gateway.write], by simp⟩
      rw [manager_release]
      simp only [charge, ha]
      rfl
    | some actual =>
      dsimp only
      obtain ⟨hr, hm⟩ := manager_reconcile (g.write (.recorded facts)).budget
        facts.budgetPolicyID facts.reservationID actual
      generalize BudgetEnforcer.reconcile (g.write (.recorded facts)).budget facts.budgetPolicyID
        facts.reservationID actual = settled at hr hm ⊢
      obtain ⟨result, budget⟩ := settled
      dsimp only at hr hm ⊢
      rcases lt_or_ge actual 0 with hn | hp
      · rw [reconcile_negative hn] at hr hm
        subst hr
        dsimp only at hm ⊢
        rw [release_of_reserved hid]
        refine ⟨?_, ?_, by simp [hn]⟩
        · rw [manager_release, hm]
          simp only [charge, ha, if_neg hn.not_ge]
          rfl
        · simp [entries, charge, ha, hn.not_ge, Gateway.write]
      · have hre := reconcile_found (m := g.budget.manager) hf hp
        rw [show (g.write (.recorded facts)).budget.manager = g.budget.manager from rfl, hre]
          at hr hm
        subst hr
        refine ⟨?_, ?_, by simp [hp]⟩
        · simpa [charge, ha, hp, Gateway.write] using hm
        · simp [entries, charge, ha, hp, Gateway.write]

theorem mem_entries {tokens : Int} :
    .settled facts.reservationID tokens ∈ facts.entries refusal ↔
      facts.charge refusal = some tokens := by
  cases refusal with
  | some err => simp [entries, charge]
  | none => simp [entries]

/-- What the record of a request charges when it can be written. -/
def UsageFacts.charge (facts : UsageFacts) (refusal : Option Failure) : Option Int :=
  if refusal = none ∧ facts.settle ∧ 0 ≤ facts.inputTokens + facts.outputTokens then
    some (facts.inputTokens + facts.outputTokens)
  else none

theorem charge_eq_some {facts : UsageFacts} {tokens : Int} :
    facts.charge refusal = some tokens ↔
      refusal = none ∧ facts.settle ∧ 0 ≤ facts.inputTokens + facts.outputTokens ∧
        facts.inputTokens + facts.outputTokens = tokens := by
  simp [UsageFacts.charge, and_assoc]

/-- With an id of its own, the record of a request settles the reservation for what it charges, and
writes so. -/
theorem recordUsage_found {ans : AccountingAnswers} {r : Run σ τ} {usageID : String}
    (facts : UsageFacts) {s : ReservationState} (hu : ans.usageID = .ok usageID)
    (hid : r.request.reservationID ≠ "")
    (hf : r.gateway.budget.manager.reservation r.request.budgetPolicyID r.request.reservationID
      = some s) :
    (r.recordUsage ans facts).2.gateway.budget.manager
        = r.gateway.budget.manager.settle r.request.budgetPolicyID r.request.reservationID
            ((facts.charge ans.refusal).getD 0) ∧
      (∃ es, (r.recordUsage ans facts).2.gateway.log = r.gateway.log ++ es ∧
        (∀ entry ∈ es, entry.Concerns r.request.reservationID) ∧
        ∀ tokens, .settled r.request.reservationID tokens ∈ es ↔
          facts.charge ans.refusal = some tokens) ∧
      ((r.recordUsage ans facts).1 = none ↔
        ans.refusal = none ∧ (facts.settle → 0 ≤ facts.inputTokens + facts.outputTokens)) := by
  unfold Run.recordUsage
  rw [hu]
  dsimp only
  generalize hr : mk usageID r.request.requestID "" facts.outcome _ facts.inputTokens
    facts.outputTokens r.request.budgetPolicyID r.request.reservationID _ = record
  have hi : r.request.reservationID = record.reservationID := by rw [← hr]
  have hp : r.request.budgetPolicyID = record.budgetPolicyID := by rw [← hr]
  have ha : record.actualTokens =
      if facts.settle then some (facts.inputTokens + facts.outputTokens) else none := by
    rw [← hr]
    simp [hid]
  have hc : facts.charge ans.refusal = record.charge ans.refusal := by
    unfold UsageFacts.charge charge
    rw [ha]
    cases ans.refusal with
    | some err => simp
    | none => cases facts.settle <;> simp
  rw [hi, hp] at hf
  rw [hi] at hid
  obtain ⟨hm, hl, he⟩ := finalizer_found hid hf
  rw [hc, hi, hp]
  refine ⟨hm, ⟨_, hl, concerns_entries ans.refusal record, fun _ => mem_entries⟩, ?_⟩
  rw [he, ha]
  cases facts.settle <;> simp

/-! ### Calls on the gateway's own account -/

variable {req : RequestContext} {callErr : Option Failure} {usage : UnifiedUsage}

/-- The record of such a call settles its reservation for something, and says for how much. -/
theorem recordAuxiliaryUsage_found (usageID : Except Failure String) {kind : String}
    {policyID x : String} (hx : x ≠ "")
    (hfo : g.budget.manager.reservation policyID x = some r) :
    ∃ tokens es,
      (recordAuxiliaryUsage usageID refusal req kind usage policyID x callErr g).budget.manager
        = g.budget.manager.settle policyID x tokens ∧
      (recordAuxiliaryUsage usageID refusal req kind usage policyID x callErr g).log
        = g.log ++ es ∧
      (∀ entry ∈ es, entry.Concerns x) ∧ ∀ id, x ≠ id → tokensElsewhere id es = tokens := by
  unfold recordAuxiliaryUsage
  cases usageID with
  | error err =>
    refine ⟨0, [], ?_, ?_, by simp, fun _ _ => rfl⟩
    · dsimp only
      rw [release_of_reserved hx]
      exact manager_release ..
    · dsimp only
      rw [release_of_reserved hx, append_nil]
  | ok usageID =>
    dsimp only
    generalize hf : mk usageID usageID req.requestID _ _ _ _ policyID x _ = facts
    have hr : facts.reservationID = x := by rw [← hf]
    have hp : facts.budgetPolicyID = policyID := by rw [← hf]
    subst hr hp
    obtain ⟨hm, hl, -⟩ := finalizer_found hx hfo
    exact ⟨_, _, hm, hl, concerns_entries refusal facts, fun _ hne => tokensElsewhere_entries hne⟩

theorem recordAuxiliaryUsage_unreserved {usageID : Except Failure String} {kind pid : String} :
    (recordAuxiliaryUsage usageID refusal req kind usage pid "" callErr g).budget
        = g.budget ∧
      ∃ es, (recordAuxiliaryUsage usageID refusal req kind usage pid "" callErr g).log
          = g.log ++ es ∧ ∀ entry ∈ es, ∃ facts, entry = .recorded facts := by
  unfold recordAuxiliaryUsage
  cases usageID with
  | error err => exact ⟨rfl, [], (append_nil _).symm, by simp⟩
  | ok usageID =>
    unfold Gateway.finalizer
    cases refusal with
    | some err => exact ⟨rfl, [], (append_nil _).symm, by simp⟩
    | none => exact ⟨rfl, [.recorded _], rfl, by simp⟩

/-- What a call of the gateway leaves: no reservation at all, or one in the caller's policy that
is made and then, perhaps, settled. -/
inductive Spent {α : Type} (call : AuxiliaryCall α) (request : RequestContext)
    (g g' : Gateway σ τ) : Prop
  | unreserved (entries : List Entry) (hmanager : g'.budget.manager = g.budget.manager)
      (hlog : g'.log = g.log ++ entries)
      (hrecorded : ∀ entry ∈ entries, ∃ facts, entry = .recorded facts)
  | reserved (policy : Policy) (x : String) (estimate : Int)
      (hpolicy : budgetPolicyFor request.policies request.caller call.ticket.policyAt = some policy)
      (hid : call.ticket.id = .ok x)
      (hmanager : g'.budget.manager
        = (g.budget.manager.reserve policy x estimate call.ticket.reserveAt).2)
      (hlog : g'.log = g.log)
  | settled (policy : Policy) (x : String) (estimate : Int) (reserved : Reservation) (tokens : Int)
      (entries : List Entry)
      (hpolicy : budgetPolicyFor request.policies request.caller call.ticket.policyAt = some policy)
      (hid : call.ticket.id = .ok x)
      (hok : (g.budget.manager.reserve policy x estimate call.ticket.reserveAt).1 = .ok reserved)
      (hmanager : g'.budget.manager
        = (g.budget.manager.reserve policy x estimate call.ticket.reserveAt).2.settle policy.id x
          tokens)
      (hlog : g'.log = g.log ++ entries) (hconcerns : ∀ entry ∈ entries, entry.Concerns x)
      (htokens : ∀ id, x ≠ id → tokensElsewhere id entries = tokens)

omit [BudgetLedger σ] in
theorem Spent.of_log {α : Type} {call : AuxiliaryCall α} {g g' : Gateway σ τ}
    (hb : g'.budget = g.budget)
    (h : ∃ es, g'.log = g.log ++ es ∧ ∀ entry ∈ es, ∃ facts, entry = .recorded facts) :
    Spent call req g g' := by
  obtain ⟨es, hl, hr⟩ := h
  exact .unreserved es (congrArg BudgetEnforcer.manager hb) hl hr

theorem auxiliary_spent {α : Type} (call : AuxiliaryCall α) (kind : String) (estimated : Int)
    (req : RequestContext) (g : Gateway σ τ) :
    Spent call req g (call.run kind estimated req g).2 := by
  unfold AuxiliaryCall.run reserveAuxiliary
  cases hp : budgetPolicyFor req.policies req.caller call.ticket.policyAt with
  | none =>
    cases call.outcome with
    | unavailable err => exact .unreserved [] rfl (append_nil _).symm (by simp)
    | failed err | answered usage value =>
      exact .of_log recordAuxiliaryUsage_unreserved.1 recordAuxiliaryUsage_unreserved.2
  | some p =>
    dsimp only
    cases hid : call.ticket.id with
    | error err => exact .unreserved [] rfl (append_nil _).symm (by simp)
    | ok x =>
      generalize (if estimated ≤ 0 then 1 else estimated) = est
      dsimp only
      have hc := enforcer_reserve_cases g.budget p x est call.ticket.reserveAt
      generalize g.budget.reserve p x est call.ticket.reserveAt = answer at hc ⊢
      obtain ⟨result, budget⟩ := answer
      rcases hc with ⟨reserved, hok, hre, hm⟩ | ⟨⟨err, -, hre⟩, hm⟩ | ⟨reserved, err, hok, hre, hm⟩
      · obtain ⟨hx, hri, hr, r, hf⟩ := found_of_reserve hok
        dsimp only at hre hm
        subst hre
        dsimp only
        rw [hri, hr]
        rw [← hm] at hf
        cases call.outcome with
        | unavailable err => exact .reserved p x est hp hid hm rfl
        | failed err | answered usage value =>
          obtain ⟨tokens, entries, hma, hl, hco, ht⟩ :=
            recordAuxiliaryUsage_found (g := { g with budget }) call.usageID hx hf
          exact .settled p x est reserved tokens entries hp hid hok (hm ▸ hma) hl hco ht
      · dsimp only at hre hm
        subst hre
        exact .reserved p x est hp hid hm rfl
      · dsimp only at hre hm
        subst hre
        exact .settled p x est reserved 0 [] hp hid hok hm
          (append_nil _).symm (by simp) fun _ _ => rfl

end LiteAIG.Pipeline
