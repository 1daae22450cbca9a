/-
Whether the tokens a provider consumed are charged.

The executor has spent the tokens when it returns, and the request carries its usage
from then on.  Accounting charges them to the budget only if no later stage failed:
the record of a failed request carries no tokens, so its reservation is closed for
nothing.  A response that the output stage stops has been paid for and is not charged,
although the token meter is settled with its usage.
-/
import LiteAIG.Proofs.Budget.Selection
import LiteAIG.Proofs.Pipeline.Answered

namespace LiteAIG.Pipeline

open Lib Budget Guardrail Ledger Rate UsageFacts Option

/-! ### Ids and windows -/

/-- The reservations a run may make. -/
def Answers.tickets (answers : Answers) : List Ticket :=
  answers.preflight.ticket :: ((answers.preflight.semantic.map (·.call.ticket)).toList ++
    (answers.output.judge.map (·.ticket)).toList)

/-- The generator gives ids that differ from each other and from those in the policy's ledgers. -/
structure Answers.FreshIDs (answers : Answers) (m : Manager) (policyID : String) : Prop where
  distinct : answers.tickets.Pairwise fun ticket ticket' =>
    ∀ id, ticket.id = .ok id → ticket'.id ≠ .ok id
  unknown : ∀ ticket ∈ answers.tickets, ∀ id, ticket.id = .ok id → m.reservation policyID id = none

/-- The policy's ledger is that of the window at the start, and every reading of the clock for a
reservation falls into the window. -/
structure Answers.OneWindow (answers : Answers) (m : Manager) (policy : Policy) : Prop where
  current : m.Current policy
  within : ∀ ticket ∈ answers.tickets,
    policy.windowStart ≤ ticket.policyAt ∧ ticket.policyAt < policy.windowEnd

theorem budgetPolicyFor_within {items : List PolicyItem} {caller : Caller} {policy : Policy}
    {t now : Int} (h : budgetPolicyFor items caller t = some policy) (hf : policy.windowStart ≤ now)
    (hu : now < policy.windowEnd) : budgetPolicyFor items caller now = some policy := by
  rw [budgetPolicyFor_eq] at h ⊢
  obtain ⟨item, hi, rfl⟩ := map_eq_some_iff.mp h
  rw [hi, map_some, at_same_window (selected_spec hi).2 hf hu]

theorem ledgerOf_of_unknown {m : Manager} {policy : Policy} {id : String}
    (h : m.reservation policy.id id = none) :
    (m.ledgerOf policy).reservations.lookup id = none := by
  rw [reservation_eq, or_eq_none_iff] at h
  cases hin : (m.ledgerOf policy).reservations.lookup id with
  | none => rfl
  | some r =>
    have hc : m.reservationIn policy.id .current id = some r := by
      unfold Manager.reservationIn
      rw [show m.ledgerIn policy.id .current = some (m.ledgerOf policy) from lookup_of_ledgerOf hin]
      exact hin
    rw [hc] at h
    cases h.1

/-! ### The reservation of the request -/

section

variable {σ τ : Type}

/-- The budget holds the reservation `id` open in the policy's window, and since the consumed total
was `before` it has grown by what was settled elsewhere. -/
structure Gateway.Holding (g : Gateway σ τ) (policy : Policy) (id : String)
    (fresh : String → Prop) (before : Int) : Prop where
  current : g.budget.manager.Current policy
  held : ∃ estimate, (g.budget.manager.ledgerOf policy).reservations.lookup id
    = some ⟨estimate, false⟩
  fresh : ∀ x, fresh x → (g.budget.manager.ledgerOf policy).reservations.lookup x = none
  consumed : (g.budget.manager.ledgerOf policy).consumed = before + tokensElsewhere id g.log

variable {g g' : Gateway σ τ} {policy : Policy} {id x : String} {fresh : String → Prop}
  {before tokens : Int}

theorem Gateway.Holding.charged (h : g.Holding policy id fresh before) (hx : id ≠ x)
    (hcu : g'.budget.manager.Current policy)
    (hc : (g.budget.manager.ledgerOf policy).Charged (g'.budget.manager.ledgerOf policy) x tokens)
    (es : List Entry) (hl : g'.log = g.log ++ es)
    (ht : tokensElsewhere id es = tokens) :
    g'.Holding policy id (fun y => fresh y ∧ y ≠ x) before where
  current := hcu
  held := by
    obtain ⟨est, hh⟩ := h.held
    exact ⟨est, hc.held id hx est hh⟩
  fresh y hy := hc.unknown y hy.2 (h.fresh y hy.1)
  consumed := by
    rw [hc.consumed, h.consumed, hl, tokensElsewhere_append, ht, add_assoc]

variable [BudgetLedger σ] {α : Type} {r : Run σ τ} {ans : AccountingAnswers}

theorem Gateway.Holding.auxiliary {call : AuxiliaryCall α} (req : RequestContext)
    (h : g.Holding policy id fresh before)
    (hpo : budgetPolicyFor req.policies req.caller call.ticket.policyAt = some policy)
    (hid : ∀ x, call.ticket.id = .ok x → fresh x ∧ id ≠ x) (kind : String) (estimated : Int) :
    (call.run kind estimated req g).2.Holding policy id
      (fun y => fresh y ∧ call.ticket.id ≠ .ok y) before := by
  have hw : ∀ {x : String} {g' : Gateway σ τ}, call.ticket.id = .ok x →
      g'.Holding policy id (fun y => fresh y ∧ y ≠ x) before →
      g'.Holding policy id (fun y => fresh y ∧ call.ticket.id ≠ .ok y) before := by
    intro x g' hx h'
    refine ⟨h'.current, h'.held, fun y hy => h'.fresh y ⟨hy.1, ?_⟩, h'.consumed⟩
    rintro rfl
    exact hy.2 hx
  cases auxiliary_spent call kind estimated req g with
  | unreserved es hm hl he =>
    -- Nothing was reserved, so nothing was settled.
    have hc : ∀ entry ∈ es, entry.Concerns id := by
      intro entry hen
      obtain ⟨facts, rfl⟩ := he entry hen
      exact trivial
    refine ⟨by rw [hm]; exact h.current, by rw [hm]; exact h.held, ?_, ?_⟩
    · intro y hy
      rw [hm]
      exact h.fresh y hy.1
    · rw [hm, h.consumed, hl, tokensElsewhere_append, tokensElsewhere_self hc, add_zero]
  | reserved p' x est hp hx hm hl =>
    obtain rfl := Option.some.inj (hpo.symm.trans hp)
    obtain ⟨-, hne⟩ := hid x hx
    refine hw hx (h.charged hne ?_ ?_ [] (by rw [hl, List.append_nil]) rfl)
    · rw [hm]
      exact h.current.reserve x est call.ticket.reserveAt
    · rw [hm]
      exact charged_reserve ..
  | settled p' x est reserved tokens es hp hx hok hm hl hc ht =>
    obtain rfl := Option.some.inj (hpo.symm.trans hp)
    obtain ⟨hf, hne⟩ := hid x hx
    obtain ⟨-, hh, -⟩ := held_of_reserve (h.fresh x hf) hok
    refine hw hx (h.charged hne ?_ ?_ es hl (ht id hne.symm))
    · rw [hm]
      exact current_settle hh tokens
    · rw [hm]
      have hch := (charged_reserve g.budget.manager policy x est
        call.ticket.reserveAt).trans (charged_settle hh tokens)
      rwa [zero_add] at hch

theorem Gateway.Holding.afterCall {call : Option (AuxiliaryCall α)} {req : RequestContext}
    (h : g.Holding policy id fresh before) (ha : Gateway.AfterCall call req g g')
    (hpo : ∀ call', call = some call' →
      budgetPolicyFor req.policies req.caller call'.ticket.policyAt = some policy)
    (hid : ∀ call' x, call = some call' → call'.ticket.id = .ok x → fresh x ∧ id ≠ x) :
    g'.Holding policy id
      (fun y => fresh y ∧ ∀ call', call = some call' → call'.ticket.id ≠ .ok y) before := by
  rcases ha with rfl | ⟨call', kind, estimated, request', rfl, hp, hc, rfl⟩
  · exact ⟨h.current, h.held, fun y hy => h.fresh y hy.1, h.consumed⟩
  · have h' := h.auxiliary request' (by rw [hp, hc]; exact hpo call' rfl)
      (fun x hx => hid call' x rfl hx) kind estimated
    exact ⟨h'.current, h'.held, fun y hy => h'.fresh y ⟨hy.1, hy.2 call' rfl⟩, h'.consumed⟩

/-! ### Accounting -/

/-- What the record of a request adds to the consumed total. -/
def UsageFacts.settles (facts : UsageFacts) (answers : AccountingAnswers) : Int :=
  if answers.usageID.isOk then (facts.charge answers.refusal).getD 0 else 0

theorem settles_failed (out : String) (ans : AccountingAnswers) :
    settles ⟨out, 0, 0, false⟩ ans = 0 := by
  simp [settles, charge]

theorem settles_success (usage : UnifiedUsage) (hr : ans.refusal = none) :
    settles ⟨"success", usage.inputTokens, usage.outputTokens, true⟩ ans
      = if ans.usageID.isOk ∧ 0 ≤ usage.totalTokens then usage.totalTokens else 0 := by
  simp only [settles, charge, hr, UnifiedUsage.totalTokens, true_and]
  by_cases hn : ans.usageID.isOk = true
  · by_cases hc : 0 ≤ usage.inputTokens + usage.outputTokens
    · simp [hn, hc]
    · simp [hn, hc]
  · simp [hn]

/-- The consumed total of the policy's window, and that it is the policy's usage. -/
structure Gateway.Consumes (g : Gateway σ τ) (policy : Policy) (id : String) (before : Int) :
    Prop where
  current : g.budget.manager.Current policy
  consumed : (g.budget.manager.ledgerOf policy).consumed = before + tokensElsewhere id g.log

omit [BudgetLedger σ] in
theorem Gateway.Consumes.usage (h : g.Consumes policy id before) :
    (g.budget.usage policy.id).2 = before + tokensElsewhere id g.log :=
  h.current.usage.trans h.consumed

theorem recordUsage_consumes (ans : AccountingAnswers) (facts : UsageFacts)
    (h : r.gateway.Holding policy id fresh before) (hp : r.request.budgetPolicyID = policy.id)
    (hr : r.request.reservationID = id) (hid : id ≠ "") :
    (r.recordUsage ans facts).2.gateway.Consumes policy id (before + facts.settles ans) := by
  subst hr
  cases hu : ans.usageID with
  | error err =>
    rw [settles, hu, Run.recordUsage, hu]
    exact ⟨h.current, h.consumed.trans (by simp [Except.isOk, Except.toBool])⟩
  | ok usageID =>
    obtain ⟨est, hh⟩ := h.held
    have hf : r.gateway.budget.manager.reservation r.request.budgetPolicyID
        r.request.reservationID = some ⟨est, false⟩ := by
      rw [hp, Manager.reservation, ledgerFor_current (lookup_of_ledgerOf hh) hh]
      rfl
    obtain ⟨hm, ⟨es, hl, hc, -⟩, -⟩ := recordUsage_found facts hu hid hf
    have hs : facts.settles ans = (facts.charge ans.refusal).getD 0 := by
      rw [settles, hu]
      rfl
    rw [hp] at hm
    refine ⟨by rw [hm]; exact current_settle hh _, ?_⟩
    rw [hm, (charged_settle hh _).consumed, h.consumed, hl, tokensElsewhere_append,
      tokensElsewhere_self hc, hs]
    omega

variable [TPM τ]

omit [BudgetLedger σ] in
theorem consumes_reconcileTPM (h : r.gateway.Consumes policy id before) :
    (r.reconcileTPM ans).gateway.Consumes policy id before := by
  refine ⟨h.current, ?_⟩
  have ht : tokensElsewhere id (r.reconcileTPM ans).gateway.log
      = tokensElsewhere id r.gateway.log := by
    simp [Run.reconcileTPM, Gateway.write, tokensElsewhere, Entry.elsewhere, List.filterMap_cons]
  rw [ht]
  exact h.consumed

/-- Accounting charges the usage of a request that has not failed. -/
theorem accounting_consumes {usage : UnifiedUsage} (h : r.gateway.Holding policy id fresh before)
    (hp : r.request.budgetPolicyID = policy.id) (hre : r.request.reservationID = id) (hid : id ≠ "")
    (href : ans.refusal = none) (hu : r.request.usage = some usage)
    (hres : r.request.response.isSome) :
    (accountingStage ans r).2.gateway.Consumes policy id
      (before + if r.request.err = none ∧ ans.usageID.isOk ∧ 0 ≤ usage.totalTokens then
        usage.totalTokens else 0) := by
  apply accountingStage_rule (P := fun r' => r'.gateway.Consumes policy id _)
  · exact fun _ h => consumes_reconcileTPM h
  · intro cause he
    have hr := recordUsage_consumes ans ⟨outcomeForError cause, 0, 0, false⟩ h hp hre hid
    rw [settles_failed] at hr
    rwa [if_neg (by simp [he])]
  · intro _ hn
    simp [hn] at hres
  · intro he
    have hr := recordUsage_consumes ans
      ⟨"success", usage.inputTokens, usage.outputTokens, true⟩ h hp hre hid
    rw [settles_success usage href] at hr
    simpa only [he, true_and, hu, getD_some] using hr

/-! ### The run -/

omit [BudgetLedger σ] [TPM τ] in
theorem Gateway.Holding.write {entry : Entry} (h : g.Holding policy id fresh before)
    (he : entry.elsewhere id = none) : (g.write entry).Holding policy id fresh before where
  current := h.current
  held := h.held
  fresh := h.fresh
  consumed := by
    have ht : tokensElsewhere id [entry] = 0 := by
      simp [tokensElsewhere, he]
    rw [show (g.write entry).log = g.log ++ [entry] from rfl, tokensElsewhere_append, ht, add_zero]
    exact h.consumed

/-- The id of a call's reservation. -/
def AuxiliaryCall.Named {α : Type} (call : Option (AuxiliaryCall α)) (x : String) : Prop :=
  ∃ call', call = some call' ∧ call'.ticket.id = .ok x

section

variable {sum : Text → Text} {tok : UnifiedRequest → Int} {ans : Answers}
  {start : Run σ τ}

omit [BudgetLedger σ] [TPM τ] in
/-- The ids of a run: the request's own, that of the lookup, and that of the judge. -/
theorem Answers.FreshIDs.spec {m : Manager} {pid : String} (h : ans.FreshIDs m pid)
    (hid : ans.preflight.ticket.id = .ok id) :
    m.reservation pid id = none ∧
      (∀ x, AuxiliaryCall.Named (ans.preflight.semantic.map SemanticLookup.call) x →
        m.reservation pid x = none ∧ id ≠ x ∧ ¬ AuxiliaryCall.Named ans.output.judge x) ∧
      ∀ x, AuxiliaryCall.Named ans.output.judge x → m.reservation pid x = none ∧ id ≠ x := by
  obtain ⟨hd, hu⟩ := h
  simp only [Answers.tickets, List.pairwise_cons, List.pairwise_append, List.mem_append,
    List.mem_cons, mem_toList, map_eq_some_iff] at hd hu
  refine ⟨hu _ (.inl rfl) id hid, ?_, ?_⟩
  · rintro x ⟨call, hc, hx⟩
    obtain ⟨lookup, hl, rfl⟩ := map_eq_some_iff.mp hc
    refine ⟨hu _ (.inr (.inl ⟨lookup, hl, rfl⟩)) x hx, ?_, ?_⟩
    · rintro rfl
      exact hd.1 _ (.inl ⟨lookup, hl, rfl⟩) id hid hx
    · rintro ⟨judge, hj, hx'⟩
      exact hd.2.2.2 _ ⟨lookup, hl, rfl⟩ _ ⟨judge, hj, rfl⟩ x hx hx'
  · rintro x ⟨judge, hj, hx⟩
    refine ⟨hu _ (.inr (.inr ⟨judge, hj, rfl⟩)) x hx, ?_⟩
    rintro rfl
    exact hd.1 _ (.inr ⟨judge, hj, rfl⟩) id hid hx

theorem holding_beforeExecution (h : Answered sum tok ans start)
    (hnew : start.request.reservationID = "") (hlo : start.gateway.log = [])
    (hp : budgetPolicyFor start.request.policies start.request.caller
      ans.preflight.ticket.policyAt = some policy)
    (hi : ans.FreshIDs start.gateway.budget.manager policy.id)
    (hw : ans.OneWindow start.gateway.budget.manager policy) :
    ∃ id, id ≠ "" ∧ ans.preflight.ticket.id = .ok id ∧
      (beforeExecution tok ans start).request.Holds start.request policy.id id ∧
      (beforeExecution tok ans start).gateway.Holding policy id
        (AuxiliaryCall.Named ans.output.judge) (start.gateway.budget.usage policy.id).2 := by
  obtain ⟨id, estimate, r, hid, hr, hca⟩ := reserved_of_answered h hnew hp
  obtain ⟨hu, hl, hj⟩ := hi.spec hid
  obtain ⟨reserved, hok⟩ := hr.accepted
  obtain ⟨-, hh, -⟩ := held_of_reserve (ledgerOf_of_unknown hu) hok
  have hch := charged_reserve start.gateway.budget.manager policy id estimate
    ans.preflight.ticket.reserveAt
  have hre : r.gateway.Holding policy id
      (fun x => x ≠ id ∧ start.gateway.budget.manager.reservation policy.id x = none)
      (start.gateway.budget.usage policy.id).2 := by
    refine ⟨?_, ⟨estimate, ?_⟩, ?_, ?_⟩
    · rw [hr.manager]
      exact hw.current.reserve id estimate ans.preflight.ticket.reserveAt
    · rw [hr.manager]
      exact hh
    · intro x hx
      rw [hr.manager]
      exact hch.unknown x hx.1 (ledgerOf_of_unknown hx.2)
    · rw [hr.manager, hch.consumed, hr.log, hlo]
      exact congrArg (· + 0) hw.current.usage.symm
  obtain ⟨pending, hreq, ha⟩ := caches_proceed hca
  refine ⟨id, hr.nonempty, hid, ?_, ?_⟩
  · obtain ⟨h₁, h₂, h₃, h₄, h₅, h₆⟩ := hr.request
    rw [hreq]
    exact ⟨h₁, h₂, h₃, h₄, h₅, h₆⟩
  -- A lookup in the semantic cache has an id of its own.
  have hna : ∀ call, (if r.request.stream then none
      else ans.preflight.semantic.map SemanticLookup.call) = some call →
      ans.preflight.semantic.map SemanticLookup.call = some call := by
    intro call hc
    split at hc
    · cases hc
    · exact hc
  have hn := hre.afterCall ha ?_ ?_
  · refine ⟨hn.current, hn.held, fun x hx => hn.fresh x ⟨⟨(hj x hx).2.symm,
      (hj x hx).1⟩, fun call hc ht => ?_⟩, hn.consumed⟩
    exact (hl x ⟨call, hna call hc, ht⟩).2.2 hx
  · intro call hc
    obtain ⟨lookup, hs, rfl⟩ := map_eq_some_iff.mp (hna call hc)
    have hwi := hw.within lookup.call.ticket (by simp [Answers.tickets, hs])
    rw [hr.request.policies, hr.request.caller]
    exact budgetPolicyFor_within hp hwi.1 hwi.2
  · intro call x hc hx
    obtain ⟨hno, hne, -⟩ := hl x ⟨call, hna call hc, hx⟩
    exact ⟨⟨hne.symm, hno⟩, hne⟩

/-- What accounting finds of a request that was answered. -/
structure Run.Owes (r : Run σ τ) (policy : Policy) (id : String) (usage : UnifiedUsage) : Prop where
  budgetPolicyID : r.request.budgetPolicyID = policy.id
  reservationID : r.request.reservationID = id
  usage : r.request.usage = some usage
  response : r.request.response.isSome

theorem holding_beforeAccounting (h : Answered sum tok ans start)
    (hnew : start.request.reservationID = "") (hl : start.gateway.log = [])
    (hp : budgetPolicyFor start.request.policies start.request.caller
      ans.preflight.ticket.policyAt = some policy)
    (hi : ans.FreshIDs start.gateway.budget.manager policy.id)
    (hw : ans.OneWindow start.gateway.budget.manager policy)
    {resp : UnifiedResponse} (hres : ans.executeWithPool = .ok (some resp))
    (he : .executed resp.usage ∈
      (beforeOutput sum tok ans start).gateway.answers) :
    (beforeOutput sum tok ans start).request.response = some resp ∧
    ∃ id, id ≠ "" ∧ (beforeAccounting sum tok ans start).Owes policy id resp.usage ∧
      (beforeAccounting sum tok ans start).gateway.Holding policy id (fun _ => False)
        (start.gateway.budget.usage policy.id).2 := by
  obtain ⟨id, hne, hid, hr, hh⟩ := holding_beforeExecution h hnew hl hp hi hw
  obtain ⟨-, -, hj⟩ := hi.spec hid
  have hst : start.gateway.answers = [] := by
    rw [Gateway.answers, hl]
    rfl
  rcases answer_cases h hst he with ⟨response', hre, -, ho⟩ | ⟨hen, -⟩
  swap
  · cases hen
  rw [hres] at hre
  cases hre
  obtain ⟨⟨response', err, ha, hs⟩, haf, -⟩ :=
    beforeAccounting_after sum tok ans start
  rw [ho] at ha hs haf
  refine ⟨by rw [ho]; rfl, id, hne, ?_, ?_⟩
  · constructor
    · rw [ha]
      exact hr.budgetPolicyID
    · rw [ha]
      exact hr.reservationID
    · rw [ha]
      rfl
    · rw [ha]
      exact hs
  · have hn := (hh.write
      (show (Entry.executed resp.usage).elsewhere id = none from rfl)).afterCall haf ?_ ?_
    · exact ⟨hn.current, hn.held, fun _ hx => hx.elim, hn.consumed⟩
    · intro call hc
      have hwi := hw.within call.ticket (by simp [Answers.tickets, hc])
      dsimp only [Run.respond]
      rw [hr.policies, hr.caller]
      exact budgetPolicyFor_within hp hwi.1 hwi.2
    · intro call x hc hx
      exact ⟨⟨call, hc, hx⟩, (hj x ⟨call, hc, hx⟩).2⟩

/-- What the calls on the gateway's own account were charged with in a run. -/
def Run.auxiliaryTokens (r : Run σ τ) : Int := tokensElsewhere r.request.reservationID r.gateway.log

/-- **Consumed tokens are charged exactly when the output stage lets the response pass.**  In a run
in one window in which the executor returned a response, and whose record is accepted, the policy's
consumed total grows by the reported usage, next to what the gateway's own calls are charged with,
if and only if there was no usage to charge, or the tokens are more than none, the record got its
id, and the output stage, as it found the run, had nothing against the response. -/
theorem usage_charged_iff (sum : Text → Text) (estimateTokens : UnifiedRequest → Int)
    (answers : Answers) (requestID : String) (caller : Caller) (policies : List PolicyItem)
    (request : UnifiedRequest) (streamWriter : Bool) (budget : BudgetEnforcer σ) (tpm : τ)
    (policy : Policy) (response : UnifiedResponse) (start after : Run σ τ)
    (hstart : start = .new requestID caller policies request false streamWriter budget tpm)
    (hafter : after = (litePipeline sum estimateTokens answers start).2)
    (hpolicy : budgetPolicyFor policies caller answers.preflight.ticket.policyAt = some policy)
    (hids : answers.FreshIDs budget.manager policy.id)
    (hwindow : answers.OneWindow budget.manager policy)
    (hresponse : answers.executeWithPool = .ok (some response))
    (hexecuted : .executed response.usage ∈ after.gateway.log)
    (haccepted : answers.accounting.refusal = none) :
    (after.gateway.budget.usage policy.id).2
        = (budget.usage policy.id).2 + response.usage.totalTokens + after.auxiliaryTokens ↔
      response.usage.totalTokens = 0 ∨
        0 < response.usage.totalTokens ∧ answers.accounting.usageID.isOk ∧
          answers.output.Passes sum response (beforeOutput sum estimateTokens answers start) := by
  subst hstart hafter
  have hm := List.mem_filter.mpr
    ⟨hexecuted, (rfl : (Entry.executed response.usage).isAnswer = true)⟩
  obtain ⟨ha, he⟩ := run_answered rfl hm
  obtain ⟨hf, id, hne, ho, hh⟩ :=
    holding_beforeAccounting ha rfl rfl hpolicy hids hwindow hresponse he
  have hco := accounting_consumes hh ho.budgetPolicyID ho.reservationID hne
    haccepted ho.usage ho.response
  rw [← ha.ended] at hco
  have hre : (litePipeline sum estimateTokens answers (.new requestID caller policies request
      false streamWriter budget tpm)).2.request.reservationID = id := by
    rw [ha.ended, accounting_request]
    exact ho.reservationID
  have her := (beforeAccounting_after sum estimateTokens answers
    (.new requestID caller policies request false streamWriter budget tpm)).2.2
  rw [hco.usage, Run.auxiliaryTokens, hre, ← outputGuardrail_passes hf, ← her]
  generalize beforeAccounting (σ := σ) (τ := τ) sum estimateTokens answers _ = r
  change (budget.usage policy.id).2 + _ + _ = _ ↔ _
  by_cases hc : r.request.err = none ∧ answers.accounting.usageID.isOk ∧
      0 ≤ response.usage.totalTokens
  · rw [if_pos hc]
    obtain ⟨hp, hr, ht⟩ := hc
    refine ⟨fun _ => ?_, fun _ => by omega⟩
    rcases ht.eq_or_lt with hz | hpo
    · exact Or.inl hz.symm
    · exact Or.inr ⟨hpo, hr, hp⟩
  · rw [if_neg hc]
    refine ⟨fun h => Or.inl (by omega), ?_⟩
    rintro (hz | ⟨hpo, hr, hp⟩)
    · omega
    · exact absurd ⟨hp, hr, hpo.le⟩ hc

end

end

/-! ### A response that is blocked -/

/-- A daily budget of a thousand tokens for a tenant. -/
def dailyPolicy : PolicyItem := ⟨"daily", "acme", "", "", 24, 1000, .hard, .none⟩

def shortChat : UnifiedRequest := ⟨"m", some ⟨[⟨"user", "hi", "", []⟩], none, []⟩, none, none, none⟩

/-- An answer for which the provider counted forty tokens. -/
def fortyTokens : UnifiedResponse := ⟨none, [⟨ascii "abc", []⟩], ⟨10, 30⟩⟩

variable (rules : List CompiledRule)

/-- The answers of a run in which nothing is refused, with these rules for the output. -/
def plainAnswers : Answers where
  draining := false
  inputGuardrail := .ok
  preflight := ⟨none, true, 0, 0, ⟨.ok "r1", 0, 0⟩, .bypass, none⟩
  resolution := none
  executeWithPool := .ok (some fortyTokens)
  executeStream := ⟨none, [], none⟩
  output := ⟨.ok ⟨1, rules⟩, none, none, ""⟩
  accounting := ⟨.ok "u1", none, none, 0⟩

/-- A rule that blocks the answer. -/
def blockingRule : CompiledRule where
  id := ascii "answer"
  matcher := .keyword
  pattern := ascii "bc"
  action := .block
  replacement := ascii "[blocked]"
  id_ne := by decide
  pattern_ne := by decide
  replacement_ne := by decide

/-- The chat of the tenant, with nothing spent yet. -/
def chatRun : Run MemoryBudgetLedger (Meter Int) :=
  .new "q1" ⟨"acme", "web", "k1"⟩ [dailyPolicy] shortChat false false (.new (.new 0)) .new

def chatAfter : Run MemoryBudgetLedger (Meter Int) :=
  (litePipeline id (fun _ => 100) (plainAnswers rules) chatRun).2

theorem plain_charged :
    .executed ⟨10, 30⟩ ∈ (chatAfter []).gateway.log ∧
      ((chatAfter []).gateway.budget.usage "daily").2 = 40 := by
  have hi : (plainAnswers []).FreshIDs chatRun.gateway.budget.manager "daily" := by
    exact ⟨List.pairwise_singleton .., fun _ _ _ _ => rfl⟩
  have hwi : (plainAnswers []).OneWindow chatRun.gateway.budget.manager (dailyPolicy.at 0) := by
    refine ⟨fun w hw => ?_, fun ticket ht => ?_⟩
    · cases hw
    · cases List.mem_singleton.mp ht
      decide +kernel
  have he : .executed ⟨10, 30⟩ ∈ (chatAfter []).gateway.log := by decide +kernel
  have hp : (plainAnswers []).output.Passes id fortyTokens
      (beforeOutput id (fun _ => 100) (plainAnswers []) chatRun) :=
    ⟨⟨1, []⟩, fortyTokens, rfl, by decide +kernel, fun h => absurd h (by decide)⟩
  refine ⟨he, ?_⟩
  have hc := (usage_charged_iff id (fun _ => 100) (plainAnswers []) "q1" ⟨"acme", "web", "k1"⟩
    [dailyPolicy] shortChat false (.new (.new 0)) .new (dailyPolicy.at 0) fortyTokens chatRun
    (chatAfter []) rfl rfl (by decide +kernel) hi hwi rfl he rfl).mpr
    (Or.inr ⟨by decide, rfl, hp⟩)
  rw [show (chatAfter []).auxiliaryTokens = 0 by decide +kernel] at hc
  exact hc

/-- The provider has counted forty tokens, the token meter is settled with them, and the policy is
charged with nothing. -/
theorem blocked_response_not_charged :
    budgetPolicyFor [dailyPolicy] ⟨"acme", "web", "k1"⟩ 0 = some (dailyPolicy.at 0) ∧
      .executed ⟨10, 30⟩ ∈ (chatAfter [blockingRule]).gateway.log ∧
      .metered 100 40 ∈ (chatAfter [blockingRule]).gateway.log ∧
      (chatRun.gateway.budget.usage "daily").2 = 0 ∧
      ((chatAfter [blockingRule]).gateway.budget.usage "daily").2 = 0 ∧
      (chatAfter [blockingRule]).auxiliaryTokens = 0 := by
  decide +kernel

end LiteAIG.Pipeline
