/-
Whether a stream that reached the client is paid for.

The collector keeps the last usage that a chunk reported and assembles a response
with it; a stream without such a chunk has a response with no usage at all, and there
is no estimate in its place.  So accounting settles the reservation, and the token
meter, with more than nothing exactly when the last reported usage is more than
nothing and the request did not fail after its text had been delivered.
-/
import LiteAIG.Proofs.Pipeline.Consumed

namespace LiteAIG.Pipeline

open Lib Budget Guardrail Ledger Rate Option

/-! ### The collector -/

/-- The last usage that a chunk of the stream reported, or the zero usage. -/
def lastUsage (events : List StreamEvent) : UnifiedUsage :=
  (events.filterMap StreamEvent.usage).getLast?.getD .zero

variable (sum : Text → Text)

theorem writeChunk_usage (c : StreamCollector) (ev : StreamEvent) :
    (c.writeChunk sum ev).2.usage = ev.usage.or c.usage := by
  have hr : ∀ c : StreamCollector, (c.release sum ev).2.usage = c.usage := by
    intro c
    unfold StreamCollector.release
    split <;> rfl
  have hu := hr { c with usage := ev.usage.or c.usage }
  unfold StreamCollector.writeChunk
  dsimp only
  split
  · rename_i h
    rw [h] at hu
    exact hu
  · rename_i h
    rw [h] at hu
    split
    · split <;> exact hu
    · exact hu

theorem collect_usage (evs : List StreamEvent) (c : StreamCollector) :
    (c.collect sum evs).usage = (evs.filterMap StreamEvent.usage).getLast?.or c.usage := by
  unfold StreamCollector.collect
  induction evs generalizing c with
  | nil => rfl
  | cons ev rest ih =>
    rw [List.foldl_cons, ih, writeChunk_usage]
    cases hu : ev.usage with
    | none => simp [hu]
    | some usage =>
      rw [List.filterMap_cons_some hu, List.getLast?_cons]
      cases (rest.filterMap StreamEvent.usage).getLast? <;> rfl

theorem collector_usage (ans : Answers) :
    (ans.collector sum).response.usage = lastUsage ans.executeStream.events := by
  unfold StreamCollector.response lastUsage Answers.collector
  rw [collect_usage]
  exact congrArg (Option.getD · UnifiedUsage.zero) (or_none ..)

section

variable {σ τ : Type} {g g' : Gateway σ τ} {p id x : String}

/-! ### The reservation of a stream -/

/-- The policy's ledgers still have the reservation, and nothing has been settled for it. -/
structure Gateway.Unsettled (g : Gateway σ τ) (p id : String) : Prop where
  found : ∃ estimate, g.budget.manager.reservation p id = some ⟨estimate, false⟩
  unsettled : ∀ tokens, Entry.settled id tokens ∉ g.log

variable [BudgetLedger σ]

/-- A call of the gateway does not lose the reservation, in whatever window it is made. -/
theorem Gateway.Unsettled.afterCall {α : Type} {call : Option (AuxiliaryCall α)}
    {req : RequestContext} {est : Int} (ha : Gateway.AfterCall call req g g')
    (hh : g.budget.manager.reservationIn p .current id = some ⟨est, false⟩)
    (hl : ∀ tokens, Entry.settled id tokens ∉ g.log)
    (hpol : ∀ now p', budgetPolicyFor req.policies req.caller now = some p' →
      p'.id = p)
    (hid : ∀ x, AuxiliaryCall.Named call x → id ≠ x) : g'.Unsettled p id := by
  have hf : g.budget.manager.reservation p id = some ⟨est, false⟩ := by
    rw [reservation_eq, hh]
    rfl
  rcases ha with rfl | ⟨call', kind, estimated, request', rfl, hpo, hca, rfl⟩
  · exact ⟨⟨est, hf⟩, hl⟩
  have hr : ∀ {p' : Policy} {x : String},
      budgetPolicyFor request'.policies request'.caller call'.ticket.policyAt = some p' →
      call'.ticket.id = .ok x → id ≠ x ∧ p'.id = p ∧ ∀ est',
        (g.budget.manager.reserve p' x est' call'.ticket.reserveAt).2.reservation p id
          = some ⟨est, false⟩ := by
    intro p' x hp hx
    rw [hpo, hca] at hp
    obtain rfl := hpol _ _ hp
    have hne := hid x ⟨call', rfl, hx⟩
    exact ⟨hne, rfl, fun est' => reservation_reserve hh hne est' call'.ticket.reserveAt⟩
  cases auxiliary_spent call' kind estimated request' g with
  | unreserved es hm he hre =>
    refine ⟨⟨est, by rw [hm]; exact hf⟩, ?_⟩
    intro tokens hme
    rw [he] at hme
    rcases List.mem_append.mp hme with h | h
    · exact hl tokens h
    · obtain ⟨facts, hfa⟩ := hre _ h
      cases hfa
  | reserved p' x est' hp hx hm he =>
    obtain ⟨-, -, hk⟩ := hr hp hx
    exact ⟨⟨est, by rw [hm]; exact hk est'⟩, by rw [he]; exact hl⟩
  | settled p' x est' reserved tokens es hp hx hok hm he hc =>
    obtain ⟨hne, rfl, hk⟩ := hr hp hx
    refine ⟨⟨est, ?_⟩, fun t ht => ?_⟩
    · rw [hm, reservation_settle hne]
      exact hk est'
    · rw [he] at ht
      rcases List.mem_append.mp ht with h | h
      · exact hl t h
      · exact hne (hc _ h)

/-! ### Accounting -/

variable {r : Run σ τ} {usage : UnifiedUsage} (ans : AccountingAnswers)

/-- The record settles the reservation for what it charges, if it has an id. -/
theorem recordUsage_settled (facts : UsageFacts)
    (h : r.gateway.Unsettled r.request.budgetPolicyID r.request.reservationID)
    (hid : r.request.reservationID ≠ "") (tokens : Int) :
    .settled r.request.reservationID tokens ∈ (r.recordUsage ans facts).2.gateway.log ↔
      ans.usageID.isOk ∧ facts.charge ans.refusal = some tokens := by
  cases hu : ans.usageID with
  | error err =>
    rw [Run.recordUsage, hu]
    simp [h.unsettled, Except.isOk, Except.toBool]
  | ok usageID =>
    obtain ⟨est, hf⟩ := h.found
    obtain ⟨-, ⟨es, hl, -, hs⟩, -⟩ := recordUsage_found facts hu hid hf
    rw [hl, List.mem_append, hs]
    simp [h.unsettled, Except.isOk, Except.toBool]

variable [TPM τ]

omit [BudgetLedger σ] in
theorem log_reconcileTPM :
    (r.reconcileTPM ans).gateway.log = r.gateway.log ++
      [.metered r.request.tpmEstimated ((r.request.usage.map UnifiedUsage.totalTokens).getD 0)] :=
        rfl

/-- Accounting settles the reservation with the usage of the request, and only if the request has
not failed. -/
theorem accounting_settled
    (h : r.gateway.Unsettled r.request.budgetPolicyID r.request.reservationID)
    (hid : r.request.reservationID ≠ "") (hu : r.request.usage = some usage)
    (hre : r.request.response.isSome) (tokens : Int) :
    .settled r.request.reservationID tokens ∈ (accountingStage ans r).2.gateway.log ↔
      r.request.err = none ∧ ans.usageID.isOk ∧ ans.refusal = none ∧
        0 ≤ usage.totalTokens ∧ usage.totalTokens = tokens := by
  apply accountingStage_rule (P := fun r' =>
    .settled r.request.reservationID tokens ∈ r'.gateway.log ↔ _)
  · intro r' h
    simpa [log_reconcileTPM] using h
  · intro cause he
    have hr := recordUsage_settled ans ⟨outcomeForError cause, 0, 0, false⟩ h hid tokens
    simp only [charge_eq_some, Bool.false_eq_true, false_and, and_false, iff_false] at hr
    simpa [he] using hr
  · intro _ hn
    simp [hn] at hre
  · intro he
    have hr := recordUsage_settled ans
      ⟨"success", usage.inputTokens, usage.outputTokens, true⟩ h hid tokens
    rw [charge_eq_some] at hr
    simpa [he, hu, UnifiedUsage.totalTokens] using hr

/-- A record that settles does not fail, so that the meter is settled too when there is no answer to
write back. -/
theorem accounting_metered {ans : AccountingAnswers}
    (h : r.gateway.Unsettled r.request.budgetPolicyID r.request.reservationID)
    (hid : r.request.reservationID ≠ "") (hu : r.request.usage = some usage)
    (hre : r.request.response.isSome) (hp : r.request.cachePending = false)
    (he : r.request.err = none) (hrec : ans.usageID.isOk)
    (ha : ans.refusal = none) (ht : 0 ≤ usage.totalTokens) :
    .metered r.request.tpmEstimated usage.totalTokens ∈ (accountingStage ans r).2.gateway.log := by
  obtain ⟨resp, hres⟩ := isSome_iff_exists.mp hre
  obtain ⟨usageID, hi⟩ : ∃ usageID, ans.usageID = .ok usageID := by
    cases hc : ans.usageID with
    | error err => simp [hc, Except.isOk, Except.toBool] at hrec
    | ok usageID => exact ⟨usageID, rfl⟩
  obtain ⟨est, hf⟩ := h.found
  obtain ⟨-, -, hn⟩ := recordUsage_found
    ⟨"success", usage.inputTokens, usage.outputTokens, true⟩ hi hid hf
  have hr := recordUsage_request ans r ⟨"success", usage.inputTokens, usage.outputTokens, true⟩
  have hn := hn.mpr ⟨ha, fun _ => ht⟩
  unfold accountingStage Run.finalize
  rw [he, hres, hu]
  dsimp only [getD_some]
  generalize r.recordUsage ans ⟨"success", usage.inputTokens, usage.outputTokens, true⟩ = recorded
    at hn hr ⊢
  obtain ⟨err, r'⟩ := recorded
  dsimp only at hn hr
  subst hn
  simp [hr, hp, log_reconcileTPM, hu]

/-! ### The run -/

variable {sum : Text → Text} {tok : UnifiedRequest → Int} {ans : Answers}
  {start : Run σ τ} {p : Policy} {text : Text}

/-- The executor finds a stream with its reservation in place and nothing settled; a stream is not
looked up in the caches. -/
theorem stream_beforeExecution (h : Answered sum tok ans start)
    (hn : start.request.reservationID = "") (hs : start.request.stream)
    (hp : budgetPolicyFor start.request.policies start.request.caller
      ans.preflight.ticket.policyAt = some p)
    (hi : ans.FreshIDs start.gateway.budget.manager p.id) :
    ∃ id estimate, id ≠ "" ∧ ans.preflight.ticket.id = .ok id ∧
      (beforeExecution tok ans start).request.Holds start.request p.id id ∧
      (beforeExecution tok ans start).request.cachePending
        = start.request.cachePending ∧
      (beforeExecution tok ans start).gateway.log = start.gateway.log ∧
      (beforeExecution tok ans start).gateway.budget.manager.reservationIn p.id
        .current id = some ⟨estimate, false⟩ := by
  obtain ⟨id, estimate, r, hid, hr, hc⟩ := reserved_of_answered h hn hp
  have hsa : r = beforeExecution tok ans start := by
    unfold caches at hc
    rw [if_pos (hr.request.stream.trans hs)] at hc
    exact congrArg Prod.snd hc
  obtain ⟨reserved, hok⟩ := hr.accepted
  obtain ⟨-, hh, hin⟩ := held_of_reserve (ledgerOf_of_unknown (hi.spec hid).1) hok
  rw [← hsa]
  refine ⟨id, estimate, hr.nonempty, hid, hr.request, hr.cachePending, hr.log, ?_⟩
  rw [hr.manager]
  exact bind_eq_some_iff.mpr ⟨_, hin, hh⟩

theorem budgetPolicyFor_id {items : List PolicyItem} {caller : Caller} {t now : Int}
    {p' : Policy} (h : budgetPolicyFor items caller t = some p)
    (h' : budgetPolicyFor items caller now = some p') : p'.id = p.id := by
  rw [budgetPolicyFor_eq] at h h'
  obtain ⟨item, hit, rfl⟩ := map_eq_some_iff.mp h
  obtain ⟨item', hi, rfl⟩ := map_eq_some_iff.mp h'
  rw [hit] at hi
  cases hi
  rfl

theorem stream_beforeAccounting (h : Answered sum tok ans start)
    (hn : start.request.reservationID = "") (hlo : start.gateway.log = [])
    (hst : start.request.stream)
    (hpo : budgetPolicyFor start.request.policies start.request.caller
      ans.preflight.ticket.policyAt = some p)
    (hi : ans.FreshIDs start.gateway.budget.manager p.id)
    (hs : .streamed text ∈ (beforeOutput sum tok ans start).gateway.answers) :
    (beforeOutput sum tok ans start).request.response
        = some (ans.collector sum).response ∧
    ∃ id, id ≠ "" ∧ (beforeAccounting sum tok ans start).Owes p id
        (lastUsage ans.executeStream.events) ∧
      (beforeAccounting sum tok ans start).request.cachePending
        = start.request.cachePending ∧
      (beforeAccounting sum tok ans start).gateway.Unsettled p.id id := by
  obtain ⟨id, estimate, hne, hid, hr, hpe, hl, hh⟩ :=
    stream_beforeExecution h hn hst hpo hi
  have hsta : start.gateway.answers = [] := by
    rw [Gateway.answers, hlo]
    rfl
  rcases answer_cases h hsta hs with ⟨_, -, he, -⟩ | ⟨-, -, -, ho⟩
  · cases he
  obtain ⟨⟨resp, err, ha, hso⟩, haf, -⟩ :=
    beforeAccounting_after sum tok ans start
  rw [ho] at ha hso haf
  refine ⟨by rw [ho]; rfl, id, hne, ?_, ?_, ?_⟩
  · constructor
    · rw [ha]
      exact hr.budgetPolicyID
    · rw [ha]
      exact hr.reservationID
    · rw [ha, ← collector_usage sum]
      rfl
    · rw [ha]
      exact hso
  · rw [ha]
    exact hpe
  · refine Gateway.Unsettled.afterCall haf hh ?_ ?_ fun x hx => ((hi.spec hid).2.2 x hx).2
    · intro tokens hm
      simp [Run.respond, Gateway.write, hl, hlo] at hm
    · intro now p' hp
      dsimp only [Run.respond] at hp
      rw [hr.policies, hr.caller] at hp
      exact budgetPolicyFor_id hpo hp

/-- **A stream is paid for exactly when its last usage is positive and nothing failed after it.**
Whatever text a stream delivered, the reservation and the token meter are settled with more than
nothing if and only if the last usage that a chunk reported is more than nothing, the record got its
id and was accepted, and the output stage had nothing against the assembled response.  Nothing
stands in for a usage that was not reported. -/
theorem stream_charged_iff (sum : Text → Text) (estimateTokens : UnifiedRequest → Int)
    (answers : Answers) (requestID : String) (caller : Caller) (policies : List PolicyItem)
    (request : UnifiedRequest) (budget : BudgetEnforcer σ) (tpm : τ) (policy : Policy) (text : Text)
    (start after : Run σ τ)
    (hstart : start = .new requestID caller policies request true true budget tpm)
    (hafter : after = (litePipeline sum estimateTokens answers start).2)
    (hpolicy : budgetPolicyFor policies caller answers.preflight.ticket.policyAt = some policy)
    (hids : answers.FreshIDs budget.manager policy.id)
    (hstreamed : .streamed text ∈ after.gateway.log) :
    (∃ tokens, 0 < tokens ∧ .settled after.request.reservationID tokens ∈ after.gateway.log) ∧
        (∃ estimated tokens, 0 < tokens ∧ .metered estimated tokens ∈ after.gateway.log) ↔
      0 < (lastUsage answers.executeStream.events).totalTokens ∧
        answers.accounting.usageID.isOk ∧ answers.accounting.refusal = none ∧
        answers.output.Passes sum (answers.collector sum).response
          (beforeOutput sum estimateTokens answers start) := by
  subst hstart hafter
  have hme := List.mem_filter.mpr ⟨hstreamed, (rfl : (Entry.streamed text).isAnswer = true)⟩
  obtain ⟨han, he⟩ := run_answered rfl hme
  obtain ⟨hf, id, hne, ho, hpe, hu⟩ :=
    stream_beforeAccounting han rfl rfl rfl hpolicy hids he
  have her := (beforeAccounting_after sum estimateTokens answers
    (.new requestID caller policies request true true budget tpm)).2.2
  rw [han.ended, accounting_request, ← outputGuardrail_passes hf, ← her]
  generalize beforeAccounting (σ := σ) (τ := τ) sum estimateTokens answers _ = r at ho hpe hu
  rw [← ho.budgetPolicyID, ← ho.reservationID] at hu
  rw [← ho.reservationID] at hne
  have hs := accounting_settled answers.accounting hu hne ho.usage ho.response
  constructor
  · rintro ⟨⟨tokens, hpo, hme⟩, -⟩
    obtain ⟨hp, hr, ha, -, rfl⟩ := (hs tokens).mp hme
    exact ⟨hpo, hr, ha, hp⟩
  · rintro ⟨hpo, hr, ha, hp⟩
    have hm := accounting_metered hu hne ho.usage ho.response hpe hp hr ha hpo.le
    exact ⟨⟨_, hpo, (hs _).mpr ⟨hp, hr, ha, hpo.le, rfl⟩⟩, _, _, hpo, hm⟩

end

/-! ### A stream without usage -/

variable (usage : Option UnifiedUsage)

/-- A stream of two chunks: a text, and the end with what the provider reports there. -/
def greeting : List StreamEvent :=
  [⟨ascii "hi", false, "", none, false, true, none⟩, ⟨[], false, "stop", usage, true, true, none⟩]

def streamAnswers : Answers :=
  { plainAnswers [] with executeStream := ⟨none, greeting usage, none⟩ }

/-- The chat of the tenant, as a stream. -/
def streamRun : Run MemoryBudgetLedger (Meter Int) :=
  .new "q1" ⟨"acme", "web", "k1"⟩ [dailyPolicy] shortChat true true (.new (.new 0)) .new

def streamAfter : Run MemoryBudgetLedger (Meter Int) :=
  (litePipeline id (fun _ => 100) (streamAnswers usage) streamRun).2

theorem reported_stream_charged :
    .streamed (ascii "hi") ∈ (streamAfter (some ⟨3, 2⟩)).gateway.log ∧ (∃ tokens, 0 < tokens ∧
        .settled (streamAfter (some ⟨3, 2⟩)).request.reservationID tokens ∈
          (streamAfter (some ⟨3, 2⟩)).gateway.log) ∧
      ∃ estimated tokens, 0 < tokens ∧
        .metered estimated tokens ∈ (streamAfter (some ⟨3, 2⟩)).gateway.log := by
  have hi : (streamAnswers (some ⟨3, 2⟩)).FreshIDs streamRun.gateway.budget.manager "daily" :=
    ⟨List.pairwise_singleton .., fun _ _ _ _ => rfl⟩
  have hs : .streamed (ascii "hi") ∈ (streamAfter (some ⟨3, 2⟩)).gateway.log := by
    decide +kernel
  have hp : (streamAnswers (some ⟨3, 2⟩)).output.Passes id
      ((streamAnswers (some ⟨3, 2⟩)).collector id).response
      (beforeOutput id (fun _ => 100) (streamAnswers (some ⟨3, 2⟩)) streamRun) :=
    ⟨⟨1, []⟩, ((streamAnswers (some ⟨3, 2⟩)).collector id).response, rfl, by decide +kernel,
      fun h => absurd h (by decide)⟩
  exact ⟨hs, (stream_charged_iff id (fun _ => 100) (streamAnswers (some ⟨3, 2⟩)) "q1"
    ⟨"acme", "web", "k1"⟩ [dailyPolicy] shortChat (.new (.new 0)) .new
      (dailyPolicy.at 0) (ascii "hi")
    streamRun (streamAfter (some ⟨3, 2⟩)) rfl rfl (by decide +kernel) hi hs).mpr
    ⟨by decide +kernel, rfl, rfl, hp⟩⟩

/-- The client has the text, and both the reservation and the meter are settled with nothing. -/
theorem unreported_stream_free :
    budgetPolicyFor [dailyPolicy] ⟨"acme", "web", "k1"⟩ 0 = some (dailyPolicy.at 0) ∧
      .streamed (ascii "hi") ∈ (streamAfter none).gateway.log ∧
      .settled (streamAfter none).request.reservationID 0 ∈ (streamAfter none).gateway.log ∧
      (∀ id tokens, .settled id tokens ∈ (streamAfter none).gateway.log → tokens = 0) ∧
      ∀ estimated tokens, .metered estimated tokens ∈ (streamAfter none).gateway.log →
        tokens = 0 := by
  have hl : (streamAfter none).gateway.log = [.streamed (ascii "hi"),
      .recorded ⟨"u1", "q1", "", "success", "playground", 0, 0, "daily", "r1", some 0⟩,
      .settled "r1" 0, .metered 100 0] := by
    decide +kernel
  refine ⟨by decide +kernel, ?_, by decide +kernel, ?_, ?_⟩
  · simp [hl]
  · intro id tokens hm
    simp only [hl, List.mem_cons, reduceCtorEq, Entry.settled.injEq, List.not_mem_nil, false_or,
      or_false] at hm
    exact hm.2
  · intro estimated tokens hm
    simp only [hl, List.mem_cons, reduceCtorEq, Entry.metered.injEq, List.not_mem_nil, false_or,
      or_false] at hm
    exact hm.2

end LiteAIG.Pipeline
