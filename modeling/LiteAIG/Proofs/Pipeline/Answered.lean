/-
How a run goes in which the executor answered.

Only the execution stage writes an answer of the executor to the log.  So when there
is one, the stages before it all let the request pass, and the run ended with the
output stage and accounting, whatever the former said.  What each of these stages
does to the request and the budget on that way is stated with it.
-/
import LiteAIG.Proofs.Pipeline.Charges

namespace LiteAIG.Pipeline

open Lib Budget Guardrail Ledger Rate Option Gateway

variable {σ τ : Type} (g : Gateway σ τ)

/-- The answers of the executor in the log. -/
def Gateway.answers : List Entry := g.log.filter Entry.isAnswer

variable {g : Gateway σ τ} {answers : Answers} {r r' start : Run σ τ} {α : Type}
  {request : RequestContext} {sum : Text → Text} {estimateTokens : UnifiedRequest → Int}
  {p : Policy} {entry : Entry} {g' : Gateway σ τ}

theorem answers_of_append {x : String} {es : List Entry} (hl : g'.log = g.log ++ es)
    (h : ∀ entry ∈ es, entry.Concerns x) :
    g'.answers = g.answers := by
  rw [Gateway.answers, hl, List.filter_append, filter_isAnswer h, List.append_nil]
  rfl

/-! ### Input and execution -/

/-- The collector after a stream. -/
def Answers.collector (sum : Text → Text) (answers : Answers) : StreamCollector :=
  (StreamCollector.new answers.executeStream.guard).collect sum answers.executeStream.events

/-- The executor fails, returns nothing, returns a response, or has streamed one. -/
theorem execution_cases (sum : Text → Text) (answers : Answers) (r : Run σ τ) :
    (∃ err, executionStage sum answers r = (.error err, r)) ∨
    executionStage sum answers r = (.ok .proceed, r) ∨
    (∃ resp, answers.executeWithPool = .ok (some resp) ∧ executionStage sum answers r
        = (.ok .proceed, r.respond resp (.executed resp.usage))) ∨
    (r.request.stream ∧ r.request.streamWriter ∧ executionStage sum answers r
        = (.ok .proceed, r.respond (answers.collector sum).response
            (.streamed (answers.collector sum).delivered))) := by
  unfold executionStage
  by_cases hs : r.request.stream ∧ r.request.streamWriter
  · rw [if_pos hs]
    dsimp only
    cases answers.executeStream.err with
    | some err => exact .inl ⟨err, rfl⟩
    | none => exact .inr (.inr (.inr ⟨hs.1, hs.2, rfl⟩))
  · rw [if_neg hs]
    rcases answers.executeWithPool with err | _ | resp
    · exact .inl ⟨err, rfl⟩
    · exact .inr (.inl rfl)
    · exact .inr (.inr (.inl ⟨resp, rfl, rfl⟩))

theorem inputGuardrail_gateway (answers : Answers) (r : Run σ τ) :
    (inputGuardrail answers r).2.gateway = r.gateway := by
  unfold inputGuardrail
  split <;> rfl

theorem inputGuardrail_proceed (h : (inputGuardrail answers r).1 = .ok .proceed) :
    ∃ request, answers.inputGuardrail r.request.request = .ok request ∧
      (inputGuardrail answers r).2 = { r with request := { r.request with request } } := by
  unfold inputGuardrail at h ⊢
  cases hin : answers.inputGuardrail r.request.request with
  | error err =>
    rw [hin] at h
    cases h
  | ok request => exact ⟨request, rfl, rfl⟩

/-! ### Calls of the gateway -/

variable [BudgetLedger σ]

theorem answers_release (pid id : String) :
    (g.release pid id).answers = g.answers := by
  unfold release
  split <;> rfl

theorem answers_finalizer (refusal : Option Failure) (facts : Facts) :
    (g.finalizer refusal facts).2.answers = g.answers := by
  have hr : (g.write (.recorded facts)).answers = g.answers := by
    simp [Gateway.answers, Gateway.write, Entry.isAnswer]
  unfold finalizer
  cases refusal with
  | some err => exact answers_release ..
  | none =>
    dsimp only
    split
    · exact hr
    · split
      · exact (answers_release ..).trans hr
      · split
        · simp [Gateway.answers, Gateway.write, Entry.isAnswer]
        · exact (answers_release ..).trans hr

theorem answers_recordUsage (answers : AccountingAnswers) (facts : UsageFacts) :
    (r.recordUsage answers facts).2.gateway.answers = r.gateway.answers := by
  unfold Run.recordUsage
  split
  · rfl
  · exact answers_finalizer ..

theorem answers_auxiliary (call : AuxiliaryCall α) (kind : String) (estimated : Int) :
    (call.run kind estimated request g).2.answers = g.answers := by
  cases auxiliary_spent call kind estimated request g with
  | unreserved es hm hl hr =>
    refine answers_of_append (x := "") hl fun entry he => ?_
    obtain ⟨facts, rfl⟩ := hr entry he
    exact trivial
  | reserved p x est hp hid hm hl =>
    rw [Gateway.answers, hl]
    rfl
  | settled p x est reserved tokens es hp hid hok hm hl hc =>
    exact answers_of_append hl hc

/-- The gateway after at most one call of its own for the request, the one of `call`. -/
def Gateway.AfterCall {α : Type} (call : Option (AuxiliaryCall α)) (request : RequestContext)
    (g g' : Gateway σ τ) : Prop :=
  g' = g ∨ ∃ call' kind estimated request', call = some call' ∧
    request'.policies = request.policies ∧ request'.caller = request.caller ∧
    g' = (call'.run kind estimated request' g).2

theorem answers_afterCall {call : Option (AuxiliaryCall α)}
    (h : Gateway.AfterCall call request g g') : g'.answers = g.answers := by
  rcases h with rfl | ⟨_, _, _, _, -, -, -, rfl⟩
  · rfl
  · exact answers_auxiliary ..

/-! ### The stages before the executor -/

theorem semanticCache_gateway (lookup : SemanticLookup) (r : Run σ τ) :
    (semanticCache lookup r).2.gateway
      = (lookup.call.run "embedding"
        ((lookup.inputLength + 3) / 4 : Nat) r.request r.gateway).2 := by
  unfold semanticCache
  dsimp only
  split
  · split <;> rfl
  · rfl

theorem semanticCache_proceed {lookup : SemanticLookup}
    (h : (semanticCache lookup r).1 = .proceed) :
    ∃ pending, (semanticCache lookup r).2.request = { r.request with cachePending := pending } := by
  unfold semanticCache at h ⊢
  dsimp only at h ⊢
  split at h
  · split at h
    · cases h
    · exact ⟨true, rfl⟩
  · exact ⟨_, rfl⟩

/-- The caches note whether the answer is to be written back, and make at most one call, which is
none for a stream. -/
theorem caches_proceed {answers : PreflightAnswers} (h : caches answers r = (.proceed, r')) :
    ∃ pending, r'.request = { r.request with cachePending := pending } ∧
      Gateway.AfterCall (if r.request.stream then none
        else answers.semantic.map SemanticLookup.call)
        r.request r.gateway r'.gateway := by
  unfold caches at h
  split at h
  · cases h
    exact ⟨_, rfl, .inl rfl⟩
  rename_i hst
  -- A bypass and a miss go on to the semantic cache.
  have he : ∃ pending r₁, r₁ = { r with request := { r.request with cachePending := pending } } ∧
      (answers.semantic.map fun lookup => semanticCache lookup r₁).getD (.proceed, r₁)
        = (.proceed, r') := by
    unfold exactCache at h
    cases hc : answers.cache with
    | bypass =>
      rw [hc] at h
      exact ⟨_, _, rfl, h⟩
    | miss =>
      rw [hc] at h
      exact ⟨_, _, rfl, h⟩
    | hit resp =>
      rw [hc] at h
      cases h
  obtain ⟨pending, r₁, hr₁, hs⟩ := he
  cases hse : answers.semantic with
  | none =>
    rw [hse] at hs
    cases hs
    exact ⟨pending, by rw [hr₁], .inl (by rw [hr₁])⟩
  | some lookup =>
    rw [hse, map_some, getD_some] at hs
    have hg := semanticCache_gateway lookup r₁
    obtain ⟨pending', hr⟩ :=
      semanticCache_proceed (show (semanticCache lookup r₁).1 = .proceed by rw [hs])
    rw [hs] at hg hr
    subst hr₁
    refine ⟨pending', hr, .inr ⟨lookup.call, _, _, _, ?_, rfl, rfl, hg⟩⟩
    rw [if_neg hst]
    rfl

/-! ### The output stage -/

variable (guard : OutputGuard)

theorem checkpointAdvanced_after (resp : UnifiedResponse) (r : Run σ τ) :
    (checkpointAdvanced guard resp r).2.request = r.request ∧
      Gateway.AfterCall guard.judge r.request r.gateway
        (checkpointAdvanced guard resp r).2.gateway := by
  unfold checkpointAdvanced
  dsimp only
  split
  · exact ⟨rfl, .inl rfl⟩
  · cases guard.judge with
    | none => exact ⟨rfl, .inl rfl⟩
    | some call => exact ⟨rfl, .inr ⟨call, _, _, r.request, rfl, rfl, rfl, rfl⟩⟩

/-- The output stage may rewrite the response and ask the judge, and it stops or goes on. -/
theorem outputGuardrail_after (sum : Text → Text) (guard : OutputGuard) (r : Run σ τ) :
    (∃ response, (outputGuardrail sum guard r).2.request = { r.request with response } ∧
      response.isSome = r.request.response.isSome) ∧
    Gateway.AfterCall guard.judge r.request r.gateway (outputGuardrail sum guard r).2.gateway ∧
    ((outputGuardrail sum guard r).1 = .ok .proceed ∨
      ∃ err, (outputGuardrail sum guard r).1 = .error err) := by
  unfold outputGuardrail
  cases guard.engine with
  | error err => exact ⟨⟨_, rfl, rfl⟩, .inl rfl, .inr ⟨err, rfl⟩⟩
  | ok eng =>
    cases hr : r.request.response with
    | none => exact ⟨⟨r.request.response, rfl, by rw [hr]⟩, .inl rfl, .inl rfl⟩
    | some response =>
      dsimp only
      generalize guardResponse sum eng r.request.requestID response = guarded
      obtain ⟨err, response'⟩ := guarded
      cases err with
      | some err => exact ⟨⟨_, rfl, rfl⟩, .inl rfl, .inr ⟨err, rfl⟩⟩
      | none =>
        dsimp only
        have ha := checkpointAdvanced_after guard response'
          { r with request := { r.request with response := some response' } }
        generalize checkpointAdvanced guard response'
          { r with request := { r.request with response := some response' } } = checked
          at ha ⊢
        obtain ⟨err, r'⟩ := checked
        cases err with
        | some err => exact ⟨⟨_, ha.1, rfl⟩, ha.2, .inr ⟨err, rfl⟩⟩
        | none => exact ⟨⟨_, ha.1, rfl⟩, ha.2, .inl rfl⟩

/-- Whether a call comes back with a rejection: the budget admits it, and it is answered so. -/
theorem rejected_run {call : AuxiliaryCall Verdict} {kind : String} {est : Int} :
    rejected (call.run kind est request g).1 = false ↔
      ∀ usage verdict, call.outcome = .answered usage verdict →
        (reserveAuxiliary call.ticket request est g.budget).1.isOk → verdict.passed := by
  unfold AuxiliaryCall.run
  generalize reserveAuxiliary call.ticket request est g.budget = reserved
  obtain ⟨err | ⟨pid, rid⟩, budget⟩ := reserved
  · simp [rejected, Except.isOk, Except.toBool]
  · cases call.outcome with
    | unavailable err => simp [rejected]
    | failed err => simp [rejected]
    | answered usage verdict => simp [rejected, Except.isOk, Except.toBool]

/-- When the action is to block, neither the groundedness check rejects the response nor a judge
whose call the budget admits. -/
def OutputGuard.PassesAdvanced (response : UnifiedResponse) (r : Run σ τ) : Prop :=
  guard.action = "block" →
    rejected (guard.groundedness.map fun check =>
      check (combined response) (contextText r.request.request)) = false ∧
    ∀ call usage verdict, guard.judge = some call → call.outcome = .answered usage verdict →
      (reserveAuxiliary call.ticket r.request (((combined response).length + rubric.length + 3) / 4)
        r.gateway.budget).1.isOk →
      verdict.passed

/-- What the output stage wants of a response: the engine does not block it, and what the engine
makes of it passes the other checks. -/
def OutputGuard.Passes (sum : Text → Text) (response : UnifiedResponse) (r : Run σ τ) : Prop :=
  ∃ engine guarded, guard.engine = .ok engine ∧
    guardResponse sum engine r.request.requestID response = (none, guarded) ∧
    guard.PassesAdvanced guarded r

theorem checkpointAdvanced_passes (resp : UnifiedResponse) (r : Run σ τ) :
    (checkpointAdvanced guard resp r).1 = none ↔ guard.PassesAdvanced resp r := by
  unfold checkpointAdvanced OutputGuard.PassesAdvanced
  dsimp only
  generalize rejected (guard.groundedness.map fun check =>
    check (combined resp) (contextText r.request.request)) = ungrounded
  cases ungrounded with
  | true => simp
  | false =>
    cases guard.judge with
    | none => simp
    | some call =>
      have hv : rejected (call.run "judge"
          (((combined resp).length + rubric.length + 3) / 4) r.request r.gateway).1 = false ↔ _ :=
        rejected_run
      simp only [Bool.false_eq_true, if_false, map_some, getD_some, judgeVerdict,
        ite_eq_right_iff, reduceCtorEq, imp_false, not_and', Bool.not_eq_true, hv, true_and,
        Option.some.injEq]
      refine imp_congr_right fun _ => ⟨?_, fun ha usage verdict => ha call usage verdict rfl⟩
      rintro ha call' usage verdict rfl
      exact ha usage verdict

/-- The output stage lets a response pass that meets its conditions, and no other. -/
theorem outputGuardrail_passes {guard : OutputGuard} {response : UnifiedResponse}
    (h : r.request.response = some response) :
    (outputGuardrail sum guard r).1 = .ok .proceed ↔ guard.Passes sum response r := by
  unfold outputGuardrail OutputGuard.Passes
  rw [h]
  cases guard.engine with
  | error err => simp
  | ok eng =>
    dsimp only
    rcases hg : guardResponse sum eng r.request.requestID response with ⟨_ | err, guarded⟩
    · have hc := checkpointAdvanced_passes guard guarded
        { r with request := { r.request with response := some guarded } }
      change _ ↔ guard.PassesAdvanced guarded r at hc
      dsimp only
      generalize checkpointAdvanced guard guarded
        { r with request := { r.request with response := some guarded } } = checked at hc ⊢
      obtain ⟨_ | err, r'⟩ := checked
      · simp [hg, hc.mp rfl]
      · have hn : ¬ guard.PassesAdvanced guarded r := fun h => by cases hc.mpr h
        simp [hg, hn]
    · simp [hg]

/-! ### Accounting -/

theorem recordUsage_request (answers : AccountingAnswers) (r : Run σ τ) (facts : UsageFacts) :
    (r.recordUsage answers facts).2.request = r.request := by
  unfold Run.recordUsage
  split <;> rfl

variable [TPM τ]

omit [BudgetLedger σ] in
theorem answers_reconcileTPM (answers : AccountingAnswers) :
    (r.reconcileTPM answers).gateway.answers = r.gateway.answers := by
  simp [Run.reconcileTPM, Gateway.answers, Gateway.write, Entry.isAnswer]

/-- What holds once the record is written, and what the meter keeps, holds after the stage. -/
theorem accountingStage_rule {P : Run σ τ → Prop} {answers : AccountingAnswers} {r : Run σ τ}
    (hm : ∀ r, P r → P (r.reconcileTPM answers))
    (hf : ∀ cause, r.request.err = some cause →
      P (r.recordUsage answers ⟨outcomeForError cause, 0, 0, false⟩).2)
    (hn : r.request.err = none → r.request.response = none → P r)
    (hs : r.request.err = none → P (r.recordUsage answers ⟨"success",
      (r.request.usage.getD .zero).inputTokens,
        (r.request.usage.getD .zero).outputTokens, true⟩).2) :
    P (accountingStage answers r).2 := by
  unfold accountingStage
  cases he : r.request.err with
  | some cause =>
    have h := hf cause he
    dsimp only
    unfold Run.finalizeFailure
    split <;> rename_i hr <;> rw [hr] at h
    · exact h
    · exact hm _ h
  | none =>
    cases hre : r.request.response with
    | none => exact hm _ (hn he hre)
    | some resp =>
      have h := hs he
      dsimp only [Run.finalize]
      generalize r.recordUsage answers _ = answered at h ⊢
      obtain ⟨_ | err, r'⟩ := answered
      · dsimp only
        cases if r'.request.cachePending then answers.writeBack else none
        · exact hm _ h
        · exact h
      · exact h

theorem answers_accountingStage (answers : AccountingAnswers) (r : Run σ τ) :
    (accountingStage answers r).2.gateway.answers = r.gateway.answers := by
  apply accountingStage_rule (P := fun r' => r'.gateway.answers = r.gateway.answers)
  · exact fun r' h => (answers_reconcileTPM answers).trans h
  · exact fun _ _ => answers_recordUsage ..
  · exact fun _ _ => rfl
  · exact fun _ => answers_recordUsage ..

/-! ### A run with an answer -/

/-- A run whose request was given a reservation. -/
def Run.reserved (r : Run σ τ) (estimate : Int) (reserved : Reservation) (budget : BudgetEnforcer σ)
    (tpm : τ) : Run σ τ where
  request := { r.request with
    budgetPolicyID := reserved.policyID
    reservationID := reserved.id
    budgetEstimated := reserved.estimatedTokens
    budgetSoftWarning := reserved.warning
    tpmEstimated := estimate }
  gateway := ⟨budget, tpm, r.gateway.log⟩

/-- A preflight that lets the request go on has reserved under the caller's policy. -/
theorem preflight_proceed {answers : PreflightAnswers}
    (h : preflight estimateTokens answers r = (.ok .proceed, r'))
    (hn : r.request.reservationID = "")
    (hp : budgetPolicyFor r.request.policies r.request.caller answers.ticket.policyAt = some p) :
    ∃ id reserved budget tpm, answers.ticket.id = .ok id ∧
      r.gateway.budget.reserve p id (estimateTokens r.request.request) answers.ticket.reserveAt
        = (.ok reserved, budget) ∧
      caches answers (r.reserved (estimateTokens r.request.request) reserved budget tpm)
        = (.proceed, r') := by
  unfold preflight at h
  cases ha : answers.approvals with
  | some err =>
    rw [ha] at h
    cases h
  | none =>
    rw [ha] at h
    dsimp only at h
    split at h
    · cases h
    split at h
    · cases h
    unfold reserveBudget at h
    rw [if_neg (not_not.mpr hn)] at h
    simp only [hp] at h
    cases hid : answers.ticket.id with
    | error err =>
      rw [hid] at h
      cases h
    | ok id =>
      simp only [hid] at h
      cases hr : r.gateway.budget.reserve p id (estimateTokens r.request.request)
          answers.ticket.reserveAt with
      | mk result budget =>
        rw [hr] at h
        cases result with
        | error err => cases h
        | ok reserved =>
          simp only [Prod.mk.injEq, Except.ok.injEq] at h
          exact ⟨id, reserved, budget, _, rfl, hr, Prod.ext h.1 h.2⟩

/-- Only a preflight that lets the request go on can have written anything of a call, and no stage
before the executor writes an answer. -/
theorem answers_preflight (estimateTokens : UnifiedRequest → Int) (answers : PreflightAnswers)
    (r : Run σ τ) : (preflight estimateTokens answers r).2.gateway.answers = r.gateway.answers := by
  have hc : ∀ r : Run σ τ, (caches answers r).2.gateway.answers = r.gateway.answers := by
    intro r
    have hs : ∀ r : Run σ τ, ((answers.semantic.map fun lookup => semanticCache lookup r).getD
          (.proceed, r)).2.gateway.answers = r.gateway.answers := by
      intro r
      cases answers.semantic with
      | none => rfl
      | some lookup =>
        rw [map_some, getD_some, semanticCache_gateway]
        exact answers_auxiliary ..
    unfold caches exactCache
    split
    · rfl
    · cases answers.cache with
      | bypass => exact hs _
      | miss => exact hs _
      | hit resp => rfl
  unfold preflight
  split
  · rfl
  · dsimp only
    split
    · rfl
    · split
      · rfl
      · split
        · rfl
        · exact hc _

section

variable (sum : Text → Text) (estimateTokens : UnifiedRequest → Int) (answers : Answers)
  (r : Run σ τ)

/-- The run as the execution stage finds it. -/
def beforeExecution : Run σ τ :=
  (preflight estimateTokens answers.preflight (inputGuardrail answers r).2).2

/-- The run as the output stage finds it. -/
def beforeOutput : Run σ τ :=
  (executionStage sum answers (beforeExecution estimateTokens answers r)).2

/-- The run as accounting finds it. -/
def beforeAccounting : Run σ τ :=
  let output := runStage .outputStreamGuardrail (outputGuardrail sum answers.output)
    (beforeOutput sum estimateTokens answers r)
  output.2.capture output.1

/-- How a run goes in which the executor answered. -/
structure Answered : Prop where
  input : ∃ request, answers.inputGuardrail r.request.request = .ok request ∧
    (inputGuardrail answers r).2 = { r with request := { r.request with request } }
  preflight : preflight estimateTokens answers.preflight (inputGuardrail answers r).2
    = (.ok .proceed, beforeExecution estimateTokens answers r)
  execution : (executionStage sum answers (beforeExecution estimateTokens answers r)).1
    = .ok .proceed
  ended : (litePipeline sum estimateTokens answers r).2
    = (accountingStage answers.accounting (beforeAccounting sum estimateTokens answers r)).2

end

/-- From the preflight on, an answer comes from the executor. -/
theorem fromPreflight_answered (hs : r.gateway.answers = [])
    (he : entry ∈ ((handlers sum estimateTokens answers).fromPreflight r).2.gateway.answers) :
    (preflight estimateTokens answers.preflight r).1 = .ok .proceed ∧
      (executionStage sum answers (preflight estimateTokens answers.preflight r).2).1
        = .ok .proceed ∧
      (handlers sum estimateTokens answers).fromPreflight r
        = runStage .outputStreamGuardrail (outputGuardrail sum answers.output)
            (executionStage sum answers (preflight estimateTokens answers.preflight r).2).2 := by
  have hpr := (answers_preflight estimateTokens answers.preflight r).trans hs
  have ho : ∀ r : Run σ τ,
      (runStage .outputStreamGuardrail (outputGuardrail sum answers.output) r).2.gateway.answers
        = r.gateway.answers := by
    intro r
    rw [runStage_snd]
    exact answers_afterCall (outputGuardrail_after sum answers.output r).2.1
  unfold Handlers.fromPreflight at he ⊢
  dsimp only [handlers] at he ⊢
  generalize preflight estimateTokens answers.preflight r = pre at hpr he ⊢
  obtain ⟨err | directive, r₂⟩ := pre
  · rw [hpr] at he
    cases he
  cases directive with
  | skipResolutionExecution =>
    rw [ho, hpr] at he
    cases he
  | other value =>
    rw [hpr] at he
    cases he
  | proceed =>
    dsimp only at hpr he ⊢
    have hr : (runStage .resolution (resolution answers) r₂).2 = r₂ := by
      rw [runStage_snd]
      unfold resolution
      split <;> rfl
    rcases andThen_eq (runStage .resolution (resolution answers))
        (andThen (runStage .executionResilience (executionStage sum answers))
          (runStage .outputStreamGuardrail (outputGuardrail sum answers.output))) r₂ with
      ⟨err, -, heq⟩ | ⟨-, heq⟩
    · rw [heq, hr, hpr] at he
      cases he
    rw [heq, hr] at he ⊢
    rcases andThen_eq (runStage .executionResilience (executionStage sum answers))
        (runStage .outputStreamGuardrail (outputGuardrail sum answers.output)) r₂ with
      ⟨err, her, heq⟩ | ⟨hok, heq⟩
    · rw [heq, runStage_snd] at he
      have hp : (executionStage sum answers r₂).1 ≠ .ok .proceed := by
        intro hok
        rw [runStage_eq_none.mpr hok] at her
        cases her
      rcases execution_cases sum answers r₂ with ⟨err, h⟩ | h | ⟨resp, -, h⟩ | ⟨-, -, h⟩
      · rw [h, hpr] at he
        cases he
      all_goals exact absurd (congrArg Prod.fst h) hp
    · rw [heq, runStage_snd]
      exact ⟨rfl, runStage_eq_none.mp hok, rfl⟩

/-- A run without an answer at the start that has one at the end is one in which the executor
answered. -/
theorem run_answered (hst : r.gateway.answers = [])
    (he : entry ∈ (litePipeline sum estimateTokens answers r).2.gateway.answers) :
    Answered sum estimateTokens answers r ∧
      entry ∈ (beforeOutput sum estimateTokens answers r).gateway.answers := by
  by_cases hd : r.request.stream ∧ r.request.streamWriter ∧ answers.draining
  · rw [litePipeline, if_pos hd] at he
    dsimp only at he
    rw [hst] at he
    cases he
  have hen : (litePipeline sum estimateTokens answers r).2 = (accountingStage answers.accounting
          (((handlers sum estimateTokens answers).stages r).2.capture
            ((handlers sum estimateTokens answers).stages r).1)).2 := by
    rw [litePipeline, if_neg hd]
    exact run_snd ..
  rw [hen, answers_accountingStage] at he
  change entry ∈ ((handlers sum estimateTokens answers).stages r).2.gateway.answers at he
  -- Admission lets everything pass; a refused input writes nothing.
  have hs : (handlers sum estimateTokens answers).stages r
      = andThen (runStage .inputGuardrail (inputGuardrail answers))
          (handlers sum estimateTokens answers).fromPreflight r := rfl
  have hin := inputGuardrail_gateway answers r
  rcases andThen_eq (runStage .inputGuardrail (inputGuardrail answers))
      (handlers sum estimateTokens answers).fromPreflight r with ⟨err, -, heq⟩ | ⟨hok, heq⟩
  · rw [hs, heq, runStage_snd, hin, hst] at he
    cases he
  rw [heq, runStage_snd] at hs
  rw [hs] at he hen
  obtain ⟨hp, hex, hf⟩ := fromPreflight_answered ((congrArg _ hin).trans hst) he
  rw [hf] at he hen
  refine ⟨⟨inputGuardrail_proceed (runStage_eq_none.mp hok), Prod.ext hp rfl, hex, hen⟩, ?_⟩
  rw [runStage_snd] at he
  rwa [answers_afterCall (outputGuardrail_after ..).2.1] at he

/-- The answer in the log is what the request goes on with. -/
theorem answer_cases (h : Answered sum estimateTokens answers start)
    (hst : start.gateway.answers = [])
    (he : entry ∈ (beforeOutput sum estimateTokens answers start).gateway.answers) :
    (∃ resp, answers.executeWithPool = .ok (some resp) ∧ entry = .executed resp.usage ∧
      beforeOutput sum estimateTokens answers start
        = (beforeExecution estimateTokens answers start).respond resp entry) ∨
    (entry = .streamed (answers.collector sum).delivered ∧
      (beforeExecution estimateTokens answers start).request.stream ∧
      (beforeExecution estimateTokens answers start).request.streamWriter ∧
      beforeOutput sum estimateTokens answers start
        = (beforeExecution estimateTokens answers start).respond (answers.collector sum).response
            entry) := by
  have hn : (beforeExecution estimateTokens answers start).gateway.answers = [] := by
    rw [beforeExecution, answers_preflight, inputGuardrail_gateway, hst]
  have hr : ∀ resp entry', entry'.isAnswer = true →
      entry ∈ ((beforeExecution estimateTokens answers start).respond resp entry').gateway.answers →
      entry = entry' := by
    intro resp entry' han hm
    have ha : ((beforeExecution estimateTokens answers start).respond resp
        entry').gateway.answers = (beforeExecution estimateTokens answers start).gateway.answers ++
          [entry'] := by
      simp [Gateway.answers, Run.respond, Gateway.write, han]
    rw [ha, hn] at hm
    exact List.mem_singleton.mp hm
  have hok := h.execution
  unfold beforeOutput at he ⊢
  rcases execution_cases sum answers (beforeExecution estimateTokens answers start) with
    ⟨err, heq⟩ | heq | ⟨resp, hre, heq⟩ | ⟨hs, hw, heq⟩
  · rw [heq] at hok
    cases hok
  · rw [heq] at he
    dsimp only at he
    rw [hn] at he
    cases he
  · rw [heq] at he ⊢
    have heq' := hr resp _ rfl he
    exact .inl ⟨resp, hre, heq', by rw [heq']⟩
  · rw [heq] at he ⊢
    have heq' := hr _ _ rfl he
    exact .inr ⟨heq', hs, hw, by rw [heq']⟩

/-- Accounting finds the request as it was answered, but for what the output stage made of the
response and of its error. -/
theorem beforeAccounting_after (sum : Text → Text) (estimateTokens : UnifiedRequest → Int)
    (answers : Answers) (start : Run σ τ) :
    (∃ response err, (beforeAccounting sum estimateTokens answers start).request
        = { (beforeOutput sum estimateTokens answers start).request with response, err } ∧
      response.isSome = (beforeOutput sum estimateTokens answers start).request.response.isSome) ∧
    Gateway.AfterCall answers.output.judge (beforeOutput sum estimateTokens answers start).request
      (beforeOutput sum estimateTokens answers start).gateway
      (beforeAccounting sum estimateTokens answers start).gateway ∧
    ((beforeAccounting sum estimateTokens answers start).request.err = none ↔
      (outputGuardrail sum answers.output (beforeOutput sum estimateTokens answers start)).1
        = .ok .proceed) := by
  obtain ⟨⟨response, hr, hs⟩, ha, -⟩ := outputGuardrail_after sum answers.output
    (beforeOutput sum estimateTokens answers start)
  unfold beforeAccounting Run.capture
  dsimp only
  rw [runStage_snd, hr]
  exact ⟨⟨response, _, rfl, hs⟩, ha, runStage_eq_none⟩

theorem accounting_request (answers : AccountingAnswers) :
    (accountingStage answers r).2.request = r.request := by
  apply accountingStage_rule (P := fun r' => r'.request = r.request)
  · exact fun _ h => h
  · exact fun _ _ => recordUsage_request answers r _
  · exact fun _ _ => rfl
  · exact fun _ => recordUsage_request answers r _

/-! ### The reservation of the request -/

/-- A request with a reservation under a policy, that otherwise is as it was. -/
structure RequestContext.Holds (request start : RequestContext) (policyID id : String) : Prop where
  budgetPolicyID : request.budgetPolicyID = policyID
  reservationID : request.reservationID = id
  policies : request.policies = start.policies
  caller : request.caller = start.caller
  stream : request.stream = start.stream
  streamWriter : request.streamWriter = start.streamWriter

/-- The run right after the request was given its reservation. -/
structure Run.Reserved (r start : Run σ τ) (policy : Policy) (id : String) (estimate now : Int) :
    Prop where
  nonempty : id ≠ ""
  accepted : ∃ reserved,
    (start.gateway.budget.manager.reserve policy id estimate now).1 = .ok reserved
  manager : r.gateway.budget.manager
    = (start.gateway.budget.manager.reserve policy id estimate now).2
  log : r.gateway.log = start.gateway.log
  request : r.request.Holds start.request policy.id id
  cachePending : r.request.cachePending = start.request.cachePending

/-- A request that reaches the executor has reserved, and then been looked up in the caches. -/
theorem reserved_of_answered (h : Answered sum estimateTokens answers start)
    (hn : start.request.reservationID = "")
    (hp : budgetPolicyFor start.request.policies start.request.caller
      answers.preflight.ticket.policyAt = some p) :
    ∃ id est r, answers.preflight.ticket.id = .ok id ∧
      Run.Reserved r start p id est answers.preflight.ticket.reserveAt ∧
      caches answers.preflight r = (.proceed, beforeExecution estimateTokens answers start) := by
  obtain ⟨request, -, hi⟩ := h.input
  have hpr := h.preflight
  rw [hi] at hpr
  obtain ⟨id, reserved, budget, tpm, hid, hr, hca⟩ := preflight_proceed hpr hn hp
  refine ⟨id, estimateTokens request, _, hid, ?_, hca⟩
  have hc := enforcer_reserve_cases start.gateway.budget p id (estimateTokens request)
    answers.preflight.ticket.reserveAt
  dsimp only at hr
  rw [hr] at hc
  rcases hc with ⟨reserved', hok, hre, hm⟩ | ⟨⟨err, -, hre⟩, -⟩ | ⟨_, err, -, hre, -⟩
  · cases hre
    obtain ⟨hne, hri, hrp, -⟩ := found_of_reserve hok
    exact ⟨hne, ⟨reserved, hok⟩, hm, rfl, ⟨hrp, hri, rfl, rfl, rfl, rfl⟩, rfl⟩
  · cases hre
  · cases hre

end LiteAIG.Pipeline
