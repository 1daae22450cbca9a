/-
One request through the pipeline.

The stages are those of the gateway.  What comes from outside in the course of a run
is in `Answers`: what the checks before the executor say, what the executor returns
or the chunks it wrote, and what the output guard and accounting are given.
-/
import LiteAIG.Pipeline.Collector
import LiteAIG.Pipeline.Output

namespace LiteAIG.Pipeline

open Budget Guardrail Ledger Rate

/-- What the exact cache has for the request; `bypass` when the request is not cacheable. -/
inductive CacheAnswer
  | bypass
  | miss
  | hit (response : UnifiedResponse)

/-- A semantic lookup: the embedding call with the length of its input, and the response of a
close enough candidate.  The call answers whether there was a vector and the search went well. -/
structure SemanticLookup where
  call : AuxiliaryCall Bool
  inputLength : Nat
  hit : Option UnifiedResponse

structure PreflightAnswers where
  approvals : Option Failure
  limiterAllows : Bool
  tpmLimit : Int
  meteredAt : Nat
  ticket : Ticket
  cache : CacheAnswer
  /-- There is none unless the tenant enabled the semantic cache and the request is cacheable. -/
  semantic : Option SemanticLookup

/-- What `ExecuteStream` does: the chunks it writes, over all attempts, and how it ends. -/
structure StreamExecution where
  guard : Option StreamGuard
  events : List StreamEvent
  err : Option Failure

structure Answers where
  /-- Whether a drain has begun that admits no more streams. -/
  draining : Bool
  /-- The input guardrail may rewrite the request. -/
  inputGuardrail : UnifiedRequest → Except Failure UnifiedRequest
  preflight : PreflightAnswers
  /-- The planner's error, or that of the context guard. -/
  resolution : Option Failure
  executeWithPool : Except Failure (Option UnifiedResponse)
  executeStream : StreamExecution
  output : OutputGuard
  accounting : AccountingAnswers

variable {σ τ : Type} [BudgetLedger σ] [TPM τ]

def admission : Handler (Run σ τ) Failure := fun r => (.ok .proceed, r)

def inputGuardrail (answers : Answers) : Handler (Run σ τ) Failure := fun r =>
  match answers.inputGuardrail r.request.request with
  | .error err => (.error err, r)
  | .ok request => (.ok .proceed, { r with request := { r.request with request } })

/-- The exact cache: a hit answers the request, a miss leaves a note to write the answer back. -/
def exactCache (answer : CacheAnswer) (r : Run σ τ) : Directive × Run σ τ :=
  match answer with
  | .bypass => (.proceed, r)
  | .miss => (.proceed, { r with request := { r.request with cachePending := true } })
  | .hit response =>
    (.skipResolutionExecution,
      { r with request := { r.request with response := some response, source := "cache" } })

/-- The semantic cache.  A lookup that cannot be made is none. -/
def semanticCache (lookup : SemanticLookup) (r : Run σ τ) : Directive × Run σ τ :=
  let (vector, gateway) :=
    lookup.call.run "embedding" ((lookup.inputLength + 3) / 4 : Nat) r.request r.gateway
  let r := { r with gateway }
  match vector with
  | some (.ok true) =>
    match lookup.hit with
    | some response =>
      (.skipResolutionExecution,
        { r with
          request := { r.request with response := some response, source := "semantic_cache" } })
    | none => (.proceed, { r with request := { r.request with cachePending := true } })
  | _ => (.proceed, r)

/-- The caches, which a streaming request does not use. -/
def caches (answers : PreflightAnswers) (r : Run σ τ) : Directive × Run σ τ :=
  if r.request.stream then (.proceed, r)
  else
    match exactCache answers.cache r with
    | (.proceed, r) => (answers.semantic.map fun lookup => semanticCache lookup r).getD
        (.proceed, r)
    | (directive, r) => (directive, r)

def preflight (estimateTokens : UnifiedRequest → Int) (answers : PreflightAnswers) :
    Handler (Run σ τ) Failure := fun r =>
  match answers.approvals with
  | some err => (.error err, r)
  | none =>
    if !answers.limiterAllows then
      (.error (.kernel "RATE_LIMITED" "rate limit exceeded" r.request.requestID true), r)
    else
      let estimate := estimateTokens r.request.request
      let ((decision, _), tpm) := TPM.reserve answers.tpmLimit r.request.caller.tenantID
        r.request.caller.projectID estimate answers.meteredAt r.gateway.tpm
      let r := { r with gateway := { r.gateway with tpm } }
      if !decision.allowed then
        (.error (.kernel "TPM_LIMITED" "token rate limit exceeded" r.request.requestID true), r)
      else
        let r := { r with request := { r.request with tpmEstimated := estimate } }
        match reserveBudget estimateTokens answers.ticket r.request r.gateway.budget with
        | (some err, request, budget) => (.error err, ⟨request, { r.gateway with budget }⟩)
        | (none, request, budget) =>
          let (directive, r) := caches answers ⟨request, { r.gateway with budget }⟩
          (.ok directive, r)

def resolution (answers : Answers) : Handler (Run σ τ) Failure := fun r =>
  match answers.resolution with
  | some err => (.error err, r)
  | none => (.ok .proceed, r)

/-- A request has the response it was answered with, and the usage of that. -/
def Run.respond (r : Run σ τ) (response : UnifiedResponse) (entry : Entry) : Run σ τ where
  request := { r.request with response := some response, usage := some response.usage }
  gateway := r.gateway.write entry

variable (sum : Text → Text)

def executionStage (answers : Answers) : Handler (Run σ τ) Failure := fun r =>
  if r.request.stream ∧ r.request.streamWriter then
    let execution := answers.executeStream
    match execution.err with
    | some err => (.error err, r)
    | none =>
      let collector := (StreamCollector.new execution.guard).collect sum execution.events
      (.ok .proceed, r.respond collector.response (.streamed collector.delivered))
  else
    match answers.executeWithPool with
    | .error err => (.error err, r)
    | .ok none => (.ok .proceed, r)
    | .ok (some response) => (.ok .proceed, r.respond response (.executed response.usage))

def handlers (estimateTokens : UnifiedRequest → Int) (answers : Answers) :
    Handlers (Run σ τ) Failure where
  admission := admission
  inputGuardrail := inputGuardrail answers
  policyCostPreflight := preflight estimateTokens answers.preflight
  resolution := resolution answers
  executionResilience := executionStage sum answers
  outputStreamGuardrail := outputGuardrail sum answers.output
  accountingAndTelemetry := accountingStage answers.accounting

/-- A request as the server hands it to the pipeline. -/
def Run.new (requestID : String) (caller : Caller) (policies : List PolicyItem)
    (request : UnifiedRequest) (stream streamWriter : Bool) (budget : BudgetEnforcer σ) (tpm : τ) :
    Run σ τ where
  request := .new requestID caller policies request stream streamWriter
  gateway := ⟨budget, tpm, []⟩

/-- `request.Err = err`. -/
def Run.capture (err : Option (StageError Failure)) (r : Run σ τ) : Run σ τ :=
  { r with request := { r.request with err } }

/-- `litePipeline.Run`: the error of a request that does not reach the runner, a stream that comes
during a drain, or what the runner returns. -/
def litePipeline (estimateTokens : UnifiedRequest → Int) (answers : Answers) (r : Run σ τ) :
    Except Failure (Option (StageError Failure) × Option Failure) × Run σ τ :=
  if r.request.stream ∧ r.request.streamWriter ∧ answers.draining then
    (.error (.kernel "DRAINING" "server is draining" r.request.requestID true), r)
  else
    let (errs, r) := (handlers sum estimateTokens answers).run Run.capture r
    (.ok errs, r)

end LiteAIG.Pipeline
