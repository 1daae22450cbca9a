/-
A request on its way through the pipeline, and the budget it holds.

The pipeline reserves an estimate under the one budget policy it selects for the
caller.  A call the gateway makes on its own account for the request, to embed it or
to judge its answer, reserves under the same policy with an id of its own.  Ids come
from a generator that may fail, and every reading of the clock may differ from the
one before, so both are part of what a reservation is given.
-/
import LiteAIG.Budget.Enforcer
import LiteAIG.Guardrail.Stream
import LiteAIG.Pipeline.Estimate
import LiteAIG.Pipeline.Runner

namespace LiteAIG.Pipeline

open Budget Guardrail Ledger

/-- Token counts as a provider reports them. -/
structure UnifiedUsage where
  (inputTokens outputTokens : Int)
  deriving DecidableEq

def UnifiedUsage.zero : UnifiedUsage := ⟨0, 0⟩

def UnifiedUsage.totalTokens (u : UnifiedUsage) : Int := u.inputTokens + u.outputTokens

/-- A choice: its text, and the arguments of the tool calls in it. -/
structure Choice where
  content : Text
  toolArguments : List Text
  deriving DecidableEq

structure UnifiedResponse where
  toolResult : Option Text
  choices : List Choice
  usage : UnifiedUsage
  deriving DecidableEq

/-- What a stage returns as its error. -/
inductive Failure
  | kernel (code message requestID : String) (retryable : Bool)
  | block (err : BlockError)
  | upstream (code : String)
  | noEligibleDeployment
  | deadline
  | budget (err : EnforcerError)
  | other (text : String)
  deriving DecidableEq

/-- The outcome under which a failed request is recorded. -/
def outcomeForError : StageError Failure → String
  | .failed _ (.kernel code _ _ _) => code
  | .failed _ (.block _) => "GUARDRAIL_BLOCKED"
  | .failed _ (.upstream code) => if code ≠ "" then code else "ERROR"
  | .failed _ .noEligibleDeployment => "NO_ELIGIBLE_DEPLOYMENT"
  | .failed _ .deadline => "TIMEOUT"
  | .failed _ (.budget _) | .failed _ (.other _) | .unsupported _ _ => "ERROR"

/-- The state that the stages share. -/
structure RequestContext where
  requestID : String
  caller : Caller
  /-- `Snapshot.BudgetPolicies()`. -/
  policies : List PolicyItem
  request : UnifiedRequest
  stream : Bool
  /-- Whether there is a live sink for the chunks of a stream. -/
  streamWriter : Bool
  response : Option UnifiedResponse
  usage : Option UnifiedUsage
  source : String
  err : Option (StageError Failure)
  cachePending : Bool
  (budgetPolicyID reservationID : String)
  budgetEstimated : Int
  budgetSoftWarning : Bool
  tpmEstimated : Int

/-- A request as the server hands it over. -/
def RequestContext.new (requestID : String) (caller : Caller) (policies : List PolicyItem)
    (request : UnifiedRequest) (stream streamWriter : Bool) : RequestContext where
  requestID := requestID
  caller := caller
  policies := policies
  request := request
  stream := stream
  streamWriter := streamWriter
  response := none
  usage := none
  source := ""
  err := none
  cachePending := false
  budgetPolicyID := ""
  reservationID := ""
  budgetEstimated := 0
  budgetSoftWarning := false
  tpmEstimated := 0

/-! ### Reserving -/

/-- What a reservation is given from outside: the answer of the id generator, the time at which
the policy's window is determined, and the time the ledger reads. -/
structure Ticket where
  id : Except Failure String
  (policyAt reserveAt : Int)

def reservationFailure (requestID : String) : EnforcerError → Failure
  | .budget .exceeded | .slice .overshoot =>
    .kernel "BUDGET_EXCEEDED" "token budget exceeded" requestID false
  | err => .budget err

section

variable {σ : Type} [BudgetLedger σ]

def reserveBudget (estimateTokens : UnifiedRequest → Int) (ticket : Ticket)
    (request : RequestContext) (budget : BudgetEnforcer σ) :
    Option Failure × RequestContext × BudgetEnforcer σ :=
  if request.reservationID ≠ "" then (none, request, budget)
  else
    match budgetPolicyFor request.policies request.caller ticket.policyAt with
    | none => (none, request, budget)
    | some policy =>
      match ticket.id with
      | .error err => (some err, request, budget)
      | .ok id =>
        match budget.reserve policy id (estimateTokens request.request) ticket.reserveAt with
        | (.error err, budget) =>
          (some (reservationFailure request.requestID err), request, budget)
        | (.ok reserved, budget) =>
          (none,
            { request with
              budgetPolicyID := reserved.policyID
              reservationID := reserved.id
              budgetEstimated := reserved.estimatedTokens
              budgetSoftWarning := reserved.warning },
            budget)

/-- A reservation for a call on the gateway's own account: the policy and the id, both empty when
the caller has no policy. -/
def reserveAuxiliary (ticket : Ticket) (request : RequestContext) (estimated : Int)
    (budget : BudgetEnforcer σ) : Except Failure (String × String) × BudgetEnforcer σ :=
  match budgetPolicyFor request.policies request.caller ticket.policyAt with
  | none => (.ok ("", ""), budget)
  | some policy =>
    let estimated := if estimated ≤ 0 then 1 else estimated
    match ticket.id with
    | .error err => (.error err, budget)
    | .ok id =>
      match budget.reserve policy id estimated ticket.reserveAt with
      | (.error err, budget) => (.error (.budget err), budget)
      | (.ok reserved, budget) => (.ok (reserved.policyID, reserved.id), budget)

end

end LiteAIG.Pipeline
