/-
What a request is charged with when it is over.

The finalizer writes the record of a request and then settles its reservation: for
the tokens in the record if there are any, otherwise for nothing.  When the record
is not accepted, or the settlement fails, the reservation is released.  The record
of a failed request carries no tokens.  The token meter is settled apart from that,
with the usage the request has, whether it failed or not.

What the run does to the outside is kept in a log: the records written, and every
amount a ledger or the meter was settled with.
-/
import LiteAIG.Pipeline.Request
import LiteAIG.Rate.Meter

namespace LiteAIG.Pipeline

open Budget Guardrail Ledger Rate

/-- One usage record. -/
structure Facts where
  (usageEventID requestID parentRequestID outcome usageSource : String)
  (inputTokens outputTokens : Int)
  (budgetPolicyID reservationID : String)
  actualTokens : Option Int
  deriving DecidableEq

inductive Entry
  /-- The executor returned a response. -/
  | executed (usage : UnifiedUsage)
  /-- The executor reported a stream as successful, after this text had reached the client. -/
  | streamed (delivered : Text)
  /-- The repository accepted a record. -/
  | recorded (facts : Facts)
  /-- The budget reconciled a reservation. -/
  | settled (reservationID : String) (actual : Int)
  /-- The token meter was reconciled. -/
  | metered (estimated actual : Int)
  deriving DecidableEq

/-- What a request shares with the others, and what was done to it. -/
structure Gateway (σ τ : Type) where
  budget : BudgetEnforcer σ
  tpm : τ
  log : List Entry

variable {σ τ : Type} [BudgetLedger σ] [TPM τ]

def Gateway.write (g : Gateway σ τ) (entry : Entry) : Gateway σ τ :=
  { g with log := g.log ++ [entry] }

def Gateway.release (g : Gateway σ τ) (policyID reservationID : String) : Gateway σ τ :=
  if reservationID = "" then g else { g with budget := g.budget.release policyID reservationID }

/-- `Finalizer.Finalize`; `refusal` is the repository's error, if it has one. -/
def Gateway.finalizer (g : Gateway σ τ) (refusal : Option Failure) (facts : Facts) :
    Option Failure × Gateway σ τ :=
  match refusal with
  | some err => (some err, g.release facts.budgetPolicyID facts.reservationID)
  | none =>
    let g := g.write (.recorded facts)
    if facts.reservationID = "" then (none, g)
    else
      match facts.actualTokens with
      | none => (none, g.release facts.budgetPolicyID facts.reservationID)
      | some actual =>
        match g.budget.reconcile facts.budgetPolicyID facts.reservationID actual with
        | (.ok (), budget) =>
          (none, { g with budget }.write (.settled facts.reservationID actual))
        | (.error err, budget) =>
          (some (.budget (.budget err)),
            { g with budget }.release facts.budgetPolicyID facts.reservationID)

/-! ### Calls on the gateway's own account -/

/-- How such a call went. -/
inductive AuxiliaryOutcome (α : Type)
  /-- No deployment or credential to call: nothing was called. -/
  | unavailable (err : Failure)
  /-- The call failed, or came back empty. -/
  | failed (err : Failure)
  | answered (usage : UnifiedUsage) (value : α)

structure AuxiliaryCall (α : Type) where
  ticket : Ticket
  outcome : AuxiliaryOutcome α
  /-- The id of its usage record. -/
  usageID : Except Failure String
  /-- The repository's error, if it refuses the record. -/
  refusal : Option Failure

/-- `kind` is what the call is for; without an error the usage is what it settles. -/
def recordAuxiliaryUsage (usageID : Except Failure String) (refusal : Option Failure)
    (request : RequestContext) (kind : String) (usage : UnifiedUsage)
    (policyID reservationID : String) (callErr : Option Failure) (g : Gateway σ τ) :
    Gateway σ τ :=
  match usageID with
  | .error _ => g.release policyID reservationID
  | .ok id =>
    (g.finalizer refusal
      { usageEventID := id
        requestID := id
        parentRequestID := request.requestID
        outcome := if callErr.isSome then "error" else "success"
        usageSource := "auxiliary_" ++ kind
        inputTokens := usage.inputTokens
        outputTokens := usage.outputTokens
        budgetPolicyID := policyID
        reservationID := reservationID
        actualTokens := if callErr.isSome then none else some usage.totalTokens }).2

/-- Reserve, call, and record: the call's answer, `none` when the budget did not let it happen. -/
def AuxiliaryCall.run {α : Type} (call : AuxiliaryCall α) (kind : String) (estimated : Int)
    (request : RequestContext) (g : Gateway σ τ) : Option (Except Failure α) × Gateway σ τ :=
  match reserveAuxiliary call.ticket request estimated g.budget with
  | (.error _, budget) => (none, { g with budget })
  | (.ok (policyID, reservationID), budget) =>
    let g := { g with budget }
    let record (usage : UnifiedUsage) (callErr : Option Failure) :=
      recordAuxiliaryUsage call.usageID call.refusal request kind usage policyID reservationID
        callErr g
    match call.outcome with
    | .unavailable err => (some (.error err), g)
    | .failed err => (some (.error err), record .zero (some err))
    | .answered usage value => (some (.ok value), record usage none)

/-! ### The request's own record -/

structure Run (σ τ : Type) where
  request : RequestContext
  gateway : Gateway σ τ

/-- What distinguishes a successful request's record from a failed one's. -/
structure UsageFacts where
  outcome : String
  (inputTokens outputTokens : Int)
  /-- Record the tokens against the reservation. -/
  settle : Bool

/-- What accounting is given from outside. -/
structure AccountingAnswers where
  usageID : Except Failure String
  refusal : Option Failure
  /-- The error of writing the answer to the cache, if there is one. -/
  writeBack : Option Failure
  /-- The time the meter reads. -/
  meteredAt : Nat

def usageSource (source fallback : String) : String := if source = "" then fallback else source

variable (answers : AccountingAnswers) (r : Run σ τ)

def Run.recordUsage (facts : UsageFacts) :
    Option Failure × Run σ τ :=
  match answers.usageID with
  | .error err => (some err, r)
  | .ok usageID =>
    let (err, gateway) := r.gateway.finalizer answers.refusal
      { usageEventID := usageID
        requestID := r.request.requestID
        parentRequestID := ""
        outcome := facts.outcome
        usageSource := usageSource r.request.source "playground"
        inputTokens := facts.inputTokens
        outputTokens := facts.outputTokens
        budgetPolicyID := r.request.budgetPolicyID
        reservationID := r.request.reservationID
        actualTokens :=
          if facts.settle ∧ r.request.reservationID ≠ "" then
            some (facts.inputTokens + facts.outputTokens)
          else none }
    (err, { r with gateway })

/-- A successful request: its record, and its answer written to the cache when that is due. -/
def Run.finalize : Option Failure × Run σ τ :=
  let usage := r.request.usage.getD .zero
  match r.recordUsage answers ⟨"success", usage.inputTokens, usage.outputTokens, true⟩ with
  | (some err, r) => (some err, r)
  | (none, r) => (if r.request.cachePending then answers.writeBack else none, r)

def Run.finalizeFailure (cause : StageError Failure) :
    Option Failure × Run σ τ :=
  r.recordUsage answers ⟨outcomeForError cause, 0, 0, false⟩

/-- Settle what the meter was asked for against the usage the request has. -/
def Run.reconcileTPM : Run σ τ :=
  let actual := (r.request.usage.map UnifiedUsage.totalTokens).getD 0
  let tpm := TPM.reconcile r.request.caller.tenantID r.request.caller.projectID
    r.request.tpmEstimated actual answers.meteredAt r.gateway.tpm
  { r with gateway := { r.gateway with tpm }.write (.metered r.request.tpmEstimated actual) }

/-- The deferred stage. -/
def accountingStage : Handler (Run σ τ) Failure := fun r =>
  match r.request.err with
  | some cause =>
    match r.finalizeFailure answers cause with
    | (some err, r) => (.error err, r)
    | (none, r) => (.ok .proceed, r.reconcileTPM answers)
  | none =>
    match r.request.response with
    | none => (.ok .proceed, r.reconcileTPM answers)
    | some _ =>
      match r.finalize answers with
      | (some err, r) => (.error err, r)
      | (none, r) => (.ok .proceed, r.reconcileTPM answers)

end LiteAIG.Pipeline
