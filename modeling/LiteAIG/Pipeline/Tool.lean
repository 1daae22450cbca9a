/-
Tool calls: what the gateway does around a call to an MCP server.

A tool call does not go through the stages.  It is admitted by the rate limiter and
the budget, and whichever way it ends after that, `finalizeTool` writes its record,
which settles or releases what it reserved.
-/
import LiteAIG.Pipeline.Accounting

namespace LiteAIG.Pipeline

open Budget Ledger

structure ToolResult where
  (name content : String)
  /-- `Provenance.Source`. -/
  source : String
  deriving DecidableEq

/-- What a tool or an agent answers. -/
structure Reply where
  id : String
  toolResult : Option ToolResult
  usage : UnifiedUsage
  deriving DecidableEq

variable {σ τ : Type} [BudgetLedger σ]

/-- The rate limiter, and then a reservation. -/
def Run.admitTool (estimateTokens : UnifiedRequest → Int) (limiterAllows : Bool) (ticket : Ticket)
    (r : Run σ τ) : Option Failure × Run σ τ :=
  if !limiterAllows then
    (some (.kernel "RATE_LIMITED" "rate limit exceeded" r.request.requestID true), r)
  else
    let (err, request, budget) := reserveBudget estimateTokens ticket r.request r.gateway.budget
    (err, ⟨request, { r.gateway with budget }⟩)

/-- The source of the record: the protocol, if the call has one. -/
def toolSource (protocol source : String) : String :=
  if protocol ≠ "" then protocol else if source = "" then "gateway" else source

/-- The record of a tool or agent call.  The error it is recorded with is that of no stage. -/
def Run.finalizeTool (answers : AccountingAnswers) (protocol : String) (response : Option Reply)
    (cause : Option Failure) (r : Run σ τ) : Option Failure × Run σ τ :=
  let usage := (response.map Reply.usage).getD .zero
  let outcome :=
    (cause.map fun err => outcomeForError (.failed .executionResilience err)).getD "success"
  let source := toolSource protocol r.request.source
  let (err, recorded) := { r with request := { r.request with source } }.recordUsage answers
    ⟨outcome, usage.inputTokens, usage.outputTokens, cause.isNone⟩
  (err, { r with gateway := recorded.gateway })

/-- What a tool call is answered from outside. -/
structure ToolAnswers where
  /-- The tool's policy. -/
  toolgate : Option Failure
  approvals : Option Failure
  /-- There is no such server, or its address may not be called. -/
  server : Option Failure
  limiterAllows : Bool
  ticket : Ticket
  /-- The error of building the connector. -/
  connector : Option Failure
  /-- The call under the breaker; an error with what the connector makes of it. -/
  invoked : Except (Failure × Failure) (Option Reply)
  /-- The error of writing the call down. -/
  toolCall : Option Failure
  accounting : AccountingAnswers

/-- `tool`, from the request on that it builds for a tool it has found. -/
def Run.tool (estimateTokens : UnifiedRequest → Int) (answers : ToolAnswers) (r : Run σ τ) :
    Except Failure (Option Reply) × Run σ τ :=
  let fails (r : Run σ τ) (cause answer : Failure) :=
    (.error answer, (r.finalizeTool answers.accounting "mcp" none (some cause)).2)
  match answers.toolgate with
  | some err => (.error err, r)
  | none =>
    match answers.approvals with
    | some err => fails r err err
    | none =>
      match answers.server with
      | some err => (.error err, r)
      | none =>
        match r.admitTool estimateTokens answers.limiterAllows answers.ticket with
        | (some err, r) => fails r err err
        | (none, r) =>
          match answers.connector with
          | some err => fails r err err
          | none =>
            match answers.invoked with
            | .error (err, normalized) => fails r err normalized
            | .ok response =>
              let (err, r) := r.finalizeTool answers.accounting "mcp" response none
              match answers.toolCall.or err with
              | some err => (.error err, r)
              | none => (.ok response, r)

end LiteAIG.Pipeline
