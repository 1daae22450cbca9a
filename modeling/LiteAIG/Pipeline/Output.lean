/-
The output guardrail stage.

The engine evaluates the tool result and the text of every choice, and replaces each
by what it may become; tool call arguments are only looked at, and any match in them
blocks.  The answer is then checked for groundedness, and last by a judge, which is a
model call on the gateway's own account.  Only with the action `block` do the last
two stop the answer.
-/
import LiteAIG.Pipeline.Accounting

namespace LiteAIG.Pipeline

open Budget Guardrail Ledger Rate

/-- The error a result of the engine comes to, if it does. -/
def handleMatches (requestID : String) (result : Result) : Option Failure :=
  if result.hits ≠ [] ∧ result.blocked then
    some (.kernel "GUARDRAIL_BLOCKED" "content blocked by policy" requestID false)
  else none

section

variable (sum : Text → Text) (engine : Engine) (requestID : String)

/-- Tool call arguments are never spliced: a match that does not block on its own blocks here. -/
def guardArguments : List Text → Option Failure
  | [] => none
  | arguments :: rest =>
    let result := engine.evaluate sum arguments
    if arguments = [] ∨ result.hits = [] then guardArguments rest
    else
      (handleMatches requestID result).or
        (some (.kernel "OUTPUT_GUARDRAIL_BLOCKED" "tool call arguments blocked by policy"
          requestID false))

/-- The choices, each with the engine's text, up to the first one that is blocked. -/
def guardChoices : List Choice → Option Failure × List Choice
  | [] => (none, [])
  | choice :: rest =>
    let result := engine.evaluate sum choice.content
    let choice := { choice with content := result.content }
    match (handleMatches requestID result).or
        (guardArguments sum engine requestID choice.toolArguments) with
    | some err => (some err, choice :: rest)
    | none =>
      let (err, rest) := guardChoices rest
      (err, choice :: rest)

/-- The engine over a whole response. -/
def guardResponse (response : UnifiedResponse) : Option Failure × UnifiedResponse :=
  let result := response.toolResult.map (engine.evaluate sum)
  let response := { response with toolResult := result.map Result.content }
  match result.bind (handleMatches requestID) with
  | some err => (some err, response)
  | none =>
    let (err, choices) := guardChoices sum engine requestID response.choices
    (err, { response with choices })

end

structure Verdict where
  passed : Bool
  reason : String

/-- How the output stage is set up for a request, and what it is answered from outside. -/
structure OutputGuard where
  /-- The engine that the snapshot's policy compiles to. -/
  engine : Except Failure Engine
  /-- The check of a response against the messages of the request. -/
  groundedness : Option (Text → Text → Except Failure Verdict)
  judge : Option (AuxiliaryCall Verdict)
  action : String

def rubric : Text := ascii "output safety/quality"

/-- All texts of the answer, each with a line end. -/
def combined (response : UnifiedResponse) : Text :=
  response.choices.flatMap fun choice => choice.content ++ ascii "\n"

/-- All messages of the request, each with a line end. -/
def contextText (request : UnifiedRequest) : Text :=
  (request.chat.map ChatPayload.messages).getD [] |>.flatMap fun message =>
    message.content.toUTF8.toList ++ ascii "\n"

/-- A checkpoint that cannot give a verdict lets the answer pass. -/
def rejected : Option (Except Failure Verdict) → Bool
  | some (.ok verdict) => !verdict.passed
  | _ => false

variable {σ τ : Type} [BudgetLedger σ] [TPM τ]

/-- The judge's verdict on the answer; a judge that the budget does not allow passes it. -/
def judgeVerdict (call : AuxiliaryCall Verdict) (text : Text) (r : Run σ τ) : Bool × Run σ τ :=
  let (verdict, gateway) :=
    call.run "judge" ((text.length + rubric.length + 3) / 4) r.request r.gateway
  (rejected verdict, { r with gateway })

/-- Groundedness and then the judge. -/
def checkpointAdvanced (g : OutputGuard) (response : UnifiedResponse) (r : Run σ τ) :
    Option Failure × Run σ τ :=
  let text := combined response
  let ungrounded :=
    rejected (g.groundedness.map fun check => check text (contextText r.request.request))
  let (failed, r) :=
    if ungrounded then (true, r)
    else (g.judge.map fun call => judgeVerdict call text r).getD (false, r)
  (if failed ∧ g.action = "block" then
    some (.kernel "OUTPUT_GUARDRAIL_BLOCKED" "output failed advanced guardrail" r.request.requestID
      false)
  else none, r)

def outputGuardrail (sum : Text → Text) (g : OutputGuard) : Handler (Run σ τ) Failure := fun r =>
  match g.engine with
  | .error err => (.error err, r)
  | .ok engine =>
    match r.request.response with
    | none => (.ok .proceed, r)
    | some response =>
      let (err, response) := guardResponse sum engine r.request.requestID response
      let r := { r with request := { r.request with response := some response } }
      match err with
      | some err => (.error err, r)
      | none =>
        match checkpointAdvanced g response r with
        | (some err, r) => (.error err, r)
        | (none, r) => (.ok .proceed, r)

end LiteAIG.Pipeline
