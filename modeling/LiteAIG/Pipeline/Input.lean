/-
The input guardrail stage.

The engine evaluates a tool's result, the data of an upload and the content of every
message, and puts what comes of each in its place.  The arguments of tool calls in the
history are looked at and left as they are, and any match in them stops the request.
Nothing else of a request is looked at.
-/
import LiteAIG.Pipeline.Output
import LiteAIG.Protocol.Interaction

namespace LiteAIG.Pipeline

open Guardrail
open Lib (utf8 textOfBytes)

section

variable (sum : Text → Text) (replace : Text → String) (engine : Engine) (requestID : String)

def guardCalls : List Protocol.ToolCall → Option Failure
  | [] => none
  | call :: rest =>
    let result := engine.evaluate sum (utf8 call.function.arguments)
    if call.function.arguments = "" ∨ result.hits = [] then guardCalls rest
    else
      (handleMatches requestID result).or
        (some (.kernel "GUARDRAIL_BLOCKED" "tool call arguments blocked by policy" requestID false))

/-- The content that the engine makes of a message's. -/
def guardedContent (message : Protocol.Message) : String :=
  textOfBytes replace (engine.evaluate sum (utf8 message.content)).content

def guardMessages : List Protocol.Message → Option Failure × List Protocol.Message
  | [] => (none, [])
  | message :: rest =>
    let guarded := { message with content := guardedContent sum replace engine message }
    match (handleMatches requestID (engine.evaluate sum (utf8 message.content))).or
        (guardCalls sum engine requestID message.toolCalls) with
    | some err => (some err, guarded :: rest)
    | none =>
      let (err, rest) := guardMessages rest
      (err, guarded :: rest)

variable (request : Protocol.UnifiedRequest)

def guardToolResult :
    Option Failure × Protocol.UnifiedRequest :=
  match request.tool with
  | none => (none, request)
  | some tool =>
    if tool.result = [] then (none, request)
    else
      let result := engine.evaluate sum tool.result
      (handleMatches requestID result, { request with tool := some ⟨result.content⟩ })

def guardUpload : Option Failure × Protocol.UnifiedRequest :=
  match request.file with
  | none => (none, request)
  | some file =>
    if file.operation = "upload" ∧ file.data ≠ [] then
      let result := engine.evaluate sum file.data
      (handleMatches requestID result,
        { request with file := some { file with data := result.content } })
    else (none, request)

def guardChat : Option Failure × Protocol.UnifiedRequest :=
  match request.chat with
  | none => (none, request)
  | some chat =>
    let (err, messages) := guardMessages sum replace engine requestID chat.messages
    (err, { request with chat := some { chat with messages } })

/-- The engine over a whole request. -/
def guardRequest : Option Failure × Protocol.UnifiedRequest :=
  match guardToolResult sum engine requestID request with
  | (some err, request) => (some err, request)
  | (none, request) =>
    match guardUpload sum engine requestID request with
    | (some err, request) => (some err, request)
    | (none, request) => guardChat sum replace engine requestID request

end

/-- The handler, with the engine that the snapshot's policy compiles to. -/
def handleInput (sum : Text → Text) (replace : Text → String) (engine : Except Failure Engine)
    (requestID : String) (request : Protocol.UnifiedRequest) :
    Option Failure × Protocol.UnifiedRequest :=
  match engine with
  | .error err => (some err, request)
  | .ok engine => guardRequest sum replace engine requestID request

end LiteAIG.Pipeline
