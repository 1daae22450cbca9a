/-
How many tokens a request is reserved for before anybody has counted them.

The estimate is one token, what the text of the request comes to, and the most the
client lets the model answer.  Every sum goes through `round`: `wrap64` is what the
machine computes and `id` is the sum that is meant.
-/
import LiteAIG.Lib.Int64

namespace LiteAIG.Pipeline

open Lib

structure ToolCall where
  (name arguments : String)

structure Message where
  (role content toolCallID : String)
  toolCalls : List ToolCall

structure ToolFunction where
  (name description : String)
  parameters : List UInt8

structure Tool where
  type : String
  function : ToolFunction

structure ChatPayload where
  messages : List Message
  maxOutputTokens : Option Int
  tools : List Tool

structure AudioPayload where
  (input prompt language : String)

/-- The arguments are raw JSON. -/
structure ToolPayload where
  (name arguments : String)

/-- What the estimate reads of a request. -/
structure UnifiedRequest where
  model : String
  chat : Option ChatPayload
  embedding : Option (List String)
  audio : Option AudioPayload
  tool : Option ToolPayload

/-- The tokenizer's table: tokens for a model and a number of runes.  An estimate is an `int64`
and never below one. -/
structure Registry where
  estimateRunes : String → Int → Int
  one_le : ∀ model runes, 1 ≤ estimateRunes model runes
  lt_max : ∀ model runes, estimateRunes model runes < 2 ^ 63

/-- `unicode.IsSpace`. -/
def isSpace (c : Char) : Bool :=
  c.toNat ∈ [0x09, 0x0a, 0x0b, 0x0c, 0x0d, 0x20, 0x85, 0xa0, 0x1680, 0x2028, 0x2029, 0x202f, 0x205f,
    0x3000] || (0x2000 ≤ c.toNat && c.toNat ≤ 0x200a)

/-- `strings.TrimSpace`. -/
def trimSpace (s : String) : String :=
  String.ofList ((s.toList.dropWhile isSpace).rdropWhile isSpace)

def len (s : String) : Int := s.utf8ByteSize

section

variable (round : Int → Int) (marshal : List Tool → Option (List UInt8))

def Message.chars (chars : Int) (msg : Message) : Int :=
  let chars := round (chars + round (round (len msg.role + len msg.content) + len msg.toolCallID))
  msg.toolCalls.foldl (fun chars call => round (chars + round (len call.name + len call.arguments)))
    chars

/-- The tools count by their JSON, if they have one. -/
def ChatPayload.chars (chat : ChatPayload) : Int :=
  let chars := chat.messages.foldl (Message.chars round) 0
  if 0 < chat.tools.length then
    match marshal chat.tools with
    | some bytes => round (chars + bytes.length)
    | none => chars
  else chars

def estimateFor (registry : Option Registry) (model : String) (runes : Int) : Int :=
  match registry with
  | some registry => registry.estimateRunes model runes
  | none => (round (runes + 3)).tdiv 4

def AudioPayload.size (audio : AudioPayload) : Int :=
  round (round (len audio.input + len audio.prompt) + len audio.language)

def ToolPayload.size (tool : ToolPayload) : Int :=
  round (len tool.name + len (trimSpace tool.arguments))

section

variable (registry : Option Registry) (model : String)

def addTokens (estimate runes : Int) : Int :=
  round (estimate + estimateFor round registry model runes)

/-- The messages and tools of a chat, and the most it may answer. -/
def addChat (estimate : Int) (chat : ChatPayload) : Int :=
  let chars := chat.chars round marshal
  let estimate := if 0 < chars then addTokens round registry model estimate chars else estimate
  match chat.maxOutputTokens with
  | some most => if 0 < most then round (estimate + most) else estimate
  | none => estimate

def addInputs (estimate : Int) (inputs : List String) : Int :=
  inputs.foldl (fun estimate input => addTokens round registry model estimate (len input)) estimate

end

def estimateTokensWith (request : Option UnifiedRequest) (registry : Option Registry) : Int :=
  match request with
  | none => 1
  | some request =>
    let estimate := 1
    let estimate := request.chat.elim estimate
      (addChat round marshal registry request.model estimate)
    let estimate := request.embedding.elim estimate
      (addInputs round registry request.model estimate)
    let estimate := request.audio.elim estimate fun audio =>
      addTokens round registry request.model estimate (audio.size round)
    request.tool.elim estimate fun tool =>
      addTokens round registry request.model estimate (tool.size round)

end

end LiteAIG.Pipeline
