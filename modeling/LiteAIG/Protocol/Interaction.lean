/-
Model requests as the gateway holds them between the wire formats.

A request that came in one format may go out in another, so every adapter reads into
these types and writes from them.  What a client sends beside the fields that the
format knows stays in `parameters`, as raw JSON.  A raw value is the value itself
here; only the arguments of a tool call are a text, as they are for the gateway.
-/
import LiteAIG.Lib.Unmarshal

namespace LiteAIG.Protocol

open Lib

inductive RequestKind
  | chat | responses | embedding | rerank | audio | batch | file | tool
  deriving DecidableEq

structure ToolCallFunction where
  (name arguments : String)

structure ToolCall where
  (id type : String)
  function : ToolCallFunction

inductive ContentPartKind
  | text | image
  deriving DecidableEq

/-- An image, inline as a `data:` URI or by its address. -/
structure ContentPart where
  kind : ContentPartKind
  (mediaType dataURL url : String)

/-- The text of a message is in `content`; `parts` are the images. -/
structure Message where
  (role content toolCallID : String)
  toolCalls : List ToolCall
  cacheControl : String
  parts : List ContentPart

structure ToolFunction where
  (name description : String)
  parameters : Option Json

structure Tool where
  type : String
  function : ToolFunction

structure ChatPayload where
  messages : List Message
  maxOutputTokens : Option Int
  (temperature topP : Option Json)
  stop : List String
  tools : List Tool
  (toolChoice responseFormat : Option Json)

/-- What the guardrail reads of a tool's answer. -/
structure ToolPayload where
  result : List UInt8

structure FilePayload where
  operation : String
  data : List UInt8

structure UnifiedRequest where
  kind : RequestKind
  model : String
  stream : Bool
  chat : Option ChatPayload
  tool : Option ToolPayload
  file : Option FilePayload
  parameters : Assoc String Json

/-- The messages of a chat. -/
def UnifiedRequest.messages (r : UnifiedRequest) : List Message :=
  (r.chat.map ChatPayload.messages).getD []

theorem UnifiedRequest.messages_eq {r : UnifiedRequest} {chat : ChatPayload}
    (h : r.chat = some chat) : r.messages = chat.messages := by
  rw [UnifiedRequest.messages, h]
  rfl

def UnifiedRequest.tools (r : UnifiedRequest) : List Tool :=
  (r.chat.map ChatPayload.tools).getD []

/-- What is taken from `encoding/json` as it is. -/
structure Codec where
  /-- A number, by its text, as a `float64` prints it; there is none for one that is too large. -/
  float : List Char → Option Json
  /-- The value of a text, if it is JSON. -/
  parse : String → Option Json

/-- Why a body is refused. -/
inductive DecodeError
  /-- An error of `encoding/json`, after what the adapter says of it. -/
  | json (context : String)
  | required (text : String)
  | invalidContent (reason : String)
  deriving DecidableEq

inductive EncodeError
  | json
  | invalid (text : String)
  deriving DecidableEq

section

variable {α σ : Type}

/-- A field of the body: its zero value if it is not there. -/
def known (raw : Assoc String Json) (name context : String) (zero : α) (read : Json → Option α) :
    Except DecodeError α :=
  match raw.lookup name with
  | none => .ok zero
  | some j => (read j).elim (.error (.json context)) .ok

/-- The fields that the format does not know. -/
def extras (raw : Assoc String Json) (names : List String) : Assoc String Json :=
  names.foldl Assoc.erase raw

/-- A field that takes a string. -/
def stringField (name : String) (get : σ → String) (set : σ → String → σ) : Json.Field σ :=
  ⟨name, fun j record => (j.unmarshalString (get record)).map (set record)⟩

/-- A member that is left out if it is empty. -/
def omitempty (name text : String) : List (String × Json) :=
  if text = "" then [] else [(name, .str text)]

end

/-- Set a member if there is a value for it. -/
def insertSome (wire : Assoc String Json) (name : String) (value : Option Json) :
    Assoc String Json :=
  value.elim wire (wire.insert name)

/-- Set a member if there is something in the list. -/
def insertItems (wire : Assoc String Json) (name : String) (items : List Json) :
    Assoc String Json :=
  if items = [] then wire else wire.insert name (.arr items)

def mergeParameter (codec : Codec) (wire : Assoc String Json) (entry : String × Json) :
    Except EncodeError (Assoc String Json) :=
  match entry.2.unmarshalAny codec.float with
  | some decoded => .ok (wire.insert entry.1 decoded)
  | none => .error .json

/-- The client's other fields go into the body last, over what is there. -/
def mergeParameters (codec : Codec) (wire parameters : Assoc String Json) :
    Except EncodeError (Assoc String Json) :=
  parameters.entries.foldlM (mergeParameter codec) wire

end LiteAIG.Protocol
