/-
The OpenAI chat format.

Text parts of a message are put together and image parts kept apart; parts of a kind
that is not known are dropped.  The body that goes to the provider is written from the
request alone, and the fields the format does not know come over it at the end.
-/
import LiteAIG.Protocol.Interaction

namespace LiteAIG.Protocol.OpenAI

open Lib

/-! ### Reading a request -/

structure WireMessage where
  role : String
  content : Json
  toolCallID : String
  toolCalls : List ToolCall

def toolCallFunctionFields : List (Json.Field ToolCallFunction) :=
  [stringField "name" (·.name) fun f name => { f with name },
    stringField "arguments" (·.arguments) fun f arguments => { f with arguments }]

def toolCallFields : List (Json.Field ToolCall) :=
  [stringField "id" (·.id) fun call id => { call with id },
    stringField "type" (·.type) fun call type => { call with type },
    ⟨"function", fun j call =>
      (j.unmarshalRecord toolCallFunctionFields call.function).map fun function =>
        { call with function }⟩]

variable (codec : Codec)

def messageFields : List (Json.Field WireMessage) :=
  [stringField "role" (·.role) fun m role => { m with role },
    ⟨"content", fun j m => (j.unmarshalAny codec.float).map fun content => { m with content }⟩,
    stringField "tool_call_id" (·.toolCallID) fun m toolCallID => { m with toolCallID },
    ⟨"tool_calls", fun j m =>
      (j.unmarshalList (·.unmarshalRecord toolCallFields ⟨"", "", "", ""⟩)).map fun toolCalls =>
        { m with toolCalls }⟩]

def toolFunctionFields : List (Json.Field ToolFunction) :=
  [stringField "name" (·.name) fun f name => { f with name },
    stringField "description" (·.description) fun f description => { f with description },
    ⟨"parameters", fun j f => some { f with parameters := some j }⟩]

def toolFields : List (Json.Field Tool) :=
  [stringField "type" (·.type) fun tool type => { tool with type },
    ⟨"function", fun j tool =>
      (j.unmarshalRecord toolFunctionFields tool.function).map fun function =>
        { tool with function }⟩]

/-- One string or several; `null` is read as a string. -/
def unmarshalStringList : Json → Option (List String)
  | .str s => some [s]
  | .null => some [""]
  | j => j.unmarshalList (·.unmarshalString "")

/-- What stands between `data:` and the first semicolon or comma. -/
def dataMediaType (location : List Char) : String :=
  String.ofList ((location.drop "data:".toList.length).takeWhile fun c => c ≠ ';' ∧ c ≠ ',')

def imageContentPart (location : String) : ContentPart :=
  if "data:".toList <+: location.toList then
    ⟨.image, dataMediaType location.toList, location, ""⟩
  else ⟨.image, "", "", location⟩

/-- The text or the image of one part. -/
def contentEntry (index : Nat) (entry : Json) : Except DecodeError (String × List ContentPart) :=
  match entry with
  | .obj _ =>
    let kind := (entry.getStr "type").getD ""
    if kind = "" then
      .error (.invalidContent s!"message content entry {index} is missing a type")
    else if kind = "text" ∨ kind = "input_text" then
      match entry.getStr "text" with
      | some body => .ok (body, [])
      | none => .error (.invalidContent s!"text content entry {index} is missing its text")
    else if kind = "image_url" ∨ kind = "input_image" then
      match entry.get "image_url" with
      | some (.obj spec) =>
        let location := ((Json.obj spec).getStr "url").getD ""
        if location = "" then
          .error (.invalidContent s!"image content entry {index} is missing its url")
        else .ok ("", [imageContentPart location])
      | _ => .error (.invalidContent s!"image content entry {index} must be an object")
    else .ok ("", [])
  | _ => .error (.invalidContent s!"message content entry {index} must be an object")

def contentEntries : Nat → List Json → Except DecodeError (String × List ContentPart)
  | _, [] => .ok ("", [])
  | index, entry :: rest => do
    let (text, parts) ← contentEntry index entry
    let (texts, more) ← contentEntries (index + 1) rest
    pure (text ++ texts, parts ++ more)

def contentToParts : Json → Except DecodeError (String × List ContentPart)
  | .null => .ok ("", [])
  | .str content => .ok (content, [])
  | .arr entries => contentEntries 0 entries
  | _ => .error (.invalidContent "message content must be a string or an array of parts")

def toMessage (item : WireMessage) : Except DecodeError Message := do
  let (text, parts) ← contentToParts item.content
  pure ⟨item.role, text, item.toolCallID, item.toolCalls, "", parts⟩

def knownFields : List String :=
  ["model", "messages", "stream", "max_tokens", "temperature", "top_p", "stop", "tools",
    "tool_choice", "response_format"]

/-- The fields of a body that the format knows. -/
structure ChatRequest where
  model : String
  messages : List WireMessage
  stream : Bool
  maxTokens : Option Int
  (temperature topP : Option Json)
  stop : List String
  tools : List Tool
  (toolChoice responseFormat : Option Json)

def readChatRequest (raw : Assoc String Json) : Except DecodeError ChatRequest := do
  let model ← known raw "model" "" "" (·.unmarshalString "")
  let messages ← known raw "messages" "" []
    (·.unmarshalList (·.unmarshalRecord (messageFields codec) ⟨"", .null, "", []⟩))
  let stream ← known raw "stream" "" false (·.unmarshalBool false)
  let maxTokens ← known raw "max_tokens" "" none (·.unmarshalPointer (·.unmarshalInt 0))
  let temperature ← known raw "temperature" "" none
    (·.unmarshalPointer (·.unmarshalFloat codec.float))
  let topP ← known raw "top_p" "" none (·.unmarshalPointer (·.unmarshalFloat codec.float))
  let stop ← known raw "stop" "" [] unmarshalStringList
  let tools ← known raw "tools" "decode tools: " []
    (·.unmarshalList (·.unmarshalRecord toolFields ⟨"", ⟨"", "", none⟩⟩))
  pure ⟨model, messages, stream, maxTokens, temperature, topP, stop, tools,
    raw.lookup "tool_choice", raw.lookup "response_format"⟩

/-- The request that the fields come to. -/
def ChatRequest.toRequest (wire : ChatRequest) (messages : List Message)
    (parameters : Assoc String Json) : UnifiedRequest where
  kind := .chat
  model := wire.model
  stream := wire.stream
  chat := some ⟨messages, wire.maxTokens, wire.temperature, wire.topP, wire.stop, wire.tools,
    wire.toolChoice, wire.responseFormat⟩
  tool := none
  file := none
  parameters := parameters

def decodeChat (body : Json) : Except DecodeError UnifiedRequest := do
  let raw ← body.unmarshalMap.elim (.error (.json "decode OpenAI chat request: ")) .ok
  let wire ← readChatRequest codec raw
  if wire.model = "" ∨ wire.messages = [] then
    throw (.required "model and messages are required")
  let messages ← wire.messages.mapM toMessage
  pure (wire.toRequest messages (extras raw knownFields))

/-! ### Writing a request -/

/-- A part that is an image with a place to load it from. -/
def imageEntry (part : ContentPart) : Option Json :=
  let location := if part.dataURL = "" then part.url else part.dataURL
  if part.kind ≠ .image ∨ location = "" then none
  else some (.obj [("type", .str "image_url"), ("image_url", .obj [("url", .str location)])])

def contentValue (content : String) (parts : List ContentPart) : Json :=
  let text := if content = "" then []
    else [Json.obj [("type", .str "text"), ("text", .str content)]]
  let entries := text ++ parts.filterMap imageEntry
  if parts = [] ∨ entries = [] then .str content else .arr entries

def encodeToolCall (call : ToolCall) : Json :=
  .obj (omitempty "id" call.id ++ omitempty "type" call.type ++
    [("function", .obj (omitempty "name" call.function.name ++
      omitempty "arguments" call.function.arguments))])

def encodeMessage (item : Message) : Json :=
  .obj ([("role", .str item.role), ("content", contentValue item.content item.parts)] ++
    omitempty "tool_call_id" item.toolCallID ++
    if item.toolCalls = [] then [] else [("tool_calls", .arr (item.toolCalls.map encodeToolCall))])

def encodeTool (tool : Tool) : Json :=
  .obj [("type", .str tool.type),
    ("function", .obj ([("name", .str tool.function.name)] ++
      omitempty "description" tool.function.description ++
      tool.function.parameters.toList.map ("parameters", ·)))]

/-- The body, before the fields that the format does not know. -/
def chatWire (r : UnifiedRequest) (chat : ChatPayload) : Assoc String Json :=
  let wire := Assoc.empty.insert "model" (.str r.model)
    |>.insert "messages" (.arr (chat.messages.map encodeMessage))
    |>.insert "stream" (.bool r.stream)
  let wire := insertSome wire "max_tokens" (chat.maxOutputTokens.map .num)
  let wire := insertSome wire "temperature" chat.temperature
  let wire := insertSome wire "top_p" chat.topP
  let wire := insertItems wire "stop" (chat.stop.map .str)
  let wire := insertItems wire "tools" (chat.tools.map encodeTool)
  let wire := insertSome wire "tool_choice" (chat.toolChoice.bind (·.unmarshalAny codec.float))
  insertSome wire "response_format" (chat.responseFormat.bind (·.unmarshalAny codec.float))

def encodeChat (r : UnifiedRequest) : Except EncodeError Json :=
  match r.chat with
  | none => .error (.invalid "chat payload is required")
  | some chat => do
    let wire ← mergeParameters codec (chatWire codec r chat) r.parameters
    pure (.obj wire.entries)

end LiteAIG.Protocol.OpenAI
