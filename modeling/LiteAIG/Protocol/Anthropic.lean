/-
The Anthropic Messages format.

A message of the client is a string or a list of blocks, and blocks that the gateway
cannot read are passed over.  Text blocks are joined by line ends, tool uses become
tool calls whose arguments are the text of their input, and every tool result becomes
a message of its own.  Writing goes the other way: the last system message becomes the
`system` field, and a message is written as blocks if a string cannot hold it.
-/
import LiteAIG.Protocol.Interaction

namespace LiteAIG.Protocol.Anthropic

open Lib

/-! ### Reading a request -/

structure ImageSource where
  (type mediaType data url : String)

structure ContentBlock where
  (type text id name : String)
  input : Option Json
  toolUseID : String
  content : Json
  isError : Bool
  cacheControl : Option String
  source : Option ImageSource

def ContentBlock.zero : ContentBlock := ⟨"", "", "", "", none, "", .null, false, none, none⟩

def imageSourceFields : List (Json.Field ImageSource) :=
  [stringField "type" (·.type) fun s type => { s with type },
    stringField "media_type" (·.mediaType) fun s mediaType => { s with mediaType },
    stringField "data" (·.data) fun s data => { s with data },
    stringField "url" (·.url) fun s url => { s with url }]

def contentBlockFields (codec : Codec) : List (Json.Field ContentBlock) :=
  [stringField "type" (·.type) fun b type => { b with type },
    stringField "text" (·.text) fun b text => { b with text },
    stringField "id" (·.id) fun b id => { b with id },
    stringField "name" (·.name) fun b name => { b with name },
    ⟨"input", fun j b => some { b with input := some j }⟩,
    stringField "tool_use_id" (·.toolUseID) fun b toolUseID => { b with toolUseID },
    ⟨"content", fun j b => (j.unmarshalAny codec.float).map fun content => { b with content }⟩,
    ⟨"is_error", fun j b => (j.unmarshalBool b.isError).map fun isError => { b with isError }⟩,
    ⟨"cache_control", fun j b =>
      (j.unmarshalPointer (·.unmarshalRecord [stringField "type" id fun _ type => type] "")).map
        fun cacheControl => { b with cacheControl }⟩,
    ⟨"source", fun j b =>
      (j.unmarshalPointer (·.unmarshalRecord imageSourceFields ⟨"", "", "", ""⟩)).map
        fun source => { b with source }⟩]

/-- A block, as far as it can be read. -/
def decodeBlock (codec : Codec) (raw : Json) : Option ContentBlock :=
  raw.unmarshalRecord (contentBlockFields codec) .zero

/-- Go on with a text on a new line. -/
def joinLine (content text : String) : String :=
  if content = "" then text else content ++ "\n" ++ text

/-- The marker of a block, or else the one there was. -/
def cacheMarker (block : ContentBlock) (cache : String) : String :=
  match block.cacheControl with
  | some type => if type = "" then cache else type
  | none => cache

def systemBlock (codec : Codec) (acc : String × String) (raw : Json) : String × String :=
  match decodeBlock codec raw with
  | some block =>
    if block.type = "text" then (joinLine acc.1 block.text, cacheMarker block acc.2) else acc
  | none => acc

def decodeSystem (codec : Codec) : Json → Option Message
  | .str text => if text = "" then none else some ⟨"system", text, "", [], "", []⟩
  | .arr blocks =>
    let (content, cache) := blocks.foldl (systemBlock codec) ("", "")
    if content = "" then none else some ⟨"system", content, "", [], cache, []⟩
  | _ => none

def toolResultText (codec : Codec) (block : ContentBlock) : String :=
  match block.content with
  | .str text => text
  | .arr list =>
    "\n".intercalate (list.filterMap fun raw => do
      let part ← decodeBlock codec raw
      if part.type = "text" then some part.text else none)
  | _ => ""

/-- The messages that a message has come to so far, and the one that is being put together. -/
structure Decoding where
  out : List Message
  current : Message

def freshMessage (role : String) : Message := ⟨role, "", "", [], "", []⟩

/-- A message without a role is dropped. -/
def Decoding.flush (d : Decoding) (role : String) : Decoding :=
  ⟨if d.current.role = "" then d.out else d.out ++ [d.current], freshMessage role⟩

def imagePart (source : ImageSource) : List ContentPart :=
  if source.type = "base64" then
    [⟨.image, source.mediaType, "data:" ++ source.mediaType ++ ";base64," ++ source.data, ""⟩]
  else if source.type = "url" then [⟨.image, "", "", source.url⟩]
  else []

/-- The text of a raw value; it is empty if there is none. -/
def rawText (raw : Option Json) : String := raw.elim "" fun j => String.ofList j.render

def Decoding.block (codec : Codec) (role : String) (d : Decoding) (raw : Json) : Decoding :=
  match decodeBlock codec raw with
  | none => d
  | some block =>
    if block.type = "text" then
      { d with current :=
        { d.current with
          content := joinLine d.current.content block.text
          cacheControl := cacheMarker block d.current.cacheControl } }
    else if block.type = "tool_use" then
      { d with current :=
        { d.current with
          toolCalls := d.current.toolCalls ++
            [⟨block.id, "function", block.name, rawText block.input⟩] } }
    else if block.type = "image" then
      { d with current :=
        { d.current with parts := d.current.parts ++ block.source.elim [] imagePart } }
    else if block.type = "tool_result" then
      let d := d.flush role
      { d with out := d.out ++ [⟨"tool", toolResultText codec block, block.toolUseID, [], "", []⟩] }
    else d

structure WireMessage where
  role : String
  content : Json

def decodeMessage (codec : Codec) (item : WireMessage) : List Message :=
  match item.content with
  | .arr blocks =>
    ((blocks.foldl (Decoding.block codec item.role) ⟨[], freshMessage item.role⟩).flush
      item.role).out
  | .str text => [⟨item.role, text, "", [], "", []⟩]
  | _ => [freshMessage item.role]

def messageFields (codec : Codec) : List (Json.Field WireMessage) :=
  [stringField "role" (·.role) fun m role => { m with role },
    ⟨"content", fun j m => (j.unmarshalAny codec.float).map fun content => { m with content }⟩]

def toolFields : List (Json.Field ToolFunction) :=
  [stringField "name" (·.name) fun f name => { f with name },
    stringField "description" (·.description) fun f description => { f with description },
    ⟨"input_schema", fun j f => some { f with parameters := some j }⟩]

def knownFields : List String :=
  ["model", "system", "messages", "max_tokens", "stream", "temperature", "top_p", "stop_sequences",
    "tools", "tool_choice"]

/-- The fields of a body that the format knows. -/
structure Request where
  model : String
  system : Json
  messages : List WireMessage
  maxTokens : Int
  stream : Bool
  (temperature topP : Option Json)
  stopSequences : List String
  tools : List ToolFunction
  toolChoice : Option Json

def readRequest (codec : Codec) (raw : Assoc String Json) : Except DecodeError Request := do
  let model ← known raw "model" "" "" (·.unmarshalString "")
  let system ← known raw "system" "" .null (·.unmarshalAny codec.float)
  let messages ← known raw "messages" "" []
    (·.unmarshalList (·.unmarshalRecord (messageFields codec) ⟨"", .null⟩))
  let maxTokens ← known raw "max_tokens" "" 0 (·.unmarshalInt 0)
  let stream ← known raw "stream" "" false (·.unmarshalBool false)
  let temperature ← known raw "temperature" "" none
    (·.unmarshalPointer (·.unmarshalFloat codec.float))
  let topP ← known raw "top_p" "" none (·.unmarshalPointer (·.unmarshalFloat codec.float))
  let stopSequences ← known raw "stop_sequences" "" [] (·.unmarshalList (·.unmarshalString ""))
  let tools ← known raw "tools" "decode tools: " []
    (·.unmarshalList (·.unmarshalRecord toolFields ⟨"", "", none⟩))
  pure ⟨model, system, messages, maxTokens, stream, temperature, topP, stopSequences, tools,
    raw.lookup "tool_choice"⟩

/-- The request that the fields come to. -/
def Request.toRequest (codec : Codec) (wire : Request) (parameters : Assoc String Json) :
    UnifiedRequest where
  kind := .chat
  model := wire.model
  stream := wire.stream
  chat := some
    ⟨(decodeSystem codec wire.system).toList ++ wire.messages.flatMap (decodeMessage codec),
      some wire.maxTokens, wire.temperature, wire.topP, wire.stopSequences,
      wire.tools.map (⟨"function", ·⟩), wire.toolChoice, none⟩
  tool := none
  file := none
  parameters := parameters

def decodeMessages (codec : Codec) (body : Json) : Except DecodeError UnifiedRequest := do
  let raw ← body.unmarshalMap.elim (.error (.json "decode Anthropic request: ")) .ok
  let wire ← readRequest codec raw
  if wire.model = "" ∨ wire.maxTokens ≤ 0 ∨ wire.messages = [] then
    throw (.required "model, max_tokens, and messages are required")
  pure (wire.toRequest codec (extras raw knownFields))

/-! ### Writing a request -/

def textBlock (item : Message) : Json :=
  .obj ([("type", .str "text")] ++ omitempty "text" item.content ++
    if item.cacheControl = "" then []
    else [("cache_control", .obj [("type", .str item.cacheControl)])])

/-- Where a mark first occurs: what is before it and what is after. -/
def breakOn (mark : List Char) : List Char → Option (List Char × List Char)
  | [] => none
  | c :: rest =>
    if mark <+: c :: rest then some ([], (c :: rest).drop mark.length)
    else (breakOn mark rest).map fun split => (c :: split.1, split.2)

/-- A `data:` URI with a media type and a payload in base64. -/
def splitDataURL (dataURL : String) : Option (String × String) :=
  if "data:".toList <+: dataURL.toList then
    match breakOn ";base64,".toList (dataURL.toList.drop "data:".toList.length) with
    | some (mediaType, payload) =>
      if mediaType = [] then none else some (String.ofList mediaType, String.ofList payload)
    | none => none
  else none

def imageBlock (part : ContentPart) : Except EncodeError Json :=
  if part.kind ≠ .image ∨ part.dataURL = "" then
    .error (.invalid "anthropic upstream requires inline data-URL images")
  else
    match splitDataURL part.dataURL with
    | none => .error (.invalid "malformed image data URL")
    | some (mediaType, payload) =>
      let mediaType := if part.mediaType = "" then mediaType else part.mediaType
      if mediaType = "" then .error (.invalid "image part missing media type")
      else .ok (.obj [("type", .str "image"),
        ("source", .obj ([("type", .str "base64"), ("media_type", .str mediaType)] ++
          omitempty "data" payload))])

def messageBlocks (item : Message) : Except EncodeError (List Json) := do
  let images ← item.parts.mapM imageBlock
  pure ((if item.content = "" then [] else [textBlock item]) ++ images)

/-- A tool call; its arguments are the input if they are JSON. -/
def toolUseBlock (codec : Codec) (call : ToolCall) : Except EncodeError Json := do
  let input ←
    if call.function.arguments = "" then pure (.obj [])
    else (codec.parse call.function.arguments).elim (.error .json) .ok
  pure (.obj ([("type", .str "tool_use")] ++ omitempty "id" call.id ++
    omitempty "name" call.function.name ++ [("input", input)]))

def wireMessage (role : String) (content : Json) : Json :=
  .obj [("role", .str role), ("content", content)]

def encodeMessage (codec : Codec) (item : Message) : Except EncodeError Json :=
  if item.role = "tool" then
    pure (wireMessage "user" (.arr [.obj ([("type", .str "tool_result")] ++
      omitempty "tool_use_id" item.toolCallID ++ [("content", .str item.content)])]))
  else if item.toolCalls ≠ [] then do
    let blocks ← messageBlocks item
    let calls ← item.toolCalls.mapM (toolUseBlock codec)
    pure (wireMessage "assistant" (.arr (blocks ++ calls)))
  else if item.parts ≠ [] ∨ (item.cacheControl ≠ "" ∧ item.content ≠ "") then do
    let blocks ← messageBlocks item
    pure (wireMessage item.role (.arr blocks))
  else pure (wireMessage item.role (.str item.content))

/-- A prompt with a cache marker cannot be a string. -/
def systemValue (item : Message) : Json :=
  if item.cacheControl = "" then .str item.content else .arr [textBlock item]

/-- The system prompt and the messages.  A later system message replaces an earlier one. -/
def encodeItems (codec : Codec) : List Message → Except EncodeError (Option Json × List Json)
  | [] => .ok (none, [])
  | item :: rest =>
    if item.role = "system" then do
      let (system, messages) ← encodeItems codec rest
      pure (some (system.getD (systemValue item)), messages)
    else do
      let encoded ← encodeMessage codec item
      let (system, messages) ← encodeItems codec rest
      pure (system, encoded :: messages)

def encodeTool (codec : Codec) (tool : Tool) : Json :=
  .obj ([("name", .str tool.function.name)] ++ omitempty "description" tool.function.description ++
    (tool.function.parameters.bind (·.unmarshalAny codec.float)).toList.map ("input_schema", ·))

/-- What a `tool_choice` in the shape of the other format asks for. -/
structure NamedChoice where
  (type name : String)

def namedChoiceFields : List (Json.Field NamedChoice) :=
  [stringField "type" (·.type) fun c type => { c with type },
    ⟨"function", fun j c =>
      (j.unmarshalRecord [stringField "name" id fun _ name => name] c.name).map fun name =>
        { c with name }⟩]

def anthropicToolChoice (codec : Codec) (raw : Json) : Option Json :=
  match raw.unmarshalString "" with
  | some text =>
    if text = "auto" then some (.str "auto")
    else if text = "required" then some (.str "any")
    else none
  | none =>
    match raw.unmarshalRecord namedChoiceFields ⟨"", ""⟩ with
    | some named =>
      if named.type = "function" ∧ named.name ≠ "" then
        some (.obj [("type", .str "tool"), ("name", .str named.name)])
      else raw.unmarshalAny codec.float
    | none => raw.unmarshalAny codec.float

/-- The body, before the fields that the format does not know. -/
def messagesWire (codec : Codec) (r : UnifiedRequest) (chat : ChatPayload) (maxTokens : Int)
    (system : Option Json) (messages : List Json) : Assoc String Json :=
  let wire := Assoc.empty.insert "model" (.str r.model)
    |>.insert "max_tokens" (.num maxTokens)
    |>.insert "stream" (.bool r.stream)
  let wire := insertSome wire "system" system
  let wire := wire.insert "messages" (if messages = [] then .null else .arr messages)
  let wire := insertItems wire "tools" (chat.tools.map (encodeTool codec))
  let wire := insertSome wire "tool_choice" (chat.toolChoice.bind (anthropicToolChoice codec))
  let wire := insertSome wire "temperature" chat.temperature
  let wire := insertSome wire "top_p" chat.topP
  insertItems wire "stop_sequences" (chat.stop.map .str)

def encodeMessages (codec : Codec) (r : UnifiedRequest) : Except EncodeError Json :=
  match r.chat with
  | none => .error (.invalid "Anthropic chat and max tokens are required")
  | some chat =>
    match chat.maxOutputTokens with
    | none => .error (.invalid "Anthropic chat and max tokens are required")
    | some maxTokens => do
      let (system, messages) ← encodeItems codec chat.messages
      let wire ← mergeParameters codec
        (messagesWire codec r chat maxTokens system messages) r.parameters
      pure (.obj wire.entries)

end LiteAIG.Protocol.Anthropic
