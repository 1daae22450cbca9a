/-
What the connector to an OpenAI provider returns of the upstream's answer.

Encoding the request and sending it are one answer from outside, and so are the
decoders of JSON bodies.  The body passes the reader of the client's transport first.
-/
import LiteAIG.Protocol.Interaction

namespace LiteAIG.Connectors.OpenAI

open LiteAIG.Protocol

/-- A body: its bytes, and the error that reading it ends with, if it does. -/
structure Body where
  bytes : List UInt8
  err : Option String

structure Response where
  statusCode : Int
  contentType : String
  body : Body

/-- A request's kind, and the operation of its payload. -/
structure Request where
  kind : RequestKind
  (audio file : Option String)

inductive Error
  | upstream (statusCode : Int) (retryable : Bool)
  | other (message : String)

structure AudioResult where
  data : List UInt8
  contentType : String

structure UnifiedResponse where
  rawContent : List UInt8
  audio : Option AudioResult

/-- `io.LimitReader`: at the limit it reports the end, without asking the body. -/
def Body.limitReader (body : Body) (limit : Int) : Body :=
  if limit ≤ body.bytes.length then ⟨body.bytes.take limit.toNat, none⟩ else body

/-- `boundedBodyTransport`, which the client of a policy with a limit has. -/
def roundTrip (maxResponseBytes : Int) (body : Body) : Body :=
  if 0 < maxResponseBytes then body.limitReader maxResponseBytes else body

/-- `io.ReadAll`. -/
def Body.readAll (body : Body) : Except Error (List UInt8) :=
  (body.err.map (.error <| .other ·)).getD (.ok body.bytes)

def decodeAudioSpeechResponse (body : Body) (contentType : String) : Except Error UnifiedResponse :=
  (fun data => ⟨data, some ⟨data, contentType⟩⟩) <$> body.readAll

def decodeFileContentResponse (body : Body) : Except Error UnifiedResponse :=
  (⟨·, none⟩) <$> body.readAll

/-- `Connector.Invoke`. -/
def invoke (decode : RequestKind → Body → Except Error UnifiedResponse) (maxResponseBytes : Int)
    (request : Request) (answer : Except Error Response) : Except Error UnifiedResponse := do
  let response ← answer
  let body := roundTrip maxResponseBytes response.body
  if response.statusCode < 200 ∨ response.statusCode ≥ 300 then
    throw (.upstream response.statusCode (response.statusCode = 429 ∨ response.statusCode ≥ 500))
  match request.kind with
  | .audio =>
    if request.audio = some "speech" then decodeAudioSpeechResponse body response.contentType
    else decode .audio body
  | .file =>
    if request.file = some "" ∨ request.file = some "content" then decodeFileContentResponse body
    else decode .file body
  | .tool => throw (.other "unsupported OpenAI request kind")
  | kind => decode kind body

end LiteAIG.Connectors.OpenAI
