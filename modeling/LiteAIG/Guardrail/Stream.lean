/-
The streaming guard: three tiers over the text deltas of one response.

Layer 1 evaluates a rolling window of the recent bytes on every delta and cuts the
stream on a block.  Layer 2 holds text back until a release condition and hands
out the evaluated window.  Layer 3 is asynchronous: all that reaches `Write` of it
is whether a late violation has stopped the stream by then, so that answer is an
input of the call.  What the call reports outside (security events, windows
submitted to Layer 3) is recorded in the state.
-/
import LiteAIG.Guardrail.Engine

namespace LiteAIG.Guardrail

structure BlockError where
  message : String
  deriving DecidableEq

/-! ### Words

`strings.Fields` splits around white space as Unicode defines it.  A lead byte of
a multi-byte character is never part of the character before it, so looking for
the encodings of the white space characters at every byte finds the same ones as
decoding the text does.
-/

/-- How many bytes of white space start here; zero when the next character is none. -/
def spaceWidth : Text → Nat
  | 0xC2 :: 0x85 :: _ => 2
  | 0xC2 :: 0xA0 :: _ => 2
  | 0xE1 :: 0x9A :: 0x80 :: _ => 3
  | 0xE2 :: 0x80 :: b :: _ =>
    if (0x80 ≤ b ∧ b ≤ 0x8A) ∨ b = 0xA8 ∨ b = 0xA9 ∨ b = 0xAF then 3 else 0
  | 0xE2 :: 0x81 :: 0x9F :: _ => 3
  | 0xE3 :: 0x80 :: 0x80 :: _ => 3
  | b :: _ => if (0x09 ≤ b ∧ b ≤ 0x0D) ∨ b = 0x20 then 1 else 0
  | [] => 0

/-- Count the words from here; `inWord` says whether the byte before was part of one. -/
def fieldsFrom : Bool → Nat → Text → Nat
  | _, _, [] => 0
  | inWord, skip + 1, _ :: rest => fieldsFrom inWord skip rest
  | inWord, 0, b :: rest =>
    match spaceWidth (b :: rest) with
    | 0 => (if inWord then 0 else 1) + fieldsFrom true 0 rest
    | width + 1 => fieldsFrom false width rest

/-- `len(strings.Fields(value))`. -/
def fields (value : Text) : Nat := fieldsFrom false 0 value

/-- The characters that end a sentence or a line. -/
def boundaries : Text := ascii ".!?\n"

/-! ### Layer 1 -/

structure InlineStreamGuard where
  engine : Engine
  window : Text
  windowBytes : Nat

def InlineStreamGuard.new (engine : Engine) (windowBytes : Int) : InlineStreamGuard :=
  ⟨engine, [], if windowBytes ≤ 0 then 256 else windowBytes.toNat⟩

/-- Evaluate the window together with the chunk, and keep the last bytes of both. -/
def InlineStreamGuard.evaluate (sum : Text → Text) (g : InlineStreamGuard) (chunk : Text) :
    Result × InlineStreamGuard :=
  let combined := g.window ++ chunk
  let window := if combined.length > g.windowBytes then
      combined.drop (combined.length - g.windowBytes)
    else combined
  (g.engine.evaluate sum combined, { g with window })

/-! ### Layer 2 -/

structure BufferedStreamGuard where
  engine : Engine
  buffer : Text
  maxTokens : Nat

def BufferedStreamGuard.new (engine : Engine) (maxTokens : Int) : BufferedStreamGuard :=
  ⟨engine, [], if maxTokens ≤ 0 then 64 else maxTokens.toNat⟩

/-- The release condition: the chunk has a boundary character anywhere in it, or the
buffer has enough words. -/
def releases (maxTokens : Nat) (chunk value : Text) : Bool :=
  chunk.any (· ∈ boundaries) || decide (maxTokens ≤ fields value)

/-- Add a chunk; on release, evaluate the whole buffer and start a new one. -/
def BufferedStreamGuard.push (sum : Text → Text) (g : BufferedStreamGuard) (chunk : Text) :
    (Result × Bool) × BufferedStreamGuard :=
  let value := g.buffer ++ chunk
  if releases g.maxTokens chunk value then
    ((g.engine.evaluate sum value, true), { g with buffer := [] })
  else ((Result.empty, false), { g with buffer := value })

/-- Evaluate what is held, boundary or not. -/
def BufferedStreamGuard.flush (sum : Text → Text) (g : BufferedStreamGuard) :
    Result × BufferedStreamGuard :=
  if g.buffer = [] then (Result.empty, { g with buffer := [] })
  else (g.engine.evaluate sum g.buffer, { g with buffer := [] })

/-! ### The three tiers together -/

structure StreamGuard where
  inline : InlineStreamGuard
  buffered : BufferedStreamGuard
  /-- Whether a Layer 3 provider is configured. -/
  shadow : Bool
  stopped : Bool
  /-- Matches reported to the event stores. -/
  emitted : List Match
  /-- Windows handed to Layer 3. -/
  submitted : List Text

structure StreamGuardConfig where
  engine : Engine
  (windowBytes bufferTokens : Int)
  external : Bool

def StreamGuard.new (cfg : StreamGuardConfig) : StreamGuard where
  inline := InlineStreamGuard.new cfg.engine cfg.windowBytes
  buffered := BufferedStreamGuard.new cfg.engine cfg.bufferTokens
  shadow := cfg.external
  stopped := false
  emitted := []
  submitted := []

/-- Released content goes to Layer 3, when there is one and there is content. -/
def StreamGuard.submitReleased (g : StreamGuard) (released : Text) : StreamGuard :=
  if g.shadow = false ∨ released = [] then g
  else { g with submitted := g.submitted ++ [released] }

def StreamGuard.emitMatches (g : StreamGuard) (result : Result) : StreamGuard :=
  { g with emitted := g.emitted ++ result.hits }

/-- Layers 2 of `Write`, after the inline guard let the delta pass. -/
def StreamGuard.deliver (sum : Text → Text) (g : StreamGuard) (delta : Text) (final : Bool) :
    Text × StreamGuard :=
  let ((result, release), buffered) := g.buffered.push sum delta
  let g := { g with buffered }
  if final then
    let (result, buffered) := g.buffered.flush sum
    let g := { g with buffered }.emitMatches result
    (result.content, g.submitReleased result.content)
  else if release then
    let g := g.emitMatches result
    (result.content, g.submitReleased result.content)
  else ([], g)

/-- One text delta.  `allow` is what Layer 3 answers when it is asked. -/
def StreamGuard.write (sum : Text → Text) (g : StreamGuard) (allow : Bool) (delta : Text)
    (final : Bool) : Except BlockError Text × StreamGuard :=
  if g.stopped then (.error ⟨"stream stopped"⟩, g)
  else if g.shadow && !allow then
    (.error ⟨"stream cut by retroactive guardrail"⟩, { g with stopped := true })
  else if delta = [] then
    let (text, g) := g.deliver sum delta final
    (.ok text, g)
  else
    let (result, inline) := g.inline.evaluate sum delta
    let g := { g with inline }
    if result.blocked then
      (.error ⟨"stream blocked by inline guardrail"⟩,
        { g.emitMatches result with stopped := true })
    else
      let (text, g) := g.deliver sum delta final
      (.ok text, g)

/-- The clean end of a stream. -/
def StreamGuard.stop (g : StreamGuard) : StreamGuard := { g with stopped := true }

/-- One call of `Write`: the delta, and Layer 3's answer at that moment. -/
structure Call where
  delta : Text
  allow : Bool

/-- Feed deltas that are not final, collecting what each call returns. -/
def StreamGuard.feed (sum : Text → Text) (g : StreamGuard) :
    List Call → List (Except BlockError Text) × StreamGuard
  | [] => ([], g)
  | call :: rest =>
    let (r, g) := g.write sum call.allow call.delta false
    let (rs, g) := g.feed sum rest
    (r :: rs, g)

/-- A whole stream: the calls before the last one, and the last one, which is final. -/
def StreamGuard.stream (sum : Text → Text) (g : StreamGuard) (calls : List Call) (last : Call) :
    List (Except BlockError Text) :=
  let (rs, g) := g.feed sum calls
  rs ++ [(g.write sum last.allow last.delta true).1]

/-- What a call delivers to the client; an error delivers nothing. -/
def delivered : Except BlockError Text → Text
  | .ok text => text
  | .error _ => []

end LiteAIG.Guardrail
