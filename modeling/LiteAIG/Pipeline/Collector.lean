/-
The collector between the executor and the client of a stream.

Every chunk goes through it.  It keeps the last usage that a chunk reported, hands
the text to the streaming guard if there is one, and assembles the response from
what the guard released, which is also what the client gets.
-/
import LiteAIG.Pipeline.Request

namespace LiteAIG.Pipeline

open Guardrail

/-- A chunk of a stream.  The last two fields are answers from outside: whether Layer 3 of the
guard lets the stream go on, and the client's error when the chunk is written to it. -/
structure StreamEvent where
  delta : Text
  toolCallDeltas : Bool
  stopReason : String
  usage : Option UnifiedUsage
  (final allow : Bool)
  clientErr : Option Failure

structure StreamCollector where
  guard : Option StreamGuard
  content : Text
  usage : Option UnifiedUsage
  /-- The text written to the client. -/
  delivered : Text

def StreamCollector.new (guard : Option StreamGuard) : StreamCollector := ⟨guard, [], none, []⟩

variable (sum : Text → Text) (c : StreamCollector)

/-- The text that the guard lets through, or its error. -/
def StreamCollector.release (event : StreamEvent) :
    Except BlockError Text × StreamCollector :=
  match c.guard with
  | none => (.ok event.delta, c)
  | some guard =>
    let (result, guard) := guard.write sum event.allow event.delta event.final
    (result, { c with guard := some (if event.final && result.isOk then guard.stop else guard) })

def StreamCollector.writeChunk (event : StreamEvent) :
    Option Failure × StreamCollector :=
  let c := { c with usage := event.usage.or c.usage }
  match c.release sum event with
  | (.error err, c) => (some (.block err), c)
  | (.ok delivered, c) =>
    let c := { c with content := c.content ++ delivered }
    if delivered ≠ [] ∨ event.stopReason ≠ "" ∨ event.final ∨ event.toolCallDeltas then
      match event.clientErr with
      | some err => (some err, c)
      | none => (none, { c with delivered := c.delivered ++ delivered })
    else (none, c)

/-- The collector after the chunks of all attempts.  An error goes back to the provider's stream
that wrote the chunk; a later attempt writes to the same collector. -/
def StreamCollector.collect (events : List StreamEvent) : StreamCollector :=
  events.foldl (fun c event => (c.writeChunk sum event).2) c

/-- The assembled response; without any reported usage it has the zero usage. -/
def StreamCollector.response : UnifiedResponse :=
  ⟨none, [⟨c.content, []⟩], c.usage.getD .zero⟩

end LiteAIG.Pipeline
