/-
Tool calls in a stream.

A provider sends a tool call in pieces, each with some of the arguments.  The
collector hands the text of a chunk to the guard and puts what comes back in its
place; the pieces of tool calls stay in the chunk as they are, and go to the client
with it.  A stream ends at the first chunk that the guard or the client refuses.
-/
import LiteAIG.Pipeline.Collector

namespace LiteAIG.Pipeline

open Guardrail

/-- A piece of a tool call. -/
structure ToolCallDelta where
  index : Int
  (id type name : String)
  arguments : Text

/-- A chunk with its pieces of tool calls; `index` is the choice it is about. -/
structure StreamChunk where
  event : StreamEvent
  index : Nat
  toolCallDeltas : List ToolCallDelta
  toolCallDeltas_eq : event.toolCallDeltas = !toolCallDeltas.isEmpty

/-- The pieces of a chunk, each with the choice it belongs to. -/
def StreamChunk.pieces (chunk : StreamChunk) : List (Nat × ToolCallDelta) :=
  chunk.toolCallDeltas.map (chunk.index, ·)

/-- The collector, and the pieces it has written to the client. -/
structure ToolCollector where
  collector : StreamCollector
  written : List (Nat × ToolCallDelta)

namespace ToolCollector

def new (guard : Option StreamGuard) : ToolCollector := ⟨.new guard, []⟩

/-- A chunk with pieces in it is always written, unless the guard stops it. -/
def writeChunk (sum : Text → Text) (c : ToolCollector) (chunk : StreamChunk) :
    Option Failure × ToolCollector :=
  match c.collector.writeChunk sum chunk.event with
  | (some err, collector) => (some err, { c with collector })
  | (none, collector) => (none, ⟨collector, c.written ++ chunk.pieces⟩)

def stream (sum : Text → Text) (c : ToolCollector) : List StreamChunk →
    Option Failure × ToolCollector
  | [] => (none, c)
  | chunk :: rest =>
    match c.writeChunk sum chunk with
    | (some err, c) => (some err, c)
    | (none, c) => c.stream sum rest

end ToolCollector

/-- The guard for a stream: there is one if the policy compiles and has rules. -/
def streamGuardFor (engine : Except Failure Engine) (external : Bool) : Option StreamGuard :=
  match engine with
  | .error _ => none
  | .ok engine => if engine.rules.isEmpty then none else some (.new ⟨engine, 0, 0, external⟩)

/-- The arguments of one tool call of a choice, put together from the pieces. -/
def argumentsOf (choice : Nat) (index : Int) (pieces : List (Nat × ToolCallDelta)) : Text :=
  (pieces.filter fun piece => piece.1 = choice ∧ piece.2.index = index).flatMap fun piece =>
    piece.2.arguments

end LiteAIG.Pipeline
