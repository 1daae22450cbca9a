/-
The usage that providers report, and what it is priced at.

OpenAI reports it in one object, Anthropic in the events of a stream: the input and
cache counts inside the message of `message_start`, the output so far beside each
`message_delta`.  Amounts are rationals where the source has floats.
-/
import Mathlib

namespace LiteAIG.Finops

/-- The normalized usage; its source tag is left out. -/
structure UnifiedUsage where
  inputTokens : Int
  (outputTokens cacheReadTokens cacheWriteTokens cachedInputTokens reasoningTokens : Int)
  deriving DecidableEq

def UnifiedUsage.zero : UnifiedUsage := ⟨0, 0, 0, 0, 0, 0⟩

/-! ### OpenAI -/

/-- The usage object of an answer, without the total. -/
structure OpenAIUsage where
  (promptTokens completionTokens cachedTokens reasoningTokens : Int)

def OpenAIUsage.toUnifiedUsage (usage : OpenAIUsage) : UnifiedUsage where
  inputTokens := usage.promptTokens
  outputTokens := usage.completionTokens
  cacheReadTokens := usage.cachedTokens
  cacheWriteTokens := 0
  cachedInputTokens := usage.cachedTokens
  reasoningTokens := usage.reasoningTokens

/-! ### Pricing -/

structure Rate where
  (model currency : String)
  (inputPerMillion outputPerMillion cacheReadPerMillion cacheWritePerMillion : ℚ)

variable (version : List Rate)

def rate (model currency : String) : Option Rate :=
  version.find? fun rate => rate.model = model ∧ rate.currency = currency

/-- A cache rate, or the input rate where none is published. -/
def Rate.orInput (rate : Rate) (published : ℚ) : ℚ :=
  if published ≤ 0 then rate.inputPerMillion else published

/-- `PriceCached`, or none where the version has no rate. -/
def priceCached (model currency : String)
    (inputTokens outputTokens cacheReadTokens cacheWriteTokens : Int) : Option ℚ :=
  (rate version model currency).map fun rate =>
    inputTokens / 1000000 * rate.inputPerMillion + outputTokens / 1000000 * rate.outputPerMillion +
      cacheReadTokens / 1000000 * rate.orInput rate.cacheReadPerMillion +
      cacheWriteTokens / 1000000 * rate.orInput rate.cacheWritePerMillion

/-- The provider cost that `finalize` records for a deployment of the model. -/
def providerCost (upstreamModel : String) (usage : UnifiedUsage) : Option ℚ :=
  priceCached version upstreamModel "USD" usage.inputTokens usage.outputTokens
    usage.cacheReadTokens usage.cacheWriteTokens

/-! ### Anthropic streams -/

structure AnthropicUsage where
  (inputTokens outputTokens cacheCreationInputTokens cacheReadInputTokens : Int)

def AnthropicUsage.toUnifiedUsage (usage : AnthropicUsage) : UnifiedUsage where
  inputTokens := usage.inputTokens
  outputTokens := usage.outputTokens
  cacheReadTokens := usage.cacheReadInputTokens
  cacheWriteTokens := usage.cacheCreationInputTokens
  cachedInputTokens := usage.cacheReadInputTokens
  reasoningTokens := 0

/-- An event of a stream, with the usage where the provider puts it. -/
inductive AnthropicEvent
  | messageStart (messageUsage : AnthropicUsage)
  /-- The start, a delta or the stop of a content block, or a ping. -/
  | content
  | messageDelta (usage : AnthropicUsage)
  | messageStop

/-- What unmarshalling into `StreamResponse` reads: a usage at the top level of the event. -/
def AnthropicEvent.usage : AnthropicEvent → Option AnthropicUsage
  | .messageDelta usage => some usage
  | .messageStart _ | .content | .messageStop => none

/-- The usage of the event that `NormalizeStream` makes. -/
def normalizeUsage (event : AnthropicEvent) : Option UnifiedUsage :=
  event.usage.map AnthropicUsage.toUnifiedUsage

/-- The usage of the assembled response: the collector keeps the last one that an event has. -/
def collectedUsage (events : List AnthropicEvent) : UnifiedUsage :=
  (events.foldl (fun usage event => (normalizeUsage event).or usage) none).getD .zero

end LiteAIG.Finops
