/-
What is recorded of the usage that a provider reports.

An input count of OpenAI contains the cached tokens, and pricing adds them once more:
a hit is never cheaper than a miss, and dearer unless input is free.  Of a stream of
Anthropic the last usage at the top level of an event is all that is left, and the
counts inside `message_start` are not there.
-/
import LiteAIG.Finops.Usage

namespace LiteAIG.Finops

/-! ### Cached tokens -/

/-- Of a published rate up to the input rate, what is charged is zero only with the input rate. -/
theorem orInput_pos_iff {r : Rate}
    (h1 : r.cacheReadPerMillion ≤ r.inputPerMillion) :
    0 < r.orInput r.cacheReadPerMillion ↔ 0 < r.inputPerMillion := by
  unfold Rate.orInput
  split_ifs with hp
  · exact Iff.rfl
  · have hr := not_le.mp hp
    exact iff_of_true hr (hr.trans_le h1)

/-- **When a hit is not dearer than a miss.**  Where the cache rate is at most the input rate, a
usage with cached tokens costs at most what it costs without them exactly if there are none, or
input is free. -/
theorem hit_not_dearer_iff {version : List Rate} {model : String} {r : Rate}
    (hv : rate version model "USD" = some r) (h0 : 0 ≤ r.cacheReadPerMillion)
    (h1 : r.cacheReadPerMillion ≤ r.inputPerMillion) (usage : OpenAIUsage)
    (hc : 0 ≤ usage.cachedTokens) :
    ∃ hit miss, providerCost version model usage.toUnifiedUsage = some hit ∧
      providerCost version model { usage with cachedTokens := 0 }.toUnifiedUsage = some miss ∧
      (hit ≤ miss ↔ usage.cachedTokens = 0 ∨ r.inputPerMillion = 0) := by
  simp only [providerCost, priceCached, OpenAIUsage.toUnifiedUsage, hv, Option.map_some]
  refine ⟨_, _, rfl, rfl, ?_⟩
  simp only [Int.cast_zero, zero_div, zero_mul, add_zero, add_le_iff_nonpos_right]
  have hr := orInput_pos_iff h1
  constructor
  · intro hle
    by_contra hn
    obtain ⟨hn, hi⟩ := not_or.mp hn
    have hp := hr.mpr (lt_of_le_of_ne (h0.trans h1) (Ne.symm hi))
    have hk : (0 : ℚ) < usage.cachedTokens := by exact_mod_cast lt_of_le_of_ne hc (Ne.symm hn)
    exact hle.not_gt (by positivity)
  · rintro (hz | hi)
    · simp [hz]
    · have hk : (0 : ℚ) ≤ usage.cachedTokens := by exact_mod_cast hc
      have hp := not_lt.mp fun hp => (hr.mp hp).ne' hi
      exact mul_nonpos_of_nonneg_of_nonpos (by positivity) hp

theorem free_input_hit : ∃ hit miss,
    providerCost [⟨"m", "USD", 0, 8, 0, 0⟩] "m"
      (OpenAIUsage.toUnifiedUsage ⟨3, 1, 2, 0⟩) = some hit ∧
      providerCost [⟨"m", "USD", 0, 8, 0, 0⟩] "m" (OpenAIUsage.toUnifiedUsage ⟨3, 1, 0, 0⟩)
        = some miss ∧ hit ≤ miss := by
  obtain ⟨hit, miss, hh, hm, hi⟩ := hit_not_dearer_iff
    (show rate [⟨"m", "USD", 0, 8, 0, 0⟩] "m" "USD" = some _ from rfl) le_rfl le_rfl ⟨3, 1, 2, 0⟩
    (by decide)
  exact ⟨hit, miss, hh, hm, hi.mpr (.inr rfl)⟩

/-- The list of one model whose cached input is half the price. -/
def halfPrice : List Rate := [⟨"m", "USD", 2, 8, 1, 0⟩]

/-- A prompt of a million tokens costs 2, and 3 if all of them are cached. -/
theorem cached_prompt_dearer :
    providerCost halfPrice "m" (OpenAIUsage.toUnifiedUsage ⟨1000000, 0, 0, 0⟩) = some 2 ∧
      providerCost halfPrice "m" (OpenAIUsage.toUnifiedUsage ⟨1000000, 0, 1000000, 0⟩) =
        some 3 := by
  decide +kernel

/-! ### Streams -/

/-- The events of a whole stream: its start, content and deltas in any order, the last delta,
content, and the stop. -/
def wholeStream (start : AnthropicUsage) (events : List AnthropicEvent) (last : AnthropicUsage)
    (pings : Nat) : List AnthropicEvent :=
  .messageStart start :: events ++ .messageDelta last :: List.replicate pings .content ++
    [.messageStop]

theorem foldl_content (n : Nat) (usage : Option UnifiedUsage) :
    (List.replicate n AnthropicEvent.content).foldl
      (fun u event => (normalizeUsage event).or u) usage
      = usage := by
  induction n with
  | zero => rfl
  | succ n ih => exact ih

/-- The usage of the last delta is what is collected. -/
theorem collectedUsage_wholeStream (start last : AnthropicUsage) (events : List AnthropicEvent)
    (pings : Nat) : collectedUsage (wholeStream start events last pings) = last.toUnifiedUsage := by
  simp only [collectedUsage, wholeStream, List.foldl_append, List.foldl_cons, foldl_content]
  rfl

/-- **What is recorded of the usage of a stream.**  The output of the last delta always; the input
and cache counts of the start exactly if the last delta repeats them. -/
theorem stream_usage_iff (start last : AnthropicUsage) (events : List AnthropicEvent)
    (pings : Nat) :
    collectedUsage (wholeStream start events last pings)
        = { start with outputTokens := last.outputTokens }.toUnifiedUsage ↔
      last.inputTokens = start.inputTokens ∧
        last.cacheCreationInputTokens = start.cacheCreationInputTokens ∧
        last.cacheReadInputTokens = start.cacheReadInputTokens := by
  rw [collectedUsage_wholeStream]
  simp only [AnthropicUsage.toUnifiedUsage, UnifiedUsage.mk.injEq]
  tauto

/-- The ten input tokens of the start are not recorded. -/
theorem start_usage_lost :
    collectedUsage (wholeStream ⟨10, 1, 0, 0⟩ [.content] ⟨0, 5, 0, 0⟩ 0) = ⟨0, 5, 0, 0, 0, 0⟩ := by
  decide

end LiteAIG.Finops
