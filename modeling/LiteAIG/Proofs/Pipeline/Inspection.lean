/-
Which texts of a client the input guardrail sees before a provider does.

The decoder, the guardrail and the encoder each walk over a request on their own.  The
guardrail stops at the contents of messages and the arguments of tool calls; the
encoders go on to the tools, to the names in tool calls and to the fields that the
client's format does not know, one of which is the system prompt of the other format.
A keyword in one of those places is sent unless something else stops the request.
-/
import LiteAIG.Pipeline.Input
import LiteAIG.Proofs.Guardrail.Blocking
import LiteAIG.Proofs.Protocol.Prompt

namespace LiteAIG.Protocol

open Lib Anthropic List

/-- The formats a client may speak. -/
inductive Format
  | openai | anthropic
  deriving DecidableEq

variable (codec : Codec)

def Format.decode : Format → Json → Except DecodeError UnifiedRequest
  | .openai => OpenAI.decodeChat codec
  | .anthropic => Anthropic.decodeMessages codec

/-- The connectors a request may be sent with. -/
inductive Connector
  | openai | anthropic
  deriving DecidableEq

def Connector.encode : Connector → UnifiedRequest → Except EncodeError Json
  | .openai => OpenAI.encodeChat codec
  | .anthropic => Anthropic.encodeMessages codec

def Connector.promptTexts : Connector → Json → List String
  | .openai => OpenAI.promptTexts
  | .anthropic => Anthropic.promptTexts

/-! ### What the decoders leave in a request -/

/-- What both decoders see to. -/
structure Decoded (r : UnifiedRequest) : Prop where
  chat : ∃ chat, r.chat = some chat
  tool : r.tool = none
  file : r.file = none
  messages : r.parameters.lookup "messages" = none
  tools : r.parameters.lookup "tools" = none

theorem lookup_extras {raw : Assoc String Json} {names : List String} {name : String}
    (h : name ∈ names ∨ raw.lookup name = none) : (extras raw names).lookup name = none := by
  induction names generalizing raw with
  | nil => simpa [extras] using h
  | cons key rest ih =>
    refine ih ?_
    by_cases hk : name = key
    · subst hk
      exact .inr Assoc.lookup_erase_self
    · rw [Assoc.lookup_erase_ne hk]
      exact h.imp (fun hm => (mem_cons.mp hm).resolve_left hk) id

variable {body : Json}

theorem Format.decoded {codec : Codec} {p : Format} {r : UnifiedRequest}
    (h : p.decode codec body = .ok r) : Decoded r := by
  cases p with
  | openai =>
    simp only [Format.decode, OpenAI.decodeChat, bind_eq_ok, throw_bind, ite_throw_eq_ok,
      pure_eq_ok] at h
    obtain ⟨raw, -, wire, -, -, messages, -, rfl⟩ := h
    exact ⟨⟨_, rfl⟩, rfl, rfl, lookup_extras (.inl (by decide)), lookup_extras (.inl (by decide))⟩
  | anthropic =>
    simp only [Format.decode, decodeMessages, bind_eq_ok, throw_bind, ite_throw_eq_ok,
      pure_eq_ok] at h
    obtain ⟨raw, -, wire, -, -, rfl⟩ := h
    exact ⟨⟨_, rfl⟩, rfl, rfl, lookup_extras (.inl (by decide)), lookup_extras (.inl (by decide))⟩

/-! ### What the connectors send -/

/-- The texts of the tools. -/
def toolTexts (r : UnifiedRequest) : List String :=
  r.tools.flatMap fun tool => [tool.function.name, tool.function.description]

/-- The prompt texts of a request that are neither the content of a message nor the arguments of a
tool call. -/
def Connector.unseen : Connector → UnifiedRequest → List String
  | .openai, r =>
    (r.messages.flatMap fun item => item.toolCalls.map fun call => call.function.name) ++
      toolTexts r
  | .anthropic, r =>
    ((r.parameters.lookup "system").elim [] fun value =>
      textsOf (value.unmarshalAny codec.float)) ++
    ((r.messages.filter fun item => item.role ≠ "system" ∧ item.role ≠ "tool").flatMap fun item =>
      item.toolCalls.flatMap fun call =>
        call.function.name :: (Anthropic.callInput codec call).elim [] Json.strings) ++
    toolTexts r

/-- The messages whose content is sent. -/
def Connector.conveyed : Connector → UnifiedRequest → List Message
  | .openai, r => r.messages
  | .anthropic, r =>
    (r.messages.filter fun item => item.role ≠ "system") ++
      if (r.parameters.lookup "system").isSome then []
      else (Anthropic.lastSystem r.messages).toList

/-- The requests that a connector can write. -/
structure Connector.Accepts (codec : Codec) (q : Connector) (r : UnifiedRequest) : Prop where
  parameters : ∀ e ∈ r.parameters.entries, ∃ value, e.2.unmarshalAny codec.float = some value
  maxTokens : q = .anthropic → ∃ chat n, r.chat = some chat ∧ chat.maxOutputTokens = some n
  messages : q = .anthropic → ∀ item ∈ r.messages, item.role ≠ "system" →
    Anthropic.Writable codec item

variable {codec : Codec} {q : Connector} {r : UnifiedRequest}

theorem Connector.exists_encode (hr : Decoded r) :
    (∃ body, q.encode codec r = .ok body) ↔ q.Accepts codec r := by
  obtain ⟨chat, hc⟩ := hr.chat
  have hm := UnifiedRequest.messages_eq hc
  cases q with
  | openai =>
    simp only [Connector.encode, OpenAI.encodeChat_eq_ok hc]
    constructor
    · rintro ⟨_, out, ho, -⟩
      exact ⟨exists_mergeParameters.mp ⟨out, ho⟩, by simp, by simp⟩
    · intro h
      obtain ⟨out, ho⟩ := exists_mergeParameters.mpr h.parameters
      exact ⟨_, out, ho, rfl⟩
  | anthropic =>
    simp only [Connector.encode, encodeMessages_eq_ok hc]
    constructor
    · rintro ⟨_, n, hn, system, messages, hi, out, ho, -⟩
      refine ⟨exists_mergeParameters.mp ⟨out, ho⟩, fun _ => ⟨chat, n, hc, hn⟩, fun _ => ?_⟩
      rw [hm]
      exact exists_encodeItems.mp ⟨_, hi⟩
    · intro h
      obtain ⟨chat', n, hch, hn⟩ := h.maxTokens rfl
      obtain rfl : chat = chat' := by simpa [hc] using hch
      have hw := h.messages rfl
      rw [hm] at hw
      obtain ⟨⟨system, messages⟩, hi⟩ := exists_encodeItems.mpr hw
      obtain ⟨out, ho⟩ := exists_mergeParameters.mpr h.parameters
      exact ⟨_, n, hn, system, messages, hi, out, ho, rfl⟩

/-- What is sent is one of the texts that nothing looks at, the content of a message, or, for one of
the connectors, the arguments of a tool call. -/
theorem Connector.mem_promptTexts {t : String} (ht : t ≠ "") (hr : Decoded r)
    (h : q.encode codec r = .ok body) :
    t ∈ q.promptTexts body ↔ t ∈ q.unseen codec r ∨ (∃ item ∈ q.conveyed r, t = item.content) ∨
      (q = .openai ∧ ∃ item ∈ r.messages, ∃ call ∈ item.toolCalls,
        t = call.function.arguments) := by
  obtain ⟨chat, hc⟩ := hr.chat
  have hm := UnifiedRequest.messages_eq hc
  have hto : t ∈ toolTexts r ↔
      ∃ tool ∈ chat.tools, t = tool.function.name ∨ t = tool.function.description := by
    simp [toolTexts, UnifiedRequest.tools, hc]
  cases q with
  | openai =>
    rw [Connector.promptTexts, OpenAI.mem_promptTexts ht hc hr.messages hr.tools h]
    simp only [Connector.unseen, Connector.conveyed, mem_append, hto, hm,
      mem_flatMap, List.mem_map, true_and]
    grind
  | anthropic =>
    have hi : ∀ call : ToolCall, t ∈ (callInput codec call).elim [] Json.strings ↔
        ∃ input, callInput codec call = some input ∧ t ∈ input.strings := by
      intro call
      cases callInput codec call <;> simp
    have hs : t ∈ systemTexts codec r ↔
        (t ∈ (r.parameters.lookup "system").elim [] fun value =>
          textsOf (value.unmarshalAny codec.float)) ∨
        ∃ item ∈ (if (r.parameters.lookup "system").isSome then []
          else (lastSystem r.messages).toList), t = item.content := by
      unfold systemTexts
      cases r.parameters.lookup "system" with
      | some value => simp
      | none => simp [eq_comm]
    rw [Connector.promptTexts, mem_promptTexts ht hc hr.messages hr.tools h, hs]
    simp only [Connector.unseen, Connector.conveyed, mem_append, hto, mem_flatMap,
      mem_filter, mem_cons, hi, decide_eq_true_eq, ← hm]
    grind

end LiteAIG.Protocol

namespace LiteAIG.Guardrail

/-- A keyword that blocks. -/
structure CompiledRule.BlocksKeyword (rule : CompiledRule) : Prop where
  keyword : rule.matcher = .keyword
  block : rule.action = .block

/-- A text in which nothing is found has no keyword in it. -/
theorem not_infix_of_quiet {sum : Text → Text} {engine : Engine} {text : Text}
    (h : (engine.evaluate sum text).hits = []) {rule : CompiledRule} (hr : rule ∈ engine.rules)
    (hk : rule.BlocksKeyword) : ¬ rule.pattern <:+: text := by
  simpa [CompiledRule.found, hk.keyword] using found_of_quiet h rule hr

end LiteAIG.Guardrail

namespace LiteAIG.Pipeline

open Guardrail Protocol
open Lib (utf8 textOfBytes Json)

variable (sum : Text → Text) (replace : Text → String) (codec : Codec) (engine : Engine)
  (requestID : String)

/-! ### What the guardrail lets pass -/

/-- A message that the engine lets pass. -/
structure Passes (item : Protocol.Message) : Prop where
  content : (engine.evaluate sum (utf8 item.content)).blocked = false
  arguments : ∀ call ∈ item.toolCalls, call.function.arguments ≠ "" →
    (engine.evaluate sum (utf8 call.function.arguments)).hits = []

/-- A message as it comes out. -/
def guarded (item : Protocol.Message) : Protocol.Message :=
  { item with content := guardedContent sum replace engine item }

/-- A request as it comes out. -/
def guardedRequest (r : Protocol.UnifiedRequest) : Protocol.UnifiedRequest :=
  { r with chat := r.chat.map fun chat =>
      { chat with messages := chat.messages.map (guarded sum replace engine) } }

section

variable {sum replace engine requestID}

theorem handleMatches_eq_none (text : Text) :
    handleMatches requestID (engine.evaluate sum text) = none ↔
      (engine.evaluate sum text).blocked = false := by
  unfold handleMatches
  by_cases hb : (engine.evaluate sum text).blocked = true
  · -- what is blocked has a hit
    have hh : (engine.evaluate sum text).hits ≠ [] := by
      intro hn
      rw [evaluate_quiet hn] at hb
      cases hb
    simp [hb, hh]
  · simp [hb]

theorem guardCalls_eq_none {calls : List Protocol.ToolCall} :
    guardCalls sum engine requestID calls = none ↔ ∀ call ∈ calls, call.function.arguments ≠ "" →
        (engine.evaluate sum (utf8 call.function.arguments)).hits = [] := by
  induction calls with
  | nil => simp [guardCalls]
  | cons call rest ih =>
    rw [guardCalls, List.forall_mem_cons, ← ih]
    by_cases hs : call.function.arguments = "" ∨
        (engine.evaluate sum (utf8 call.function.arguments)).hits = []
    · rw [if_pos hs]
      exact (and_iff_right (fun hne => hs.resolve_left hne)).symm
    · obtain ⟨hne, hh⟩ := not_or.mp hs
      rw [if_neg hs]
      simp [hne, hh]

theorem guardMessage_eq_none {item : Protocol.Message} :
    (handleMatches requestID (engine.evaluate sum (utf8 item.content))).or
        (guardCalls sum engine requestID item.toolCalls) = none ↔ Passes sum engine item := by
  rw [Option.or_eq_none_iff, handleMatches_eq_none, guardCalls_eq_none]
  exact ⟨fun h => ⟨h.1, h.2⟩, fun h => ⟨h.content, h.arguments⟩⟩

variable {items : List Protocol.Message} {r : Protocol.UnifiedRequest}

theorem guardMessages_of_passes (h : ∀ item ∈ items, Passes sum engine item) :
    guardMessages sum replace engine requestID items =
      (none, items.map (guarded sum replace engine)) := by
  induction items with
  | nil => rfl
  | cons item rest ih =>
    obtain ⟨hi, hr⟩ := List.forall_mem_cons.mp h
    rw [guardMessages, guardMessage_eq_none.mpr hi, ih hr]
    rfl

theorem passes_of_guardMessages (h : (guardMessages sum replace engine requestID items).1 = none) :
    ∀ item ∈ items, Passes sum engine item := by
  induction items with
  | nil => simp
  | cons item rest ih =>
    rw [guardMessages] at h
    cases hi : (handleMatches requestID (engine.evaluate sum (utf8 item.content))).or
        (guardCalls sum engine requestID item.toolCalls) with
    | some err =>
      rw [hi] at h
      cases h
    | none =>
      rw [hi] at h
      exact List.forall_mem_cons.mpr ⟨guardMessage_eq_none.mp hi, ih h⟩

theorem handleInput_decoded (hr : Decoded r) :
    handleInput sum replace (.ok engine) requestID r =
      guardChat sum replace engine requestID r := by
  simp [handleInput, guardRequest, guardToolResult, guardUpload, hr.tool, hr.file]

theorem handleInput_of_passes (hr : Decoded r) (h : ∀ item ∈ r.messages, Passes sum engine item) :
    handleInput sum replace (.ok engine) requestID r
      = (none, guardedRequest sum replace engine r) := by
  obtain ⟨chat, hc⟩ := hr.chat
  rw [UnifiedRequest.messages_eq hc] at h
  rw [handleInput_decoded hr, guardChat, hc]
  simp only [guardMessages_of_passes h, guardedRequest, hc, Option.map_some]

theorem passes_of_handleInput (hr : Decoded r)
    (h : (handleInput sum replace (.ok engine) requestID r).1 = none) :
    ∀ item ∈ r.messages, Passes sum engine item := by
  obtain ⟨chat, hc⟩ := hr.chat
  rw [handleInput_decoded hr, guardChat, hc] at h
  rw [UnifiedRequest.messages_eq hc]
  exact passes_of_guardMessages h

/-! ### The request that comes out -/

variable {codec} {q : Connector}

theorem messages_guardedRequest :
    (guardedRequest sum replace engine r).messages =
      r.messages.map (guarded sum replace engine) := by
  cases hc : r.chat <;> simp [guardedRequest, UnifiedRequest.messages, hc]

theorem tools_guardedRequest : (guardedRequest sum replace engine r).tools = r.tools := by
  cases hc : r.chat <;> simp [guardedRequest, UnifiedRequest.tools, hc]

theorem Decoded.guardedRequest (hr : Decoded r) :
    Decoded (guardedRequest sum replace engine r) where
  chat := by
    obtain ⟨chat, hc⟩ := hr.chat
    exact ⟨_, by rw [Pipeline.guardedRequest, hc]; rfl⟩
  tool := hr.tool
  file := hr.file
  messages := hr.messages
  tools := hr.tools

theorem filter_map_guarded (p : String → Bool) :
    (items.map (guarded sum replace engine)).filter (fun item => p item.role)
      = (items.filter fun item => p item.role).map (guarded sum replace engine) := by
  rw [List.filter_map]
  rfl

theorem unseen_guardedRequest :
    q.unseen codec (guardedRequest sum replace engine r) = q.unseen codec r := by
  cases q with
  | openai =>
    simp only [Connector.unseen, toolTexts, messages_guardedRequest, tools_guardedRequest,
      List.flatMap_map]
    rfl
  | anthropic =>
    simp only [Connector.unseen, toolTexts, messages_guardedRequest, tools_guardedRequest]
    rw [filter_map_guarded fun role => role ≠ "system" ∧ role ≠ "tool", List.flatMap_map]
    rfl

theorem conveyed_guardedRequest :
    q.conveyed (guardedRequest sum replace engine r)
      = (q.conveyed r).map (guarded sum replace engine) := by
  cases q with
  | openai => exact messages_guardedRequest
  | anthropic =>
    have hl : Anthropic.lastSystem (r.messages.map (guarded sum replace engine))
        = (Anthropic.lastSystem r.messages).map (guarded sum replace engine) := by
      rw [Anthropic.lastSystem, filter_map_guarded fun role => role = "system", List.getLast?_map]
      rfl
    simp only [Connector.conveyed, messages_guardedRequest, hl, List.map_append]
    rw [filter_map_guarded fun role => role ≠ "system"]
    congr 1
    show (if (r.parameters.lookup "system").isSome then _ else _) = _
    split
    · rfl
    · cases Anthropic.lastSystem r.messages <;> rfl

theorem accepts_guardedRequest :
    q.Accepts codec (guardedRequest sum replace engine r) ↔ q.Accepts codec r := by
  have hm : (∀ item ∈ (guardedRequest sum replace engine r).messages, item.role ≠ "system" →
      Anthropic.Writable codec item) ↔
      ∀ item ∈ r.messages, item.role ≠ "system" → Anthropic.Writable codec item := by
    rw [messages_guardedRequest, List.forall_mem_map]
    rfl
  have hc : (∃ chat n, (guardedRequest sum replace engine r).chat = some chat ∧
      chat.maxOutputTokens = some n) ↔
      ∃ chat n, r.chat = some chat ∧ chat.maxOutputTokens = some n := by
    cases hc : r.chat <;> simp [guardedRequest, hc]
  constructor
  · intro h
    exact ⟨h.parameters, fun hq => hc.mp (h.maxTokens hq), fun hq => hm.mp (h.messages hq)⟩
  · intro h
    exact ⟨h.parameters, fun hq => hc.mpr (h.maxTokens hq), fun hq => hm.mpr (h.messages hq)⟩

end

end LiteAIG.Pipeline

namespace LiteAIG.Pipeline

open Guardrail Protocol
open Lib (utf8 Assoc Json)

variable (sum : Text → Text) (replace : Text → String) (codec : Codec) (engine : Engine)
  (requestID : String)

/-! ### What is inspected of what is sent -/

variable (q : Connector)

/-- The connector copies a text into the prompt of the body that it sends, if the request gets so
far. -/
def Copies (r : Protocol.UnifiedRequest) (s : String) : Prop :=
  ∀ r', handleInput sum replace (.ok engine) requestID r = (none, r') →
    ∃ body, q.encode codec r' = .ok body ∧ ∃ t ∈ q.promptTexts body, utf8 s <:+: utf8 t

/-- A request is refused if one of the client's texts that are copied has a keyword in it. -/
def Inspects (p : Format) (q : Connector) (body : Json) : Prop :=
  ∀ r, p.decode codec body = .ok r → ∀ rule ∈ engine.rules, rule.BlocksKeyword →
    ∀ s ∈ body.strings, Copies sum replace codec engine requestID q r s →
      rule.pattern <:+: utf8 s →
        ∃ err, (handleInput sum replace (.ok engine) requestID r).1 = some err

/-- A text is in none of the places that the guardrail passes over, and in no content that it
rewrites. -/
structure Exposed (q : Connector) (r : Protocol.UnifiedRequest) (s : String) : Prop where
  unseen : ∀ t ∈ q.unseen codec r, ¬ utf8 s <:+: utf8 t
  rewritten : ∀ item ∈ q.conveyed r, (engine.evaluate sum (utf8 item.content)).hits ≠ [] →
    ¬ utf8 s <:+: utf8 (guardedContent sum replace engine item)

/-- If the engine lets all messages pass and the connector can write the request, then the client's
texts with a keyword in them are exposed. -/
def Covered (body : Json) (r : Protocol.UnifiedRequest) : Prop :=
  (∀ item ∈ r.messages, Passes sum engine item) → q.Accepts codec r →
    ∀ rule ∈ engine.rules, rule.BlocksKeyword → ∀ s ∈ body.strings, rule.pattern <:+: utf8 s →
      Exposed sum replace codec engine q r s

variable {sum replace codec engine requestID}

/-- A text with a keyword in it is not empty, nor is what it occurs in. -/
theorem ne_empty_of_occurs {rule : CompiledRule} {s t : String} (hw : rule.pattern <:+: utf8 s)
    (hin : utf8 s <:+: utf8 t) : t ≠ "" := by
  rintro rfl
  have hn : utf8 "" = [] := rfl
  rw [hn, List.infix_nil] at hin
  rw [hin, List.infix_nil] at hw
  exact rule.pattern_ne hw

section

variable {q : Connector} {r : Protocol.UnifiedRequest} {rule : CompiledRule} {s t : String}

/-- What is in the prompt of the request that comes out is copied. -/
theorem copies_of_mem (hr : Decoded r) (hp : ∀ item ∈ r.messages, Passes sum engine item)
    (ha : q.Accepts codec r)
    (hm : ∀ body, q.encode codec (guardedRequest sum replace engine r) = .ok body →
      t ∈ q.promptTexts body)
    (hin : utf8 s <:+: utf8 t) : Copies sum replace codec engine requestID q r s := by
  intro r' hr'
  rw [handleInput_of_passes hr hp] at hr'
  obtain rfl := (Prod.mk.inj hr').2
  obtain ⟨body, hb⟩ := (Connector.exists_encode (Decoded.guardedRequest hr)).mpr
    (accepts_guardedRequest.mpr ha)
  exact ⟨body, hb, t, hm body hb, hin⟩

theorem covered_of_inspects {p : Format}
    (h : Inspects sum replace codec engine requestID p q body) (hd : p.decode codec body = .ok r) :
    Covered sum replace codec engine q body r := by
  intro hp ha rule hru hk s hs hw
  have hr := Format.decoded hd
  -- nothing refuses the request, so a text that is copied cannot have a keyword
  have hno : ¬ Copies sum replace codec engine requestID q r s := by
    intro hc
    obtain ⟨err, he⟩ := h r hd rule hru hk s hs hc hw
    rw [handleInput_of_passes hr hp] at he
    cases he
  refine ⟨fun t ht hin => hno ?_, fun item hi _ hin => hno ?_⟩
  · refine copies_of_mem hr hp ha (fun body hb => ?_) hin
    rw [Connector.mem_promptTexts (ne_empty_of_occurs hw hin) (Decoded.guardedRequest hr) hb,
      unseen_guardedRequest]
    exact .inl ht
  · refine copies_of_mem hr hp ha (fun body hb => ?_) hin
    rw [Connector.mem_promptTexts (ne_empty_of_occurs hw hin) (Decoded.guardedRequest hr) hb,
      conveyed_guardedRequest]
    exact .inr (.inl ⟨_, List.mem_map_of_mem hi, rfl⟩)

/-- The content of a message that passes has no keyword that was there before. -/
theorem not_mem_content {item : Protocol.Message} (hr : rule ∈ engine.rules)
    (hk : rule.BlocksKeyword) (hw : rule.pattern <:+: utf8 s)
    (he : Exposed sum replace codec engine q r s) (hi : item ∈ q.conveyed r) :
    ¬ utf8 s <:+: utf8 (guardedContent sum replace engine item) := by
  by_cases hh : (engine.evaluate sum (utf8 item.content)).hits = []
  · rw [guardedContent, evaluate_quiet hh, Lib.textOfBytes_utf8]
    exact fun hin => not_infix_of_quiet hh hr hk (hw.trans hin)
  · exact he.rewritten item hi hh

theorem not_mem_promptTexts (hr : Decoded r)
    (hp : ∀ item ∈ r.messages, Passes sum engine item) (hru : rule ∈ engine.rules)
    (hk : rule.BlocksKeyword) (hw : rule.pattern <:+: utf8 s)
    (he : Exposed sum replace codec engine q r s)
    (hb : q.encode codec (guardedRequest sum replace engine r) = .ok body)
    (ht : t ∈ q.promptTexts body) : ¬ utf8 s <:+: utf8 t := by
  intro hin
  have hne := ne_empty_of_occurs hw hin
  rw [Connector.mem_promptTexts hne (Decoded.guardedRequest hr) hb, unseen_guardedRequest,
    conveyed_guardedRequest, messages_guardedRequest] at ht
  rcases ht with hu | ⟨item, hi, rfl⟩ | ⟨-, item, hi, call, hc, rfl⟩
  · exact he.unseen t hu hin
  · obtain ⟨original, ho, rfl⟩ := List.mem_map.mp hi
    exact not_mem_content hru hk hw he ho hin
  · -- any match in the arguments would have stopped the request
    obtain ⟨original, ho, rfl⟩ := List.mem_map.mp hi
    have hh := (hp original ho).arguments call hc hne
    exact not_infix_of_quiet hh hru hk (hw.trans hin)

end

variable (sum replace codec engine requestID)

/--
**A keyword in a text that reaches the provider stops the request exactly if it is in a text the
guardrail evaluates.**  It does not evaluate the tools, the names in tool calls, the values inside
their arguments, or a `system` field that came with a body of the other format.
-/
theorem inspects_iff_covered (p : Format) (q : Connector) (body : Json) :
    Inspects sum replace codec engine requestID p q body ↔
      ∀ r, p.decode codec body = .ok r → Covered sum replace codec engine q body r := by
  constructor
  · intro h r hd
    exact covered_of_inspects h hd
  · intro h r hd rule hru hk s hs hc hw
    have hr := Format.decoded hd
    cases her : (handleInput sum replace (.ok engine) requestID r).1 with
    | some err => exact ⟨err, rfl⟩
    | none =>
      exfalso
      have hp := passes_of_handleInput hr her
      obtain ⟨sent, hse, t, ht, hin⟩ := hc _ (handleInput_of_passes hr hp)
      have ha := accepts_guardedRequest.mp
        ((Connector.exists_encode (Decoded.guardedRequest hr)).mp ⟨sent, hse⟩)
      have he := h r hd hp ha rule hru hk s hs hw
      exact not_mem_promptTexts hr hp hru hk hw he hse ht hin

/-- Numbers and tool calls play no part in the bodies below. -/
def plainCodec : Codec := ⟨fun _ => none, fun _ => none⟩

/-- A policy of one keyword, `abc`. -/
def keywordEngine : Engine := ⟨1, [stopRule]⟩

/-- A chat body with one message, and other fields. -/
def chatBody (fields : List (String × Json)) : Json :=
  .obj ([("model", .str "m"), ("max_tokens", .num 16),
    ("messages", .arr [.obj [("role", .str "user"), ("content", .str "hi")]])] ++ fields)

def chatRequest (tools : List Protocol.Tool) (parameters : Assoc String Json) :
    Protocol.UnifiedRequest where
  kind := .chat
  model := "m"
  stream := false
  chat := some ⟨[⟨"user", "hi", "", [], "", []⟩], some 16, none, none, [], tools, none, none⟩
  tool := none
  file := none
  parameters := parameters

/-- The client's own system prompt, in the field of the other format. -/
def systemBody : Json := chatBody [("system", .str "abc")]

def toolBody : Json :=
  chatBody [("tools", .arr [.obj [("type", .str "function"),
    ("function", .obj [("name", .str "f"), ("description", .str "abc")])]])]

theorem decode_systemBody : Format.openai.decode plainCodec systemBody
    = .ok (chatRequest [] (Assoc.empty.insert "system" (.str "abc"))) := by
  rfl

theorem decode_toolBody : Format.openai.decode plainCodec toolBody
    = .ok (chatRequest [⟨"function", ⟨"f", "abc", none⟩⟩] Assoc.empty) := by
  rfl

section

variable {tools : List Protocol.Tool} {parameters : Assoc String Json}

theorem chatRequest_passes :
    ∀ item ∈ (chatRequest tools parameters).messages, Passes id keywordEngine item := by
  intro item hi
  obtain rfl := List.mem_singleton.mp hi
  exact ⟨by decide +kernel, by simp⟩

theorem chatRequest_accepts
    (h : ∀ e ∈ parameters.entries, ∃ value, e.2.unmarshalAny plainCodec.float = some value) :
    q.Accepts plainCodec (chatRequest tools parameters) where
  parameters := h
  maxTokens := fun _ => ⟨_, 16, rfl, rfl⟩
  messages := by
    intro _ item hi _
    obtain rfl := List.mem_singleton.mp hi
    exact .inr ⟨by simp, by simp⟩

/-- The keyword in a place that is passed over. -/
theorem not_inspects {p : Format} {q : Connector}
    (hd : p.decode plainCodec body = .ok (chatRequest tools parameters))
    (hp : ∀ e ∈ parameters.entries, ∃ value, e.2.unmarshalAny plainCodec.float = some value)
    (hs : "abc" ∈ body.strings) (hu : "abc" ∈ q.unseen plainCodec (chatRequest tools parameters)) :
    ¬ Inspects id (fun _ => "") plainCodec keywordEngine "q1" p q body := by
  intro h
  have he := covered_of_inspects h hd chatRequest_passes
    (chatRequest_accepts q hp) stopRule (List.mem_singleton.mpr rfl) ⟨rfl, rfl⟩ "abc" hs
    (by decide +kernel)
  exact he.unseen "abc" hu List.infix_rfl

end

/-- A `system` field that the chat format does not know becomes the system prompt of the other
provider, and a tool's description goes to either. -/
theorem keyword_sent_unseen :
    ¬ Inspects id (fun _ => "") plainCodec keywordEngine "q1" .openai .anthropic systemBody ∧
      ¬ Inspects id (fun _ => "") plainCodec keywordEngine "q1" .openai .anthropic toolBody ∧
      ¬ Inspects id (fun _ => "") plainCodec keywordEngine "q1" .openai .openai toolBody := by
  have hs : "abc" ∈ systemBody.strings ∧ "abc" ∈ toolBody.strings := by decide +kernel
  have ht : "abc" ∈ toolTexts (chatRequest [⟨"function", ⟨"f", "abc", none⟩⟩] Assoc.empty) := by
    decide +kernel
  refine ⟨not_inspects decode_systemBody ?_ hs.1 ?_,
    not_inspects decode_toolBody (by simp [Assoc.empty]) hs.2 (List.mem_append_right _ ht),
    not_inspects decode_toolBody (by simp [Assoc.empty]) hs.2 (List.mem_append_right _ ht)⟩
  · intro e he
    obtain rfl := List.mem_singleton.mp he
    exact ⟨_, rfl⟩
  · exact List.mem_append_left _ (List.mem_append_left _ (List.mem_singleton.mpr rfl))

end LiteAIG.Pipeline
