/-
What the connectors send as the prompt.

A body's prompt is what its provider puts before the model: the contents of the
messages, the system prompt, the names and descriptions of the tools, and the tool
calls of the history.  It is read off the body that is sent, and the theorems below
say which texts of a request are in it.
-/
import LiteAIG.Lib.Except
import LiteAIG.Protocol.Anthropic
import LiteAIG.Protocol.OpenAI

namespace LiteAIG.Protocol

open Lib Json List

/-! ### The prompt of a body -/

/-- The text of a block that is one. -/
def textOf (block : Json) : List String :=
  if block.getStr "type" = some "text" then (block.getStr "text").toList else []

/-- A text, or the text blocks of a list. -/
def textsOf : Option Json → List String
  | some (.str text) => [text]
  | some (.arr blocks) => blocks.flatMap textOf
  | _ => []

/-- What a function is called, and the text that goes with it. -/
def functionTexts (text : String) (function : Option Json) : List String :=
  (function.bind (·.getStr "name")).toList ++ (function.bind (·.getStr text)).toList

namespace OpenAI

def messageTexts (message : Json) : List String :=
  textsOf (message.get "content") ++
    (message.getItems "tool_calls").flatMap fun call =>
      functionTexts "arguments" (call.get "function")

def promptTexts (body : Json) : List String :=
  (body.getItems "messages").flatMap messageTexts ++
    (body.getItems "tools").flatMap fun tool => functionTexts "description" (tool.get "function")

end OpenAI

namespace Anthropic

def blockTexts (block : Json) : List String :=
  if block.getStr "type" = some "tool_use" then
    (block.getStr "name").toList ++ (block.get "input").elim [] Json.strings
  else if block.getStr "type" = some "tool_result" then textsOf (block.get "content")
  else textOf block

def messageTexts (message : Json) : List String :=
  match message.get "content" with
  | some (.str text) => [text]
  | some (.arr blocks) => blocks.flatMap blockTexts
  | _ => []

def promptTexts (body : Json) : List String :=
  textsOf (body.get "system") ++ (body.getItems "messages").flatMap messageTexts ++
    (body.getItems "tools").flatMap fun tool => functionTexts "description" (some tool)

end Anthropic

/-! ### Members of what is written -/

@[simp] theorem get_nil (name : String) : (obj []).get name = none := rfl

@[simp] theorem get_cons (name key : String) (j : Json) (rest : List (String × Json)) :
    (Json.obj ((key, j) :: rest)).get name
      = if key = name then some j else (Json.obj rest).get name := by
  by_cases h : key = name <;> simp [Json.get, h]

@[simp] theorem get_append (name : String) (front rest : List (String × Json)) :
    (Json.obj (front ++ rest)).get name
      = ((Json.obj front).get name).or ((Json.obj rest).get name) := by
  simp only [Json.get, List.find?_append]
  cases front.find? (·.1 = name) <;> simp

@[simp] theorem get_omitempty (name key text : String) :
    (obj (omitempty key text)).get name
      = if key = name ∧ text ≠ "" then some (.str text) else none := by
  unfold omitempty
  by_cases ht : text = "" <;> simp [ht]

theorem getStr_eq_some {name text : String} {j : Json} :
    j.getStr name = some text ↔ j.get name = some (.str text) := by
  unfold getStr
  split
  · rename_i s hs
    rw [hs]
    simp
  · rename_i hno
    exact iff_of_false (by simp) (hno text)

/-- A text that is in a place where only texts with something in them are. -/
theorem ite_str_iff {t text : String} (ht : t ≠ "") : (¬ text = "" ∧ text = t) ↔ t = text := by
  constructor
  · rintro ⟨-, rfl⟩
    rfl
  · rintro rfl
    exact ⟨ht, rfl⟩

theorem mem_functionTexts {t text : String} {function : Json} :
    t ∈ functionTexts text (some function) ↔
      function.get "name" = some (.str t) ∨ function.get text = some (.str t) := by
  simp [functionTexts, getStr_eq_some]

namespace OpenAI

theorem textOf_imageEntry {part : ContentPart} {entry : Json} (h : imageEntry part = some entry) :
    textOf entry = [] := by
  simp only [imageEntry] at h
  generalize (if part.dataURL = "" then part.url else part.dataURL) = location at h
  split_ifs at h
  obtain rfl := Option.some.inj h
  rfl

variable {t : String}

theorem mem_contentValue (ht : t ≠ "") (content : String) (parts : List ContentPart) :
    t ∈ textsOf (some (contentValue content parts)) ↔ t = content := by
  have hi : (parts.filterMap imageEntry).flatMap textOf = [] := by
    refine flatMap_eq_nil_iff.mpr fun entry he => ?_
    obtain ⟨part, -, hpa⟩ := mem_filterMap.mp he
    exact textOf_imageEntry hpa
  have hte : (if content = "" then []
      else [obj [("type", .str "text"), ("text", .str content)]]).flatMap textOf
        = if content = "" then [] else [content] := by
    by_cases hc : content = ""
    · simp [hc]
    · simp [hc, textOf, getStr]
  simp only [contentValue]
  by_cases hp : parts = [] ∨ (if content = "" then []
      else [obj [("type", .str "text"), ("text", .str content)]]) ++
        parts.filterMap imageEntry = []
  · rw [if_pos hp]
    simp [textsOf]
  · rw [if_neg hp, textsOf, flatMap_append, hi, append_nil, hte]
    by_cases hc : content = ""
    · simp [hc, ht]
    · simp [hc]

theorem mem_callTexts (ht : t ≠ "") (call : ToolCall) :
    t ∈ functionTexts "arguments" ((encodeToolCall call).get "function") ↔
      t = call.function.name ∨ t = call.function.arguments := by
  have hget : (encodeToolCall call).get "function" =
    some (.obj (omitempty "name" call.function.name ++
      omitempty "arguments" call.function.arguments)) := by
    simp [encodeToolCall]
  rw [hget, mem_functionTexts]
  simp [ite_str_iff ht]

theorem mem_toolTexts (ht : t ≠ "") (tool : Tool) :
    t ∈ functionTexts "description" ((encodeTool tool).get "function") ↔
      t = tool.function.name ∨ t = tool.function.description := by
  have hget : (encodeTool tool).get "function" = some (.obj ([("name", .str tool.function.name)] ++
      omitempty "description" tool.function.description ++
        tool.function.parameters.toList.map ("parameters", ·))) := by
    simp [encodeTool]
  have hp : (obj (tool.function.parameters.toList.map ("parameters", ·))).get
      "description" = none := by
    cases tool.function.parameters <;> simp
  rw [hget, mem_functionTexts]
  simp [hp, ite_str_iff ht, @eq_comm _ t tool.function.name]

/-- A message brings its content and its tool calls. -/
theorem mem_messageTexts (ht : t ≠ "") (item : Message) :
    t ∈ messageTexts (encodeMessage item) ↔
      t = item.content ∨ ∃ call ∈ item.toolCalls, t = call.function.name ∨
        t = call.function.arguments := by
  have hc : (encodeMessage item).get "content" = some (contentValue item.content item.parts) := by
    simp [encodeMessage]
  have hca : (encodeMessage item).getItems "tool_calls" = item.toolCalls.map encodeToolCall := by
    by_cases hn : item.toolCalls = [] <;> simp [encodeMessage, getItems, itemsOf, hn]
  rw [messageTexts, hc, hca, mem_append, mem_contentValue ht]
  simp [mem_callTexts ht]

end OpenAI

namespace Anthropic

variable {cd : Codec}

/-- The input that a tool call is written with. -/
def callInput (codec : Codec) (call : ToolCall) : Option Json :=
  if call.function.arguments = "" then some (.obj []) else codec.parse call.function.arguments

variable {call : ToolCall} {j : Json} {t : String} {item : Message}

theorem toolUseBlock_eq_ok :
    toolUseBlock cd call = .ok j ↔ ∃ input, callInput cd call = some input ∧
      j = .obj ([("type", .str "tool_use")] ++ omitempty "id" call.id ++
        omitempty "name" call.function.name ++ [("input", input)]) := by
  unfold toolUseBlock callInput
  by_cases ha : call.function.arguments = ""
  · simp [ha, pure_eq_ok, @eq_comm _ j]
  · cases cd.parse call.function.arguments with
    | none => simp [ha]
    | some input => simp [ha, @eq_comm _ j]

theorem mem_toolUseBlock (ht : t ≠ "") (h : toolUseBlock cd call = .ok j) :
    t ∈ blockTexts j ↔
      t = call.function.name ∨ ∃ input, callInput cd call = some input ∧ t ∈ input.strings := by
  obtain ⟨input, hi, rfl⟩ := toolUseBlock_eq_ok.mp h
  simp [blockTexts, getStr_eq_some, hi, ite_str_iff ht]

theorem mem_textBlock (ht : t ≠ "") :
    t ∈ blockTexts (textBlock item) ↔ t = item.content := by
  have hc : (obj (if item.cacheControl = "" then []
      else [("cache_control", .obj [("type", .str item.cacheControl)])])).get "text" = none := by
    split <;> simp
  simp [blockTexts, textBlock, textOf, getStr_eq_some, hc, ite_str_iff ht]

theorem blockTexts_imageBlock {part : ContentPart} (h : imageBlock part = .ok j) :
    blockTexts j = [] := by
  unfold imageBlock at h
  split at h
  · cases h
  · split at h
    · cases h
    · rename_i mediaType payload _
      simp only at h
      generalize (if part.mediaType = "" then mediaType else part.mediaType) = mediaType at h
      split_ifs at h
      obtain rfl := Except.ok.inj h
      simp [blockTexts, textOf, getStr_eq_some]

theorem mem_messageBlocks (ht : t ≠ "") {blocks : List Json} (h : messageBlocks item = .ok blocks) :
    t ∈ blocks.flatMap blockTexts ↔ t = item.content := by
  simp only [messageBlocks, bind_eq_ok, pure_eq_ok] at h
  obtain ⟨images, hi, rfl⟩ := h
  have hn : images.flatMap blockTexts = [] := by
    refine flatMap_eq_nil_iff.mpr fun image him => ?_
    obtain ⟨part, -, hp⟩ := (mem_of_mapM hi).mp him
    exact blockTexts_imageBlock hp
  rw [flatMap_append, hn, append_nil]
  by_cases hc : item.content = ""
  · simp [hc, ht]
  · simp [hc, mem_textBlock ht]

/-- A message that can be written: its images are inline, and the arguments of its calls JSON. -/
def Writable (codec : Codec) (item : Message) : Prop :=
  item.role = "tool" ∨ ((∀ part ∈ item.parts, ∃ j, imageBlock part = .ok j) ∧
    ∀ call ∈ item.toolCalls, ∃ input, callInput codec call = some input)

theorem exists_messageBlocks :
    (∃ blocks, messageBlocks item = .ok blocks) ↔
      ∀ part ∈ item.parts, ∃ j, imageBlock part = .ok j := by
  simp only [messageBlocks, exists_bind_eq_ok, exists_pure_eq_ok, and_true, exists_mapM_eq_ok]

theorem exists_toolUseBlocks {calls : List ToolCall} :
    (∃ blocks, calls.mapM (toolUseBlock cd) = .ok blocks) ↔
      ∀ call ∈ calls, ∃ input, callInput cd call = some input := by
  rw [exists_mapM_eq_ok]
  refine forall₂_congr fun call _ => ?_
  simp only [toolUseBlock_eq_ok]
  rw [exists_comm]
  simp

/-- The ways a message is written. -/
inductive Written (codec : Codec) (item : Message) : Json → Prop
  | result (role : item.role = "tool") :
      Written codec item (wireMessage "user" (.arr [.obj ([("type", .str "tool_result")] ++
        omitempty "tool_use_id" item.toolCallID ++ [("content", .str item.content)])]))
  | calls {blocks calls : List Json} (role : item.role ≠ "tool")
    (text : messageBlocks item = .ok blocks)
      (uses : item.toolCalls.mapM (toolUseBlock codec) = .ok calls) :
      Written codec item (wireMessage "assistant" (.arr (blocks ++ calls)))
  | blocks {blocks : List Json} (role : item.role ≠ "tool") (none : item.toolCalls = [])
      (text : messageBlocks item = .ok blocks) :
      Written codec item (wireMessage item.role (.arr blocks))
  | text (role : item.role ≠ "tool") (none : item.toolCalls = []) (parts : item.parts = []) :
      Written codec item (wireMessage item.role (.str item.content))

theorem encodeMessage_written (h : encodeMessage cd item = .ok j) : Written cd item j := by
  unfold encodeMessage at h
  split_ifs at h with hr hc hb
  · obtain rfl := pure_eq_ok.mp h
    exact .result hr
  · simp only [bind_eq_ok, pure_eq_ok] at h
    obtain ⟨blocks, ht, calls, hu, rfl⟩ := h
    exact .calls hr ht hu
  · simp only [bind_eq_ok, pure_eq_ok] at h
    obtain ⟨blocks, ht, rfl⟩ := h
    exact .blocks hr (not_not.mp hc) ht
  · obtain rfl := pure_eq_ok.mp h
    exact .text hr (not_not.mp hc) (not_not.mp (not_or.mp hb).1)

theorem exists_encodeMessage : (∃ j, encodeMessage cd item = .ok j) ↔ Writable cd item := by
  constructor
  · rintro ⟨j, hj⟩
    cases encodeMessage_written hj with
    | result hr => exact .inl hr
    | calls hr ht hu =>
      exact .inr ⟨exists_messageBlocks.mp ⟨_, ht⟩, exists_toolUseBlocks.mp ⟨_, hu⟩⟩
    | blocks hr hn ht =>
      exact .inr ⟨exists_messageBlocks.mp ⟨_, ht⟩, by simp [hn]⟩
    | text hr hn hp => exact .inr ⟨by simp [hp], by simp [hn]⟩
  · intro h
    by_cases hr : item.role = "tool"
    · exact ⟨_, by rw [encodeMessage, if_pos hr]; rfl⟩
    · obtain ⟨hi, hin⟩ := h.resolve_left hr
      obtain ⟨blocks, ht⟩ := exists_messageBlocks.mpr hi
      obtain ⟨calls, hu⟩ := exists_toolUseBlocks.mpr hin
      unfold encodeMessage
      rw [if_neg hr, ht, hu]
      split_ifs
      · exact ⟨_, rfl⟩
      · exact ⟨_, rfl⟩
      · exact ⟨_, rfl⟩

/-- A message brings its content and, unless it answers a tool call, its tool calls. -/
theorem mem_messageTexts (ht : t ≠ "") (h : encodeMessage cd item = .ok j) :
    t ∈ messageTexts j ↔ t = item.content ∨ (item.role ≠ "tool" ∧ ∃ call ∈ item.toolCalls,
      t = call.function.name ∨ ∃ input, callInput cd call = some input ∧ t ∈ input.strings) := by
  cases encodeMessage_written h with
  | result hr =>
    simp [messageTexts, wireMessage, blockTexts, getStr_eq_some, textsOf, hr]
  | calls hr hte hu =>
    rename_i blocks calls
    have hca : t ∈ calls.flatMap blockTexts ↔ ∃ call ∈ item.toolCalls, t = call.function.name ∨
          ∃ input, callInput cd call = some input ∧ t ∈ input.strings := by
      simp only [mem_flatMap, mem_of_mapM hu]
      constructor
      · rintro ⟨block, ⟨call, hc, hb⟩, hin⟩
        exact ⟨call, hc, (mem_toolUseBlock ht hb).mp hin⟩
      · rintro ⟨call, hc, hin⟩
        obtain ⟨block, hb⟩ := exists_mapM_eq_ok.mp ⟨_, hu⟩ call hc
        exact ⟨block, ⟨call, hc, hb⟩, (mem_toolUseBlock ht hb).mpr hin⟩
    simp [messageTexts, wireMessage, flatMap_append, mem_messageBlocks ht hte, hca, hr]
  | blocks hr hn hte =>
    simp [messageTexts, wireMessage, mem_messageBlocks ht hte, hn]
  | text hr hn hp => simp [messageTexts, wireMessage, hn]

end Anthropic

/-! ### Whole bodies -/

section

variable {cd : Codec} {wire out parameters : Assoc String Json} {name key : String}

@[simp] theorem lookup_insertSome_self (value : Option Json) :
    (insertSome wire name value).lookup name = value.or (wire.lookup name) := by
  cases value <;> simp [insertSome]

@[simp] theorem lookup_insertSome_ne (h : key ≠ name) (value : Option Json) :
    (insertSome wire name value).lookup key = wire.lookup key := by
  cases value <;> simp [insertSome, h]

@[simp] theorem lookup_insertItems_ne (h : key ≠ name) (items : List Json) :
    (insertItems wire name items).lookup key = wire.lookup key := by
  unfold insertItems
  split <;> simp [h]

theorem itemsOf_insertItems (h : wire.lookup name = none) (items : List Json) :
    itemsOf ((insertItems wire name items).lookup name) = items := by
  unfold insertItems
  by_cases hn : items = []
  · simp [hn, h, itemsOf]
  · simp [hn, itemsOf]

/-- The parameters are over what was there, and the rest is as it was. -/
theorem lookup_foldlM_mergeParameter {es : List (String × Json)}
    (hn : (es.map Prod.fst).Nodup) (h : es.foldlM (mergeParameter cd) wire = .ok out) :
    (∀ key ∉ es.map Prod.fst, out.lookup key = wire.lookup key) ∧
      ∀ e ∈ es, out.lookup e.1 = e.2.unmarshalAny cd.float := by
  induction es generalizing wire with
  | nil =>
    obtain rfl := pure_eq_ok.mp h
    simp
  | cons entry rest ih =>
    simp only [foldlM_cons, bind_eq_ok] at h
    obtain ⟨wire', he, hr⟩ := h
    obtain ⟨hno, hn⟩ := nodup_cons.mp hn
    obtain ⟨ho, ht⟩ := ih hn hr
    unfold mergeParameter at he
    cases hv : entry.2.unmarshalAny cd.float with
    | none =>
      rw [hv] at he
      cases he
    | some value =>
      rw [hv] at he
      obtain rfl := Except.ok.inj he
      refine ⟨fun key hk => ?_, forall_mem_cons.mpr ⟨?_, ht⟩⟩
      · obtain ⟨hne, hin⟩ := not_or.mp (fun h => hk (mem_cons.mpr h))
        rw [ho key hin, Assoc.lookup_insert_ne hne]
      · rw [ho _ hno, Assoc.lookup_insert_self, hv]

theorem lookup_mergeParameters_none (h : mergeParameters cd wire parameters = .ok out)
    (hk : parameters.lookup key = none) : out.lookup key = wire.lookup key := by
  refine (lookup_foldlM_mergeParameter parameters.nodup h).1 key fun hin => ?_
  obtain ⟨e, he, rfl⟩ := mem_map.mp hin
  exact Assoc.lookup_eq_none.mp hk e he rfl

/-- Parameters can be merged if every number in them is a `float64`. -/
theorem exists_mergeParameters :
    (∃ out, mergeParameters cd wire parameters = .ok out) ↔
      ∀ e ∈ parameters.entries, ∃ value, e.2.unmarshalAny cd.float = some value := by
  unfold mergeParameters
  generalize parameters.entries = es
  induction es generalizing wire with
  | nil => simp [pure_eq_ok]
  | cons entry rest ih =>
    cases hv : entry.2.unmarshalAny cd.float with
    | none => simp [mergeParameter, hv, bind_eq_ok]
    | some value => simp [mergeParameter, hv, bind_eq_ok, ih]

end

namespace OpenAI

variable {cd : Codec} {r : UnifiedRequest} {chat : ChatPayload} {body : Json}

theorem encodeChat_eq_ok (hc : r.chat = some chat) :
    encodeChat cd r = .ok body ↔
      ∃ out, mergeParameters cd (chatWire cd r chat) r.parameters = .ok out ∧
        body = .obj out.entries := by
  simp [encodeChat, hc, map_eq_ok, @eq_comm _ body]

/-- A body has the contents and the tool calls of all messages, and the tools. -/
theorem mem_promptTexts {t : String} (ht : t ≠ "") (hc : r.chat = some chat)
    (hm : r.parameters.lookup "messages" = none)
    (hto : r.parameters.lookup "tools" = none) (h : encodeChat cd r = .ok body) :
    t ∈ promptTexts body ↔ (∃ item ∈ chat.messages, t = item.content ∨
        ∃ call ∈ item.toolCalls, t = call.function.name ∨ t = call.function.arguments) ∨
      ∃ tool ∈ chat.tools, t = tool.function.name ∨ t = tool.function.description := by
  obtain ⟨out, ho, rfl⟩ := (encodeChat_eq_ok hc).mp h
  have hi : (obj out.entries).getItems "messages" = chat.messages.map encodeMessage := by
    rw [getItems, get_entries, lookup_mergeParameters_none ho hm]
    simp [chatWire, itemsOf]
  have hl : (obj out.entries).getItems "tools" = chat.tools.map encodeTool := by
    rw [getItems, get_entries, lookup_mergeParameters_none ho hto, chatWire,
      lookup_insertSome_ne (by decide), lookup_insertSome_ne (by decide)]
    exact itemsOf_insertItems (by simp) _
  rw [promptTexts, hi, hl]
  simp [mem_messageTexts ht, mem_toolTexts ht]

end OpenAI

namespace Anthropic

variable {cd : Codec} {r : UnifiedRequest} {chat : ChatPayload} {body : Json}

/-- The system message that is sent: the last one. -/
def lastSystem (items : List Message) : Option Message :=
  (items.filter fun item => item.role = "system").getLast?

variable {items : List Message} {messages : List Json} {t : String} {system : Option Json}

theorem encodeItems_spec (h : encodeItems cd items = .ok (system, messages)) :
    system = (lastSystem items).map systemValue ∧
      ∀ j, j ∈ messages ↔ ∃ item ∈ items, item.role ≠ "system" ∧ encodeMessage cd item = .ok j := by
  induction items generalizing system messages with
  | nil =>
    obtain ⟨rfl, rfl⟩ := Prod.mk.inj (Except.ok.inj h)
    simp [lastSystem]
  | cons item rest ih =>
    rw [encodeItems] at h
    split_ifs at h with hr
    · simp only [bind_eq_ok, pure_eq_ok, Prod.exists] at h
      obtain ⟨system', messages', hre, heq⟩ := h
      obtain ⟨rfl, rfl⟩ := Prod.mk.inj heq
      obtain ⟨rfl, hm⟩ := ih hre
      refine ⟨?_, fun j => by rw [hm]; simp [hr]⟩
      simp only [lastSystem, filter_cons, hr, decide_true, if_true, List.getLast?_cons]
      cases (rest.filter fun item => item.role = "system").getLast? <;> rfl
    · simp only [bind_eq_ok, pure_eq_ok, Prod.exists] at h
      obtain ⟨encoded, he, system', messages', hre, heq⟩ := h
      obtain ⟨rfl, rfl⟩ := Prod.mk.inj heq
      obtain ⟨rfl, hm⟩ := ih hre
      refine ⟨by simp [lastSystem, hr], fun j => ?_⟩
      simp [hm, hr, he, @eq_comm _ j]

theorem exists_encodeItems :
    (∃ out, encodeItems cd items = .ok out) ↔
      ∀ item ∈ items, item.role ≠ "system" → Writable cd item := by
  induction items with
  | nil => simp [encodeItems]
  | cons item rest ih =>
    rw [encodeItems, forall_mem_cons, ← ih, ← exists_encodeMessage]
    by_cases hr : item.role = "system"
    · simp only [hr, if_true, exists_bind_eq_ok, exists_pure_eq_ok, and_true, ne_eq,
        not_true_eq_false, false_imp_iff, true_and]
    · simp only [hr, if_false, exists_bind_eq_ok, exists_pure_eq_ok, and_true,
        exists_and_right, ne_eq,
        not_false_eq_true, true_imp_iff]

theorem mem_systemValue (ht : t ≠ "") (item : Message) :
    t ∈ textsOf (some (systemValue item)) ↔ t = item.content := by
  unfold systemValue
  by_cases hc : item.cacheControl = ""
  · simp [hc, textsOf]
  · simp [hc, textsOf, textBlock, textOf, getStr_eq_some, ite_str_iff ht]

theorem encodeMessages_eq_ok (hc : r.chat = some chat) :
    encodeMessages cd r = .ok body ↔ ∃ maxTokens, chat.maxOutputTokens = some maxTokens ∧
        ∃ system messages, encodeItems cd chat.messages = .ok (system, messages) ∧
          ∃ out, mergeParameters cd (messagesWire cd r chat maxTokens system messages)
            r.parameters = .ok out ∧ body = .obj out.entries := by
  unfold encodeMessages
  cases hm : chat.maxOutputTokens with
  | none => simp [hc, hm]
  | some maxTokens => simp [hc, hm, bind_eq_ok, map_eq_ok, @eq_comm _ body]

theorem mem_toolTexts (ht : t ≠ "") (tool : Tool) :
    t ∈ functionTexts "description" (some (encodeTool cd tool)) ↔
      t = tool.function.name ∨ t = tool.function.description := by
  have hs : (obj ((tool.function.parameters.bind (·.unmarshalAny cd.float)).toList.map
      ("input_schema", ·))).get "description" = none := by
    cases tool.function.parameters.bind (·.unmarshalAny cd.float) <;> simp
  rw [mem_functionTexts]
  simp [encodeTool, hs, ite_str_iff ht, @eq_comm _ t tool.function.name]

/-- The client's own `system` field, or else the last system message. -/
def systemTexts (codec : Codec) (r : UnifiedRequest) : List String :=
  match r.parameters.lookup "system" with
  | some value => textsOf (value.unmarshalAny codec.float)
  | none => (lastSystem r.messages).toList.map Message.content

theorem mem_systemTexts (ht : t ≠ "") {maxTokens : Int} {out : Assoc String Json}
    (hi : encodeItems cd r.messages = .ok (system, messages))
    (ho : mergeParameters cd (messagesWire cd r chat maxTokens system messages) r.parameters =
      .ok out) :
    t ∈ textsOf (out.lookup "system") ↔ t ∈ systemTexts cd r := by
  unfold systemTexts
  cases hs : r.parameters.lookup "system" with
  | some value =>
    rw [(lookup_foldlM_mergeParameter r.parameters.nodup ho).2 _ (Assoc.mem_of_lookup hs)]
  | none =>
    have hl : out.lookup "system" = system := by
      rw [lookup_mergeParameters_none ho hs]
      simp [messagesWire]
    rw [hl, (encodeItems_spec hi).1]
    cases lastSystem r.messages with
    | none => simp [textsOf]
    | some item => simp [mem_systemValue ht]

/-- A body has a system prompt, the other messages and the tools. -/
theorem mem_promptTexts (ht : t ≠ "") (hc : r.chat = some chat)
    (hm : r.parameters.lookup "messages" = none)
    (hto : r.parameters.lookup "tools" = none) (h : encodeMessages cd r = .ok body) :
    t ∈ promptTexts body ↔ t ∈ systemTexts cd r ∨
      (∃ item ∈ chat.messages, item.role ≠ "system" ∧ (t = item.content ∨ (item.role ≠ "tool" ∧
        ∃ call ∈ item.toolCalls, t = call.function.name ∨
          ∃ input, callInput cd call = some input ∧ t ∈ input.strings))) ∨
      ∃ tool ∈ chat.tools, t = tool.function.name ∨ t = tool.function.description := by
  obtain ⟨maxTokens, -, system, messages, hit, out, ho, rfl⟩ := (encodeMessages_eq_ok hc).mp h
  have hs : t ∈ textsOf ((obj out.entries).get "system") ↔ t ∈ systemTexts cd r :=
    mem_systemTexts ht (by rw [UnifiedRequest.messages_eq hc]; exact hit) ho
  have hse : (obj out.entries).getItems "messages" = messages := by
    rw [getItems, get_entries, lookup_mergeParameters_none ho hm]
    by_cases hn : messages = [] <;> simp [messagesWire, hn, itemsOf]
  have hl : (obj out.entries).getItems "tools" = chat.tools.map (encodeTool cd) := by
    rw [getItems, get_entries, lookup_mergeParameters_none ho hto, messagesWire,
      lookup_insertItems_ne (by decide), lookup_insertSome_ne (by decide),
      lookup_insertSome_ne (by decide), lookup_insertSome_ne (by decide)]
    exact itemsOf_insertItems (by simp) _
  have hte : t ∈ messages.flatMap messageTexts ↔ ∃ item ∈ chat.messages, item.role ≠ "system" ∧
      (t = item.content ∨ (item.role ≠ "tool" ∧ ∃ call ∈ item.toolCalls, t = call.function.name ∨
        ∃ input, callInput cd call = some input ∧ t ∈ input.strings)) := by
    simp only [mem_flatMap, (encodeItems_spec hit).2]
    constructor
    · rintro ⟨j, ⟨item, hi, hr, hj⟩, hin⟩
      exact ⟨item, hi, hr, (mem_messageTexts ht hj).mp hin⟩
    · rintro ⟨item, hi, hr, hin⟩
      obtain ⟨j, hj⟩ := exists_encodeMessage.mpr (exists_encodeItems.mp ⟨_, hit⟩ item hi hr)
      exact ⟨j, ⟨item, hi, hr, hj⟩, (mem_messageTexts ht hj).mpr hin⟩
  rw [promptTexts, hse, hl, mem_append, mem_append, hs, hte, or_assoc]
  simp [mem_toolTexts ht]

end Anthropic

end LiteAIG.Protocol
