/-
Whether the guardrail rules of a live configuration can be compiled.

A fast publish compiles the rules before it accepts them.  The validator of documents
does not look at them, so what it passes compiles exactly if the rules happen to be
well formed, or if the document names no mode and the rules are not used.
-/
import LiteAIG.Lib.Json
import LiteAIG.Proofs.Config.Isolation

namespace LiteAIG.Config

open Lib
open LiteAIG.Runtime (TenantRuntimeSnapshot)
open Guardrail (Policy PolicyRow Text Regexp Rule RuleKind Engine EngineError toRule compileRule
  compileEngine fastPublish prepare fingerprintStart ruleFields engineCacheKey putEngine
  cachedEngine cachedStep)

/-- What the engine needs of a rule. -/
@[mk_iff] structure WellFormed (regexps : Text → Option Regexp) (rule : Rule) : Prop where
  id : rule.id ≠ []
  pattern : rule.pattern ≠ []
  action : (Guardrail.Action.parse rule.action).isSome = true
  kind : ∃ kind, RuleKind.parse rule.kind = some kind ∧
    (kind ≠ .keyword → (regexps rule.pattern).isSome = true)

variable {regexps : Text → Option Regexp} {lib : Library} {system : SystemConfig}
  {document : TenantConfig} {version : Int} {publishedAt : Time} {keys : List KeyRecord}
  {snapshot : TenantRuntimeSnapshot}

theorem exists_compileRule {rule : Rule} :
    (∃ compiled, compileRule regexps rule = .ok compiled) ↔ WellFormed regexps rule := by
  rw [wellFormed_iff]
  unfold compileRule
  by_cases hi : rule.id = []
  · simp [hi]
  by_cases hp : rule.pattern = []
  · simp [hi, hp]
  cases ha : Guardrail.Action.parse rule.action with
  | none => simp [hi, hp]
  | some action =>
    cases hk : RuleKind.parse rule.kind with
    | none => simp [hi, hp]
    | some kind => cases kind <;> cases regexps rule.pattern <;> simp [hi, hp]

theorem exists_engine_new {rules : List Rule} :
    (∃ engine, Engine.new regexps version rules = .ok engine) ↔
      ∀ rule ∈ rules, WellFormed regexps rule := by
  simp only [← exists_compileRule, ← exists_mapM_eq_ok, Engine.new]
  cases rules.mapM (compileRule regexps) <;> simp [Except.map]

theorem exists_compileEngine {fallback : Engine} :
    (∀ cached, ∃ engine, compileEngine regexps cached snapshot (some fallback) = .ok engine) ↔
      (snapshot.guardrail.mode ≠ "" →
        ∀ rule ∈ snapshot.guardrail.rules, WellFormed regexps (toRule rule)) := by
  by_cases hm : snapshot.guardrail.mode = ""
  · simp [compileEngine, hm]
  have hr : (∀ rule ∈ snapshot.guardrail.rules, WellFormed regexps (toRule rule)) ↔
      ∃ engine, Engine.new regexps snapshot.version (snapshot.guardrail.rules.map toRule)
        = .ok engine := by
    rw [exists_engine_new, List.forall_mem_map]
  simp only [ne_eq, hm, not_false_eq_true, forall_true_left, hr, compileEngine, if_true]
  constructor
  · intro h
    simpa only [mapError_eq_ok] using h none
  · intro h cached
    cases cached with
    | none => simpa only [mapError_eq_ok] using h
    | some engine => exact ⟨engine, rfl⟩

/-- The rules that a fast publish stores are well formed. -/
theorem wellFormed_of_fastPublish {rows rows' : List PolicyRow}
    {active active' : Assoc String Policy}
    {tenantID change : String} {policy : Policy} {published : PolicyRow}
    (h : fastPublish regexps rows active tenantID policy change = .ok (rows', active', published)) :
    ∀ rule ∈ published.rules, WellFormed regexps (toRule rule) := by
  simp only [fastPublish, bind_eq_ok, pure_eq_ok, Prod.mk.injEq] at h
  obtain ⟨⟨policy', type⟩, hp, _, -, _, -, rfl, rfl, rfl⟩ := h
  unfold prepare at hp
  split_ifs at hp
  split at hp
  · cases hp
  · split at hp
    · cases hp
    · rename_i engine he
      obtain ⟨rfl, -⟩ := Prod.mk.inj (Except.ok.inj hp)
      exact List.forall_mem_map.mp (exists_engine_new.mp ⟨engine, he⟩)

theorem guardrail_compile
    (h : compile lib system document version publishedAt keys = .ok snapshot) :
    snapshot.guardrail.mode = document.guardrail.mode ∧
      snapshot.guardrail.rules = document.guardrail.rules := by
  obtain ⟨-, apiKeys, -, rfl⟩ := compile_eq_ok.mp h
  exact ⟨rfl, rfl⟩

/-- **When a compiled configuration has an engine.**  A document that compiles has one, whatever is
cached and whatever the validator says, exactly if it names no mode or its rules are well formed.  A
policy that a fast publish accepts has one wherever it is laid over a published version. -/
theorem validated_engine_iff (fallback : Engine) (tenantID : String)
    (hcompile : compile lib system document version publishedAt keys = .ok snapshot) :
    ((∀ cached, ∃ engine, compileEngine regexps cached snapshot (some fallback) = .ok engine) ↔
      (document.guardrail.mode ≠ "" →
        ∀ rule ∈ document.guardrail.rules, WellFormed regexps (toRule rule))) ∧
    ∀ (s s' : Server) (rows rows' : List PolicyRow) (active active' : Assoc String Policy)
      (policy : Policy) (change mode : String) (published : PolicyRow)
      (overlaid : TenantRuntimeSnapshot),
      fastPublish regexps rows active tenantID policy change = .ok (rows', active', published) →
      overlayGuardrail lib s tenantID (overlayPolicy mode published.toPolicy) = .ok (s', overlaid) →
      ∀ cached, ∃ engine, compileEngine regexps cached overlaid (some fallback) = .ok engine := by
  constructor
  · obtain ⟨hm, hr⟩ := guardrail_compile hcompile
    rw [exists_compileEngine, hm, hr]
  · intro s s' rows rows' active active' policy change mode published overlaid hf ho
    obtain ⟨v, -, hv, -⟩ := overlayGuardrail_eq_ok.mp ho
    obtain ⟨-, -, keys', -, hc⟩ := compileVersion_eq_ok.mp hv
    rw [exists_compileEngine, (guardrail_compile hc).2]
    exact fun _ => wellFormed_of_fastPublish hf

/-- A document of one rule, which is enforced. -/
def ruled (pattern : String) : TenantConfig :=
  (plainDocument "a" "acme").withGuardrail
    { (plainDocument "a" "acme").guardrail with
      mode := "enforce", rules := [⟨"r", "keyword", pattern, "block", ""⟩] }

/-- The snapshot of such a document. -/
def ruledSnapshot (pattern : String) : Except Err TenantRuntimeSnapshot :=
  compile plainLibrary .zero (ruled pattern) 1 ⟨0, 0⟩ []

theorem keyword_has_engine :
    ∃ snapshot, ruledSnapshot "x" = .ok snapshot ∧
      ∀ cached, ∃ engine, compileEngine (fun _ => none) cached snapshot (some ⟨0, []⟩)
        = .ok engine := by
  obtain ⟨snapshot, hs⟩ : ∃ snapshot, ruledSnapshot "x" = .ok snapshot := ⟨_, rfl⟩
  refine ⟨snapshot, hs, (validated_engine_iff _ "a" hs).1.mpr fun _ => ?_⟩
  simp only [wellFormed_iff]
  decide +kernel

/-- A rule without a pattern passes, and the snapshot has no engine. -/
theorem patternless_rule_passes :
    hasErrors (validateForTenantWithSystemDefaults plainLibrary .zero (ruled "") "a") = false ∧
      ∃ snapshot, ruledSnapshot "" = .ok snapshot ∧
        ∃ error, compileEngine (fun _ => none) none snapshot (some ⟨0, []⟩) = .error error :=
  ⟨by decide +kernel, _, rfl, _, rfl⟩

/-! ### The cache of engines -/

section

variable (regexps) (sha256 : List UInt8 → List UInt8) (items : Assoc String Engine)
  (s : TenantRuntimeSnapshot)

/-- An engine that is built from the rules. -/
def fresh : Except Guardrail.CompileError Engine :=
  Engine.new regexps s.version (s.guardrail.rules.map toRule)

/-- With a mode, the engine evaluates every text as a fresh one does. -/
def Invisible (c : TenantRuntimeSnapshot × Option Engine) : Prop :=
  c.1.guardrail.mode ≠ "" → ∀ engine, (cachedEngine regexps sha256 items c.1 c.2).1 = .ok engine →
    ∃ engine', fresh regexps c.1 = .ok engine' ∧
      ∀ sum text, engine.evaluate sum text = engine'.evaluate sum text

variable {regexps sha256 items s} {calls : List (TenantRuntimeSnapshot × Option Engine)}
  {c : TenantRuntimeSnapshot × Option Engine}

variable (regexps sha256 calls items) in
/-- What is cached was built for one of the calls, under its key. -/
def Sourced : Prop :=
  ∀ key engine, items.lookup key = some engine → ∃ c ∈ calls, engineCacheKey sha256 c.1 = key ∧
    fresh regexps c.1 = .ok engine

theorem compileEngine_none {fallback : Option Engine} (h : s.guardrail.mode ≠ "") :
    compileEngine regexps none s fallback = (fresh regexps s).mapError .rules := if_pos h

theorem Sourced.step (h : Sourced regexps sha256 items calls) (hc : c ∈ calls) :
    Sourced regexps sha256 (cachedStep regexps sha256 items c) calls := by
  unfold cachedStep cachedEngine
  dsimp only
  split
  · rename_i engine he
    split_ifs with hp
    · intro key e hl
      rcases Assoc.lookup_insert_some hl with ⟨rfl, rfl⟩ | ⟨-, hold⟩
      · rw [Option.isNone_iff_eq_none.mp hp.2, compileEngine_none hp.1, mapError_eq_ok] at he
        exact ⟨c, hc, rfl, he⟩
      · split_ifs at hold
        · cases hold
        · exact h key e hold
    · exact h
  · exact h

/-- The text whose hash is the fingerprint of the snapshot with these rules. -/
def hashed (sha256 : List UInt8 → List UInt8) (s : TenantRuntimeSnapshot)
    (rules : List Runtime.GuardrailRule) : List UInt8 :=
  rules.foldl (fun text rule => sha256 text ++ utf8 (ruleFields rule)) (utf8 (fingerprintStart s))

/-- Hashes have one length, and no two texts that are hashed for the calls have the same.  The
texts with the version, the epoch and the number of rules are shorter than a hash. -/
structure CollisionFree (sha256 : List UInt8 → List UInt8)
    (calls : List (TenantRuntimeSnapshot × Option Engine)) : Prop where
  length : ∀ bytes, (sha256 bytes).length = 32
  start : ∀ c ∈ calls, (utf8 (fingerprintStart c.1)).length < 32
  inj : ∀ c ∈ calls, ∀ c' ∈ calls, ∀ rules ∈ c.1.guardrail.rules.inits,
    ∀ rules' ∈ c'.1.guardrail.rules.inits,
      sha256 (hashed sha256 c.1 rules) = sha256 (hashed sha256 c'.1 rules') →
        hashed sha256 c.1 rules = hashed sha256 c'.1 rules'

section

variable {c' : TenantRuntimeSnapshot × Option Engine} (h : CollisionFree sha256 calls)
  (hc : c ∈ calls) (hc' : c' ∈ calls)

include h hc hc'

/-- From the last rule back to the start, the texts that were hashed are the same. -/
theorem CollisionFree.hashed_inj {rules rules' : List Runtime.GuardrailRule}
    (hr : rules <+: c.1.guardrail.rules) (hr' : rules' <+: c'.1.guardrail.rules)
    (heq : hashed sha256 c.1 rules = hashed sha256 c'.1 rules') :
    rules.map ruleFields = rules'.map ruleFields ∧
      fingerprintStart c.1 = fingerprintStart c'.1 := by
  have hlong : ∀ bytes text, 32 ≤ (sha256 bytes ++ text).length := by
    intro bytes text
    rw [List.length_append, h.length]
    omega
  induction rules using List.reverseRecOn generalizing rules' with
  | nil =>
    cases rules' using List.reverseRecOn with
    | nil => exact ⟨rfl, utf8_injective heq⟩
    | append_singleton rules' rule' =>
      rw [hashed, hashed, List.foldl_concat] at heq
      exact absurd (h.start c hc)
        (not_lt.mpr ((hlong _ _).trans_eq (congrArg List.length heq.symm)))
  | append_singleton rules rule ih =>
    cases rules' using List.reverseRecOn with
    | nil =>
      rw [hashed, hashed, List.foldl_concat] at heq
      exact absurd (h.start c' hc') (not_lt.mpr ((hlong _ _).trans_eq (congrArg List.length heq)))
    | append_singleton rules' rule' =>
      rw [hashed, hashed, List.foldl_concat, List.foldl_concat] at heq
      obtain ⟨hsum, hfields⟩ := List.append_inj heq (by rw [h.length, h.length])
      have hp := (List.prefix_append rules [rule]).trans hr
      have hp' := (List.prefix_append rules' [rule']).trans hr'
      have htext := h.inj c hc c' hc' rules ((List.mem_inits ..).mpr hp) rules'
        ((List.mem_inits ..).mpr hp') hsum
      obtain ⟨hmap, hstart⟩ := ih hp hp' htext
      rw [List.map_append, List.map_append, hmap, List.map_singleton, List.map_singleton,
        utf8_injective hfields]
      exact ⟨rfl, hstart⟩

/-- Keys are equal for the same tenant, version, epoch and rules whose fields run together to the
same texts. -/
theorem CollisionFree.engineCacheKey_eq_iff :
    engineCacheKey sha256 c.1 = engineCacheKey sha256 c'.1 ↔
      c.1.tenantID = c'.1.tenantID ∧ c.1.version = c'.1.version ∧
        c.1.guardrail.securityEpoch = c'.1.guardrail.securityEpoch ∧
        c.1.guardrail.rules.map ruleFields = c'.1.guardrail.rules.map ruleFields := by
  have hsum : ∀ s : TenantRuntimeSnapshot, s.guardrail.rules.foldl
      (fun sum rule => sha256 (sum ++ utf8 (ruleFields rule))) (sha256 (utf8 (fingerprintStart s)))
        = sha256 (hashed sha256 s s.guardrail.rules) :=
    fun s => List.foldl_hom sha256 fun _ _ => rfl
  simp only [engineCacheKey, hsum]
  constructor
  · intro hkey
    have hkey := congrArg String.toList hkey
    simp only [String.toList_append, String.toList_ofList] at hkey
    obtain ⟨htenant, hhex⟩ := List.append_inj' hkey (by simp only [length_hexEncode, h.length])
    have htext := h.inj c hc c' hc' _ ((List.mem_inits ..).mpr List.prefix_rfl) _
      ((List.mem_inits ..).mpr List.prefix_rfl) (hexEncode_injective hhex)
    obtain ⟨hfields, hstart⟩ := h.hashed_inj hc hc' List.prefix_rfl List.prefix_rfl htext
    have hstart := congrArg String.toList hstart
    simp only [fingerprintStart, String.toList_append, List.append_assoc] at hstart
    obtain ⟨hversion, hstart⟩ := num_append_inj (stops_cons rfl) (stops_cons rfl) hstart
    obtain ⟨hepoch, -⟩ := num_append_inj (stops_cons rfl) (stops_cons rfl) (List.cons.inj hstart).2
    exact ⟨String.toList_inj.mp (List.append_cancel_right htenant), hversion, hepoch, hfields⟩
  · rintro ⟨htenant, hversion, hepoch, hfields⟩
    have hlength := congrArg List.length hfields
    rw [List.length_map, List.length_map] at hlength
    have hhashed : ∀ s : TenantRuntimeSnapshot, hashed sha256 s s.guardrail.rules
        = (s.guardrail.rules.map ruleFields).foldl (fun text fields => sha256 text ++ utf8 fields)
          (utf8 (fingerprintStart s)) := by
      intro s
      rw [List.foldl_map]
      rfl
    rw [hhashed, hhashed, hfields, fingerprintStart, fingerprintStart, htenant, hversion, hepoch,
      hlength]

end

theorem Sourced.invisible (h : Sourced regexps sha256 items calls)
    (hk : ∀ c' ∈ calls, engineCacheKey sha256 c'.1 = engineCacheKey sha256 c.1 →
      c'.1.guardrail.rules = c.1.guardrail.rules) : Invisible regexps sha256 items c := by
  intro hm engine he
  simp only [cachedEngine] at he
  cases hl : items.lookup (engineCacheKey sha256 c.1) with
  | none =>
    rw [hl, compileEngine_none hm, mapError_eq_ok] at he
    exact ⟨engine, he, fun _ _ => rfl⟩
  | some e =>
    simp only [hl, compileEngine, if_pos hm, Except.ok.injEq] at he
    subst he
    obtain ⟨c', hc, hkey, hn⟩ := h _ _ hl
    obtain ⟨rules, hr, rfl⟩ := map_eq_ok.mp hn
    rw [hk c' hc hkey] at hr
    exact ⟨⟨c.1.version, rules⟩, map_eq_ok.mpr ⟨rules, hr, rfl⟩, fun _ _ => rfl⟩

/-- **The cache of engines is invisible where the fields of the rules can be told apart**: snapshots
of one tenant, version and epoch have the same rules if the fields of each run together to the same
texts. -/
theorem engine_cache_invisible (hhash : CollisionFree sha256 calls)
    (hfields : ∀ c ∈ calls, ∀ c' ∈ calls, c'.1.tenantID = c.1.tenantID →
      c'.1.version = c.1.version → c'.1.guardrail.securityEpoch = c.1.guardrail.securityEpoch →
      c'.1.guardrail.rules.map ruleFields = c.1.guardrail.rules.map ruleFields →
        c'.1.guardrail.rules = c.1.guardrail.rules) :
    Allowed (cachedStep regexps sha256) (Invisible regexps sha256) .empty calls := by
  refine Allowed.mono (I := (Sourced regexps sha256 · calls)) (fun _ _ h hc => h.step hc)
    (fun _ c h hc => h.invisible fun c' hc' hkey => ?_) calls _ (fun _ _ hl => ?_)
    (allowed_of_mem calls _ fun c hc _ => hc)
  · obtain ⟨htenant, hversion, hepoch, heq⟩ := (hhash.engineCacheKey_eq_iff hc' hc).mp hkey
    exact hfields c hc c' hc' htenant hversion hepoch heq
  · cases hl

/-- The last 32 bytes, with zeros before them where there are fewer. -/
def lastBytes (bytes : List UInt8) : List UInt8 := (List.replicate 32 0 ++ bytes).drop bytes.length

theorem length_lastBytes (bytes : List UInt8) : (lastBytes bytes).length = 32 := by
  rw [lastBytes, List.length_drop, List.length_append, List.length_replicate]
  omega

theorem keyword_cache_invisible : ∃ s s', ruledSnapshot "x" = .ok s ∧ ruledSnapshot "y" = .ok s' ∧
    Allowed (cachedStep (fun _ => none) lastBytes) (Invisible (fun _ => none) lastBytes) .empty
      [(s, none), (s', none), (s, none)] := by
  obtain ⟨s, hs⟩ : ∃ s, ruledSnapshot "x" = .ok s := ⟨_, rfl⟩
  obtain ⟨s', hs'⟩ : ∃ s, ruledSnapshot "y" = .ok s := ⟨_, rfl⟩
  refine ⟨s, s', hs, hs', ?_⟩
  obtain rfl := Except.ok.inj hs
  obtain rfl := Except.ok.inj hs'
  exact engine_cache_invisible ⟨length_lastBytes, by decide +kernel, by decide +kernel⟩
    (by decide +kernel)

variable (regexps sha256 calls) in
/-- **The cache never has more than 32 engines, each built for a call with its key.** -/
theorem engines_bounded :
    (run (cachedStep regexps sha256) .empty calls).entries.length ≤ 32 ∧
      Sourced regexps sha256 (run (cachedStep regexps sha256) .empty calls) calls := by
  refine Allowed.invariant
    (I := fun items => items.entries.length ≤ 32 ∧ Sourced regexps sha256 items calls)
    (fun items c h hc => ⟨?_, h.2.step hc⟩) calls .empty ⟨by decide, ?_⟩
    (allowed_of_mem calls _ fun c hc _ => hc)
  · unfold cachedStep cachedEngine putEngine
    have hf := items.entries.length_filter_le (·.1 ≠ engineCacheKey sha256 c.1)
    dsimp only
    split
    · split_ifs <;> simp [Assoc.insert, Assoc.empty] at hf ⊢ <;> omega
    · exact h.1
  · intro _ _ h
    cases h

/-- A snapshot with a rule that replaces a word. -/
def redacting (pattern replacement : String) : Except Err TenantRuntimeSnapshot :=
  compile plainLibrary .zero ((ruled "").withGuardrail
    { (ruled "").guardrail with rules := [⟨"r", "keyword", pattern, "redact", replacement⟩] })
    1 ⟨0, 0⟩ []

/-- The fields of two rules run together to the same text, and the engine of the one replaces a
word that the other does not look for. -/
theorem stale_engine : ∃ s s', redacting "a" "redactX" = .ok s ∧ redacting "aredact" "X" = .ok s' ∧
    ((cachedEngine (fun _ => none) lastBytes
      (cachedStep (fun _ => none) lastBytes .empty (s, none)) s' none).1.map
      fun engine => (engine.evaluate id (utf8 "a")).content) = .ok (utf8 "redactX") ∧
    ((fresh (fun _ => none) s').map fun engine => (engine.evaluate id (utf8 "a")).content)
      = .ok (utf8 "a") :=
  ⟨_, _, rfl, rfl, rfl, rfl⟩

end

end LiteAIG.Config
