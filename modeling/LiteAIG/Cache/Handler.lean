/-
The cache stages of the pipeline, and the write-back behind it.

A request that the exact cache cannot answer is marked as pending, with the key its
answer is to be stored under, and goes on to the semantic cache.  That one looks for
a request that is close enough and answers with what is stored for it; it then notes
the other request's key, and the mark stays.  What has an answer and a mark at the end
of the pipeline is stored, with the time it is stored at.

The index of the semantic cache is outside: what a search returns is an input.
-/
import LiteAIG.Cache.Store
import LiteAIG.Runtime.Snapshot
import LiteAIG.Lib.Threads

namespace LiteAIG.Cache

open Lib LiteAIG.Runtime

/-- What the stages read of a request. -/
structure CacheRequest where
  (tenantID projectID model : String)
  /-- The JSON of the request. -/
  normalized : String
  kind : String
  /-- The `cache-control` entry of its metadata, empty if there is none. -/
  cacheControl : String
  (toolCalls hasImages : Bool)
  temperature : Option ℚ

def defaultCacheableKinds : List String := ["chat", "embedding"]

def cacheable (request : CacheRequest) (policy : CachePolicy) : Bool :=
  if !policy.enabled then false
  else if request.cacheControl.toLower = "no-cache" then false
  else
    let allowed := if policy.allowedKinds.length > 0 then policy.allowedKinds
      else defaultCacheableKinds
    if request.kind ∉ allowed then false
    else if request.toolCalls then false
    else if request.hasImages then false
    else if policy.maxTemperature > 0 ∧ request.temperature.getD 0 > policy.maxTemperature then
      false
    else true

def keyOf (sha256 : List UInt8 → List UInt8) (request : CacheRequest)
    (policy : CachePolicy) : String :=
  Key.string sha256
    ⟨request.tenantID, request.projectID, request.model, request.normalized,
      policy.namespaceVersion⟩

/-- An answer, with the time its provider produced it. -/
structure Answer (ρ : Type) where
  response : ρ
  producedAt : Int

/-- What the stages note in the context of a request. -/
structure CacheContext (ρ : Type) where
  response : Option (Answer ρ)
  cacheHit : Bool
  (cacheKey source : String)
  cachePending : Bool

def CacheContext.new {ρ : Type} : CacheContext ρ := ⟨none, false, "", "", false⟩

/-- JSON of a response, and back. -/
structure Codec (ρ β : Type) where
  marshal : ρ → Except String β
  unmarshal : β → Option ρ

structure SemanticCandidate where
  sourceKey : String
  score : ℚ

/-- What the semantic stage is given: the vector of the request and the answer of the search. -/
structure SemanticLookup where
  vector : Except String (List ℚ)
  candidates : Except String (List SemanticCandidate)

def defaultSemanticThreshold : ℚ := 85 / 100

def semanticThreshold (threshold : ℚ) : ℚ :=
  if threshold > 0 then threshold else defaultSemanticThreshold

section

variable {σ ρ β : Type} [Store σ β] (codec : Codec ρ β) (sha256 : List UInt8 → List UInt8)

/-- The request is answered with an entry. -/
def CacheContext.hit (ctx : CacheContext ρ) (key source : String) (response : ρ) (entry : Entry β) :
    CacheContext ρ :=
  { ctx with
    response := some ⟨response, entry.producedAt⟩, cacheHit := true, cacheKey := key, source }

def CacheContext.miss (ctx : CacheContext ρ) (key : String) : CacheContext ρ :=
  { ctx with cachePending := true, cacheKey := key }

variable (policy : CachePolicy)

/-- `Handler.Handle`: the exact cache.  An entry that cannot be decoded is deleted. -/
def exactHandle (request : CacheRequest) (now : Int) (store : σ) (ctx : CacheContext ρ) :
    CacheContext ρ × σ :=
  if !cacheable request policy then (ctx, store)
  else
    let key := keyOf sha256 request policy
    match Store.get store key now with
    | (some entry, store) =>
      match codec.unmarshal entry.response with
      | some response => (ctx.hit key "cache" response entry, store)
      | none => (ctx.miss key, Store.delete store key)
    | (none, store) => (ctx.miss key, store)

/-- `SemanticHandler.Handle`.  A lookup that cannot be made leaves the request as it is. -/
def semanticHandle (request : CacheRequest) (lookup : SemanticLookup) (now : Int) (store : σ)
    (ctx : CacheContext ρ) : CacheContext ρ × σ :=
  if !cacheable request policy then (ctx, store)
  else
    let key := keyOf sha256 request policy
    match lookup.vector, lookup.candidates with
    | .ok (_ :: _), .ok (best :: _) =>
      if best.score ≥ semanticThreshold policy.semantic.threshold then
        match Store.get store best.sourceKey now with
        | (some entry, store) =>
          match codec.unmarshal entry.response with
          | some response => (ctx.hit best.sourceKey "semantic_cache" response entry, store)
          | none => (ctx.miss key, store)
        | (none, store) => (ctx.miss key, store)
      else (ctx.miss key, store)
    | .ok (_ :: _), .ok [] => (ctx.miss key, store)
    | _, _ => (ctx, store)

/-- The TTL of a policy, as a duration. -/
def exactTTL : Int := wrap64 (policy.ttlSeconds * 1000000000)

/-- `WriteBack`. -/
def writeBack (ttl now : Int) (ctx : CacheContext ρ) (store : σ) : Except String σ :=
  match ctx.response with
  | none => .ok store
  | some answer =>
    if !ctx.cachePending || ctx.cacheKey == "" then .ok store
    else
      match codec.marshal answer.response with
      | .error error => .error error
      | .ok raw => .ok (Store.put store ctx.cacheKey ⟨raw, now, ttl, answer.producedAt⟩)

end

/-! ### Requests in turns -/

/-- Where a request is. -/
inductive Progress (ρ : Type)
  | idle
  /-- The exact cache had no answer. -/
  | preflight (request : CacheRequest) (ctx : CacheContext ρ)
  /-- No cache had one. -/
  | unanswered (ctx : CacheContext ρ)
  | answered (ctx : CacheContext ρ)
  | done

inductive Action (ρ : Type)
  | exact (request : CacheRequest)
  | semantic (lookup : SemanticLookup)
  /-- The semantic cache is not set up. -/
  | noSemantic
  /-- The provider answers. -/
  | execute (response : ρ)
  /-- The output guardrail changes the answer. -/
  | guard (response : ρ)
  | writeBack
  /-- The request fails, wherever it is. -/
  | fail
  /-- Time passes. -/
  | tick (elapsed : Nat)

/-- An answer from a cache. -/
structure Hit where
  (producedAt servedAt : Int)
  deriving DecidableEq

structure Caches (σ : Type) where
  store : σ
  clock : Int
  /-- The answers that came from a cache.  Nothing reads them. -/
  hits : List Hit

section

variable {σ ρ β : Type} [Store σ β] (codec : Codec ρ β) (sha256 : List UInt8 → List UInt8)
  (policy : CachePolicy)

/-- After a cache stage: a request with an answer has its hit noted, another goes on. -/
def Caches.after (s : Caches σ) (stage : CacheContext ρ × σ) (next : CacheContext ρ → Progress ρ) :
    Caches σ × Progress ρ :=
  match stage.1.response with
  | some answer =>
    ({ s with store := stage.2, hits := s.hits ++ [⟨answer.producedAt, s.clock⟩] },
      .answered stage.1)
  | none => ({ s with store := stage.2 }, next stage.1)

def act (s : Caches σ) (t : Progress ρ) (a : Action ρ) : Caches σ × Progress ρ :=
  match t, a with
  | .idle, .exact request =>
    s.after (exactHandle codec sha256 policy request s.clock s.store .new) (.preflight request)
  | .preflight request ctx, .semantic lookup =>
    if policy.semantic.enabled then
      s.after (semanticHandle codec sha256 policy request lookup s.clock s.store ctx) .unanswered
    else (s, .unanswered ctx)
  | .preflight _ ctx, .noSemantic => (s, .unanswered ctx)
  | .unanswered ctx, .execute response =>
    (s, .answered { ctx with response := some ⟨response, s.clock⟩ })
  | .answered ctx, .guard response =>
    (s, .answered { ctx with response := ctx.response.map fun answer => { answer with response } })
  | .answered ctx, .writeBack =>
    if policy.ttlSeconds > 0 then
      match writeBack codec (exactTTL policy) s.clock ctx s.store with
      | .ok store => ({ s with store }, .done)
      | .error _ => (s, .done)
    else (s, .done)
  | _, .fail => (s, .done)
  | t, .tick elapsed => ({ s with clock := s.clock + elapsed }, t)
  | t, _ => (s, t)

end

end LiteAIG.Cache
