/-
Guardrail policies that are published on their own.

A fast publish numbers the policy after the one that is active in memory, stores it
and then makes it the active one, unless another publish has come in between.  The
store keeps every policy and its newest one is what a new process starts from.
The publication time, the actor and the audit entry have no reader here.
-/
import LiteAIG.Guardrail.Engine
import LiteAIG.Lib.Except
import LiteAIG.Lib.Numbered
import LiteAIG.Runtime.Snapshot

namespace LiteAIG.Guardrail

open Lib
open LiteAIG.Runtime (GuardrailRule)

inductive ChangeType
  | tighten
  | loosen
  deriving DecidableEq

def ChangeType.text : ChangeType → String
  | .tighten => "tighten"
  | .loosen => "loosen"

def ChangeType.parse (change : String) : Option ChangeType :=
  if change = "tighten" then some .tighten else if change = "loosen" then some .loosen else none

theorem ChangeType.text_of_parse {change : String} {type : ChangeType}
    (h : ChangeType.parse change = some type) : type.text = change := by
  unfold ChangeType.parse at h
  split_ifs at h with ht hl
  · obtain rfl := Option.some.inj h
    exact ht.symm
  · obtain rfl := Option.some.inj h
    exact hl.symm

structure Policy where
  (id tenantID : String)
  (version securityEpoch : Int)
  rules : List GuardrailRule

/-- A rule as the engine takes it. -/
def toRule (rule : GuardrailRule) : Rule where
  id := utf8 rule.id
  kind := utf8 rule.kind
  pattern := utf8 rule.pattern
  action := utf8 rule.action
  replacement := utf8 rule.replacement

inductive PublishError
  | invalidScope
  | scopeMismatch
  | invalidChangeType
  | rules (error : CompileError)
  /-- The store has the version already. -/
  | exists
  | conflict
  deriving DecidableEq

/-- The text; of an error of the regexp package or of the database only how it begins. -/
def PublishError.text : PublishError → String
  | .invalidScope => "invalid tenant scope"
  | .scopeMismatch => "resource is outside tenant scope"
  | .invalidChangeType => "invalid guardrail change type"
  | .rules .invalidRule => "invalid guardrail rule"
  | .rules .unsupportedKind => "unsupported guardrail rule kind"
  | .rules .badPattern => "error parsing regexp"
  | .exists => "UNIQUE constraint failed"
  | .conflict => "guardrail publish conflict: retry"

/-! ### The store -/

structure PolicyRow extends Policy where
  changeType : ChangeType

/-- `Create`; a tenant and a version are the primary key. -/
def createPolicy (rows : List PolicyRow) (policy : Policy) (change : ChangeType) :
    Except PublishError (List PolicyRow) :=
  if rows.any fun row => row.tenantID = policy.tenantID ∧ row.version = policy.version then
    .error .exists
  else .ok (rows ++ [⟨policy, change⟩])

/-- `GetActive`: the row with the highest version. -/
def activePolicy (rows : List PolicyRow) (tenantID : String) : Option PolicyRow :=
  newest (fun row => row.version) (rows.filter (·.tenantID = tenantID))

/-! ### Fast publish -/

/-- The version of the policy that is active in memory. -/
def activeVersion (active : Assoc String Policy) (tenantID : String) : Int :=
  ((active.lookup tenantID).map (·.version)).getD 0

variable (compile : Text → Option Regexp)

/-- The checks before anything is stored, and the policy with its number. -/
def prepare (active : Assoc String Policy) (tenantID : String) (policy : Policy) (change : String) :
    Except PublishError (Policy × ChangeType) :=
  if tenantID = "" then .error .invalidScope
  else if policy.tenantID ≠ tenantID then .error .scopeMismatch
  else
    match ChangeType.parse change with
    | none => .error .invalidChangeType
    | some type =>
      match Engine.new compile policy.version (policy.rules.map toRule) with
      | .error error => .error (.rules error)
      | .ok _ =>
        let epoch := ((active.lookup tenantID).map (·.securityEpoch)).getD 0
        .ok ({ policy with
          version := activeVersion active tenantID + 1
          securityEpoch := epoch + 1 }, type)

/-- The last section: the policy becomes the active one if its predecessor still is. -/
def commit (active : Assoc String Policy) (tenantID : String) (base : Int) (policy : Policy) :
    Except PublishError (Assoc String Policy) :=
  if activeVersion active tenantID = base then .ok (active.insert tenantID policy)
  else .error .conflict

/-- `FastPublish` with nothing in between: the rows, the active policies, and what was published. -/
def fastPublish (rows : List PolicyRow) (active : Assoc String Policy) (tenantID : String)
    (policy : Policy) (change : String) :
    Except PublishError (List PolicyRow × Assoc String Policy × PolicyRow) := do
  let (policy, type) ← prepare compile active tenantID policy change
  let rows ← createPolicy rows policy type
  let active' ← commit active tenantID (activeVersion active tenantID) policy
  return (rows, active', ⟨policy, type⟩)

/-- What a fast publish that succeeds has done to the policies. -/
theorem fastPublish_spec {compile : Text → Option Regexp} {tenantID : String}
    {rows rows' : List PolicyRow} {active active' : Assoc String Policy}
    {policy : Policy} {change : String} {published : PolicyRow}
    (h : fastPublish compile rows active tenantID policy change = .ok (rows', active', published)) :
    rows' = rows ++ [published] ∧ published.tenantID = tenantID ∧
      published.version = activeVersion active tenantID + 1 ∧ published.changeType.text = change ∧
      activeVersion active' tenantID = published.version ∧
      ∀ row ∈ rows, row.tenantID = tenantID → row.version ≠ published.version := by
  simp only [fastPublish, bind_eq_ok, pure_eq_ok, Prod.mk.injEq] at h
  obtain ⟨⟨policy', type⟩, hprepare, rows'', hcreate, active'', hcommit, rfl, rfl, rfl⟩ := h
  have hprepared : policy'.tenantID = tenantID ∧
      policy'.version = activeVersion active tenantID + 1 ∧ type.text = change := by
    unfold prepare at hprepare
    split_ifs at hprepare with hscope htenant
    split at hprepare
    · simp at hprepare
    · rename_i type' hparse
      split at hprepare
      · simp at hprepare
      · simp only [Except.ok.injEq, Prod.mk.injEq] at hprepare
        obtain ⟨rfl, rfl⟩ := hprepare
        exact ⟨not_not.mp htenant, rfl, ChangeType.text_of_parse hparse⟩
  have hcreated : rows'' = rows ++ [⟨policy', type⟩] ∧
      ∀ row ∈ rows, row.tenantID = policy'.tenantID → row.version ≠ policy'.version := by
    unfold createPolicy at hcreate
    split at hcreate
    · simp at hcreate
    · rename_i hfree
      refine ⟨(Except.ok.inj hcreate).symm, fun row hrow htenant hversion => hfree ?_⟩
      exact List.any_eq_true.mpr ⟨row, hrow, by simp [htenant, hversion]⟩
  have hcommitted : active'' = active.insert tenantID policy' := by
    unfold commit at hcommit
    split at hcommit
    · exact (Except.ok.inj hcommit).symm
    · simp at hcommit
  obtain ⟨rfl, hnumber, hchange⟩ := hprepared
  refine ⟨hcreated.1, rfl, hnumber, hchange, ?_, hcreated.2⟩
  simp [hcommitted, activeVersion]

/-! ### The engine of a snapshot -/

inductive EngineError
  | rules (error : CompileError)
  | notConfigured
  deriving DecidableEq

/-- `CompileEngine`: the engine of the snapshot's rules, or the fallback when the snapshot has no
mode.  `cached` is what the cache holds for the policy. -/
def compileEngine (cached : Option Engine) (snapshot : Runtime.TenantRuntimeSnapshot)
    (fallback : Option Engine) :
    Except EngineError Engine :=
  if snapshot.guardrail.mode ≠ "" then
    match cached with
    | some engine => .ok engine
    | none =>
      (Engine.new compile snapshot.version (snapshot.guardrail.rules.map toRule)).mapError .rules
  else
    match fallback with
    | some engine => .ok engine
    | none => .error .notConfigured

/-! ### The cache of engines -/

section

open LiteAIG.Runtime (TenantRuntimeSnapshot)

variable (sha256 : List UInt8 → List UInt8) (items : Assoc String Engine)
  (s : TenantRuntimeSnapshot)

/-- The text that the fingerprint starts with. -/
def fingerprintStart : String :=
  toString s.version ++ "|" ++ toString s.guardrail.securityEpoch ++ "|" ++
    toString s.guardrail.rules.length

/-- The fields of a rule, run together. -/
def ruleFields (rule : GuardrailRule) : String :=
  rule.id ++ rule.kind ++ rule.pattern ++ rule.action ++ rule.replacement

def engineCacheKey : String :=
  let fingerprint := s.guardrail.rules.foldl
    (fun sum rule => sha256 (sum ++ utf8 (ruleFields rule)))
    (sha256 (utf8 (fingerprintStart s)))
  s.tenantID ++ ":" ++ String.ofList (hexEncode fingerprint)

/-- A cache that is full is cleared. -/
def putEngine (key : String) (engine : Engine) : Assoc String Engine :=
  (if items.entries.length ≥ 32 then .empty else items).insert key engine

/-- `CompileEngine` with the cache. -/
def cachedEngine (fallback : Option Engine) : Except EngineError Engine × Assoc String Engine :=
  let key := engineCacheKey sha256 s
  let answer := compileEngine compile (items.lookup key) s fallback
  (answer, match answer with
    | .ok engine =>
      if s.guardrail.mode ≠ "" ∧ (items.lookup key).isNone then
        putEngine items key engine else items
    | .error _ => items)

/-- The cache after a call, which has a snapshot and a fallback. -/
def cachedStep (c : TenantRuntimeSnapshot × Option Engine) : Assoc String Engine :=
  (cachedEngine compile sha256 items c.1 c.2).2

end

end LiteAIG.Guardrail
