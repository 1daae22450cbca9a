/-
Whose credential a kept connector carries.

The resolver gives a call what the first call with the same text has built.  The text
names the credential and not its secret reference, the endpoint and not the provider
type, and not the tenant.  So a call is given the connector it asks for exactly as
long as calls under one text agree on those.
-/
import LiteAIG.Connectors.Resolver
import LiteAIG.Lib.Memo

namespace LiteAIG.Connectors

open Lib LiteAIG.Runtime Option

structure Call where
  snapshot : TenantRuntimeSnapshot
  deployment : Deployment
  credentialID : String

def ProviderResolver.step (pkg : Packages) (r : ProviderResolver) (c : Call) : ProviderResolver :=
  (r.resolveCredential pkg c.snapshot c.deployment c.credentialID).2

def Call.usable (c : Call) : Option (Provider × Credential) :=
  Connectors.usable c.snapshot c.deployment c.credentialID

/-- What the invoker for a call has to be built from. -/
structure Source where
  kind : Option ConnectorKind
  (endpoint secretRef : String)
  deriving DecidableEq

/-- The type and the endpoint of the provider and the reference of the credential that the
snapshot has for the call. -/
def Call.source (c : Call) : Option Source :=
  c.usable.map fun found =>
    ⟨ConnectorKind.parse found.1.type, found.1.endpoint, found.2.secretRef⟩

/-- What an invoker was built from. -/
def Invoker.source (i : Invoker) : Source :=
  ⟨some i.inner.kind, i.inner.config.baseURL, i.inner.config.secretRef⟩

section

variable (pkg : Packages) (timeout : Int)

/-- The text that a call is kept under. -/
def Call.key (c : Call) : Option String :=
  c.usable.map fun found => cacheKey pkg timeout c.deployment c.credentialID found.1

/-- What a call would build. -/
def Call.built (c : Call) : Option Invoker :=
  c.usable.bind fun found =>
    (build pkg timeout found.1 found.2).map (⟨·, c.deployment.upstreamModel⟩)

end

variable {pkg : Packages} {timeout : Int}
  {kind : ConnectorKind} {cfg : Config} {connector : Connector} {provider : Provider}
  {credential : Credential}

theorem newParsed_eq_some (h : newParsed pkg kind cfg = some connector) :
    connector = ⟨kind, cfg⟩ := by
  unfold newParsed at h
  split at h
  · cases h
  · split_ifs at h
    exact (Option.some.inj h).symm

theorem newRegional_eq_some {ho : String → String} (hu : cfg.baseURL ≠ "")
    (h : newRegional ho kind cfg = some connector) : connector = ⟨kind, cfg⟩ := by
  unfold newRegional at h
  simp only [if_neg hu] at h
  split_ifs at h
  exact (Option.some.inj h).symm

theorem build_source (he : provider.endpoint ≠ "")
    (h : build pkg timeout provider credential = some connector) :
    ConnectorKind.parse provider.type = some connector.kind ∧
      connector.config.baseURL = provider.endpoint ∧
      connector.config.secretRef = credential.secretRef := by
  unfold build at h
  split at h
  · cases h
  · cases hk : ConnectorKind.parse provider.type with
    | none => simp [hk] at h
    | some kind =>
      simp only [hk] at h
      cases kind with
      | bedrock => rw [newRegional_eq_some he h]; exact ⟨rfl, rfl, rfl⟩
      | vertex => rw [newRegional_eq_some he h]; exact ⟨rfl, rfl, rfl⟩
      | openai | anthropic | azure | gemini =>
        rw [newParsed_eq_some h]
        exact ⟨rfl, rfl, rfl⟩

theorem usable_endpoint {snap : TenantRuntimeSnapshot} {dep : Deployment}
    {cid : String}
    (h : usable snap dep cid = some (provider, credential)) :
    provider.endpoint ≠ "" := by
  unfold usable at h
  split at h
  · cases h
  · split_ifs at h with hs
    split at h
    · cases h
    · split_ifs at h
      obtain ⟨rfl, -⟩ := Prod.mk.inj (Option.some.inj h)
      exact fun he => hs (Or.inr he)

theorem built_source (c : Call) (i : Invoker) (h : c.built pkg timeout = some i) :
    some i.source = c.source := by
  obtain ⟨⟨provider, credential⟩, hu, hb⟩ := bind_eq_some_iff.mp h
  obtain ⟨connector, hc, rfl⟩ := map_eq_some_iff.mp hb
  obtain ⟨hk, hur, hs⟩ := build_source (usable_endpoint hu) hc
  rw [Call.source, hu, map_some, Invoker.source, hk, hur, hs]

/-! ### The resolver as a table -/

theorem resolveCredential_eq (r : ProviderResolver) (c : Call) :
    r.resolveCredential pkg c.snapshot c.deployment c.credentialID
      = ((memo (Call.key pkg r.timeout) (Call.built pkg r.timeout) r.invokers c).1,
          ⟨r.timeout, (memo (Call.key pkg r.timeout)
            (Call.built pkg r.timeout) r.invokers c).2⟩) := by
  unfold ProviderResolver.resolveCredential memo Call.key Call.built Call.usable
  cases usable c.snapshot c.deployment c.credentialID with
  | none => rfl
  | some found =>
    obtain ⟨provider, credential⟩ := found
    simp only [map_some, bind_some]
    cases r.invokers.lookup (cacheKey pkg r.timeout c.deployment c.credentialID provider) with
    | some invoker => rfl
    | none => cases build pkg r.timeout provider credential <;> rfl

theorem run_step (hi : List Call) : ∀ invokers : Assoc String Invoker,
    run (ProviderResolver.step pkg) ⟨timeout, invokers⟩ hi
      = ⟨timeout, run (memoStep (Call.key pkg timeout) (Call.built pkg timeout)) invokers hi⟩ := by
  induction hi with
  | nil => intro invokers; rfl
  | cons c rest ih =>
    intro invokers
    rw [run_cons, run_cons, ProviderResolver.step, resolveCredential_eq]
    exact ih _

/-! ### Histories -/

/-- Every invoker that a call of the history is given was built from what the call's own snapshot
says. -/
def Current (pkg : Packages) (timeout : Int) (history : List Call) : Prop :=
  ∀ before c after, history = before ++ c :: after →
    ∀ invoker, ((run (ProviderResolver.step pkg) (.new timeout) before).resolveCredential pkg
        c.snapshot c.deployment c.credentialID).1 = some invoker →
      some invoker.source = c.source

/-- Calls that are kept under one text ask for the same. -/
def Consistent (pkg : Packages) (timeout : Int) (c c' : Call) : Prop :=
  c.built pkg timeout ≠ none → ∀ text, c.key pkg timeout = some text →
    c'.key pkg timeout = some text → c.source = c'.source

/--
**Invokers are current as long as no text is used for two things.**  Every call of a history gets
an invoker for its own snapshot's provider and secret reference exactly if a call that can build
one and a later call with the same text ask for the same provider type, endpoint and reference.
-/
theorem resolved_current_iff (pkg : Packages) (timeout : Int) (history : List Call) :
    Current pkg timeout history ↔ history.Pairwise (Consistent pkg timeout) := by
  have ht : AllFit (Call.key pkg timeout) (Call.built pkg timeout)
      (fun i c => some i.source = c.source) history ↔ history.Pairwise (Consistent pkg timeout) :=
    allFit_iff built_source history
  rw [← ht]
  unfold Current AllFit Fits ProviderResolver.new
  simp only [run_step, resolveCredential_eq]

/-- Every endpoint is a host with a certificate. -/
def hosted : Packages where
  parse _ := some ⟨"https", "api.example", "api.example"⟩
  isLoopback _ := false
  allowed _ := true
  pathEscape := id
  durationText _ := "30s"

/-- A call for the deployment `d`, under a snapshot in which the credential `c` has a reference. -/
def callWith (tenantID secretRef : String) : Call where
  snapshot := newTenantSnapshot
    { TenantSnapshotData.zero with
      tenantID
      providers := [⟨"pr", "tenant", "openai", "https://api.example", "enabled"⟩]
      credentials := [⟨"c", "pr", "tenant", secretRef, "enabled"⟩] }
  deployment := ⟨"d", "pr", "c", "gpt", "", "enabled", "", [], 0, 0⟩
  credentialID := "c"

/-- What the first call with the reference `vault:old` builds. -/
def oldInvoker : Invoker :=
  ⟨⟨.openai, ⟨"https://api.example", "vault:old", false, 30 * 1000000000, ""⟩⟩, "gpt"⟩

/-- After the credential was rotated a call is still given the old reference, and a tenant with the
same ids is given the reference of another. -/
theorem rotated_credential_kept :
    ((run (ProviderResolver.step hosted) (.new 0)
      [callWith "t1" "vault:old"]).resolveCredential hosted
        (callWith "t1" "vault:new").snapshot (callWith "t1" "vault:new").deployment "c").1
        = some oldInvoker ∧
      (callWith "t1" "vault:new").snapshot.credentials.lookup "c"
        = some ⟨"c", "pr", "tenant", "vault:new", "enabled"⟩ ∧
      ¬ Current hosted 0 [callWith "t1" "vault:old", callWith "t1" "vault:new"] ∧
      ¬ Current hosted 0 [callWith "t1" "vault:old", callWith "t2" "vault:other"] := by
  refine ⟨by decide +kernel, by decide +kernel, fun h => ?_, fun h => ?_⟩
  · exact absurd (h [callWith "t1" "vault:old"] (callWith "t1" "vault:new") [] rfl oldInvoker
      (by decide +kernel)) (by decide +kernel)
  · exact absurd (h [callWith "t1" "vault:old"] (callWith "t2" "vault:other") [] rfl oldInvoker
      (by decide +kernel)) (by decide +kernel)

end LiteAIG.Connectors
