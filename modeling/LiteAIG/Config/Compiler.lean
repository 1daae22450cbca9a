/-
From a document to the snapshot that requests run under.

Compilation applies the system's defaults, refuses a document with errors, projects
every section to the snapshot's records and takes the tenant's API keys in.  The
version and the publication time are only copied.
-/
import LiteAIG.Config.Validator
import LiteAIG.Lib.Except
import LiteAIG.Pipeline.Estimate

namespace LiteAIG.Config

open Lib
open LiteAIG.Runtime (TenantSnapshotData TenantRuntimeSnapshot newTenantSnapshot indexBy)

/-- What the control plane refuses with.  `unavailable` is a store or an id generator that
failed. -/
inductive Err
  | invalidScope
  | scopeMismatch
  | draftNotFound
  | versionNotFound
  | revisionConflict
  | noPublishedVersion
  | validationFailed
  | keyTenantMismatch
  | keyProjectMismatch
  | unavailable
  deriving DecidableEq

def Err.text : Err → String
  | .invalidScope => "invalid tenant scope"
  | .scopeMismatch => "resource is outside tenant scope"
  | .draftNotFound => "config draft not found"
  | .versionNotFound => "config version not found"
  | .revisionConflict => "config draft revision conflict"
  | .noPublishedVersion => "no published config version to base a draft on"
  | .validationFailed => "config validation failed"
  | .keyTenantMismatch => "API key tenant scope mismatch"
  | .keyProjectMismatch => "API key project scope mismatch"
  | .unavailable => "unavailable"

/-! ### Capabilities -/

def capabilityAliases : List (String × String) :=
  [("embeddings", "embedding"), ("embed", "embedding"), ("multimodal", "vision"),
    ("vision-language", "vision"), ("vlm", "vision"), ("image", "vision"),
    ("function_calling", "tools"), ("function-calling", "tools"), ("tool_calling", "tools"),
    ("tool-calling", "tools"), ("stt", "audio"), ("transcription", "audio"),
    ("translation", "audio"), ("asr", "audio"), ("tts", "speech"), ("text-to-speech", "speech"),
    ("speech-synthesis", "speech")]

variable (lib : Library)

def normalizeCapability (raw : String) : String :=
  let value := lib.toLower (Pipeline.trimSpace raw)
  (capabilityAliases.lookup value).getD value

/-- Each capability once, in the order of first mention. -/
def canonicalCapabilities (values : List String) : List String :=
  values.foldl
    (fun out raw =>
      let value := normalizeCapability lib raw
      if value = "" ∨ value ∈ out then out else out ++ [value])
    []

/-! ### The snapshot's data -/

/-- `effectiveAgentRequireApproval`. -/
def effectiveAgentRequireApproval (projects : Assoc String Project) (agent : Agent) : Bool :=
  if agent.approvalMode = "inherit_project" then
    match projects.lookup agent.projectID with
    | none => false
    | some project => project.agentDefaults.requireApproval
  else if agent.approvalMode = "always" then true
  else if agent.approvalMode = "never" then false
  else agent.requireApproval

/-- Whole seconds, rounded down but never to none; a minute where nothing is set. -/
def leaseTTLSeconds (ms : Int) : Int :=
  if ms ≤ 0 then 60 else if ms < 1000 then 1 else ms / 1000

/-- An API key as it is stored. -/
structure KeyRecord where
  (id publicID tenantID projectID : String)
  hmacDigest : List UInt8
  pepperVersion : Int
  (applicationID agentID serviceAccountID status : String)
  expiresAt : Option Time
  (modelAllowlist ipAllowlist : List String)

def Project.compile (tenant : TenantResource) (item : Project) : Runtime.Project :=
  let item := inheritTenantProjectPolicy tenant item
  { id := item.id, status := item.status, allowedDataRegions := item.allowedDataRegions
    residencyEnforcement := item.residencyEnforcement }

def Provider.compile (item : Provider) : Runtime.Provider where
  id := item.id
  ownerScope := item.ownerScope
  type := item.type
  endpoint := item.endpoint
  status := item.status

def Credential.compile (item : Credential) : Runtime.Credential where
  id := item.id
  providerID := item.providerID
  ownerScope := item.ownerScope
  secretRef := item.secretRef
  status := item.status

def Deployment.compile (item : Deployment) : Runtime.Deployment where
  id := item.id
  providerID := item.providerID
  credentialID := item.credentialID
  upstreamModel := item.upstreamModel
  dataRegion := item.dataRegion
  status := item.status
  poolID := item.poolID
  capabilities := canonicalCapabilities lib item.capabilities
  contextWindow := item.contextWindow
  priority := item.priority

def Deployment.lease (item : Deployment) : Option Runtime.LeaseConfig :=
  if 0 < item.leaseCapacity then
    some ⟨item.id, item.leaseCapacity, leaseTTLSeconds item.leaseTTLMS⟩
  else none

def RoutePolicy.compile (item : RoutePolicy) : Runtime.RoutePolicy where
  id := item.id
  projectID := item.projectID
  strategy := item.strategy
  deploymentIDs := item.deploymentIDs
  weights := item.weights
  scoreWeights := item.scoreWeights
  version := item.version

def LogicalModel.compile (item : LogicalModel) : Runtime.LogicalModel :=
  ⟨item.id, item.«alias», item.routePolicyID⟩

def MCPServer.compile (item : MCPServer) : Runtime.MCPServer := ⟨item.id, item.url, item.status⟩

def Tool.compile (item : Tool) : Runtime.Tool where
  id := item.id
  serverID := item.serverID
  name := item.name
  dataClassification := item.dataClassification
  endpoint := item.endpoint
  status := item.status
  schema := item.schema
  capabilityTags := item.capabilityTags

def ToolPolicy.compile (item : ToolPolicy) : Runtime.ToolPolicy where
  toolID := item.toolID
  projectID := item.projectID
  allowedAgentIDs := item.allowedAgentIDs
  allowed := item.allowed
  requireApproval := item.requireApproval

def Agent.compile (projects : Assoc String Project) (item : Agent) : Runtime.Agent where
  id := item.id
  projectID := item.projectID
  name := item.name
  status := item.status
  currentVersion := item.currentVersion
  capabilities := item.capabilities
  requireApproval := effectiveAgentRequireApproval projects item

def AgentEndpoint.compile (item : AgentEndpoint) : Runtime.AgentEndpoint where
  id := item.id
  agentID := item.agentID
  version := item.version
  url := item.url
  protocol := item.protocol
  authScheme := item.authScheme
  secretRef := item.secretRef
  headers := item.headers
  dataClassification := item.dataClassification
  capabilities := item.capabilities

def FederatedAgent.compile (item : FederatedAgent) : Runtime.FederatedAgent where
  id := item.id
  name := item.name
  externalSubject := item.externalSubject
  status := item.status
  trustBoundary := item.trustBoundary

def FederationRelationship.compile (item : FederationRelationship) :
    Runtime.FederationRelationship where
  id := item.id
  externalAgentID := item.externalAgentID
  status := item.status
  assuranceLevel := item.assuranceLevel
  hasVerifiedAnchor := item.hasVerifiedAnchor
  direction := item.direction
  projectGrants := item.projectGrants
  capabilityGrants := item.capabilityGrants
  boundaryStatus := item.boundaryStatus
  processingRegions := item.processingRegions
  approvedVersion := item.approvedVersion

/-- The policy's epoch is the tenant's. -/
def GuardrailPolicy.compile (tenant : TenantResource) (policy : GuardrailPolicy) :
    Runtime.GuardrailPolicy where
  mode := policy.mode
  securityEpoch := tenant.securityEpoch
  rules := policy.rules
  judge := policy.judge
  groundedness := policy.groundedness

def KeyRecord.compile (item : KeyRecord) : Runtime.APIKey where
  id := item.id
  publicID := item.publicID
  projectID := item.projectID
  applicationID := item.applicationID
  agentID := item.agentID
  serviceAccountID := item.serviceAccountID
  status := item.status
  hmacDigest := item.hmacDigest
  pepperVersion := item.pepperVersion
  expiresAt := item.expiresAt
  modelAllowlist := item.modelAllowlist
  ipAllowlist := item.ipAllowlist

/-- The loop over the keys: each has to be the tenant's and of a project of the document. -/
def compileKeys (document : TenantConfig) : List KeyRecord → Except Err (List Runtime.APIKey)
  | [] => .ok []
  | item :: rest => do
    if item.tenantID ≠ document.tenant.id then throw .keyTenantMismatch
    if item.projectID ∉ document.projects.map (·.id) then throw .keyProjectMismatch
    let compiled ← compileKeys document rest
    return item.compile :: compiled

/-- A document's data, under a version number and a publication time. -/
def snapshotData (document : TenantConfig) (version : Int) (publishedAt : Time)
    (apiKeys : List Runtime.APIKey) : TenantSnapshotData where
  tenantID := document.tenant.id
  tenantRef := document.tenant.publicRef
  status := document.tenant.status
  version := version
  securityEpoch := document.tenant.securityEpoch
  publishedAt := publishedAt
  projects := document.projects.map (Project.compile document.tenant)
  providers := document.providers.map Provider.compile
  credentials := document.credentials.map Credential.compile
  deployments := document.deployments.map (Deployment.compile lib)
  routePolicies := document.routePolicies.map RoutePolicy.compile
  logicalModels := document.logicalModels.map LogicalModel.compile
  apiKeys := apiKeys
  budgetPolicies := document.budgetPolicies
  credentialPools := document.credentialPools
  leases := document.deployments.filterMap Deployment.lease
  circuit := document.circuit
  drift := ⟨0, document.drift.graceMS, document.drift.strict, document.tenant.securityEpoch⟩
  spool := document.accountingSpool
  cache := document.cache
  mcpServers := document.mcpServers.map MCPServer.compile
  tools := document.tools.map Tool.compile
  toolPolicies := document.toolPolicies.map ToolPolicy.compile
  agents := document.agents.map (Agent.compile document.projectsByID)
  agentEndpoints := document.agentEndpoints.map AgentEndpoint.compile
  federatedAgents := document.federatedAgents.map FederatedAgent.compile
  federationRelationships := document.federationRelationships.map FederationRelationship.compile
  guardrail := document.guardrail.compile document.tenant

/-- `CompileWithSystemDefaultsAndAPIKeys`. -/
def compile (system : SystemConfig) (document : TenantConfig) (version : Int) (publishedAt : Time)
    (keys : List KeyRecord) : Except Err TenantRuntimeSnapshot := do
  let document := applySystemDefaults system document
  if hasErrors (validate lib document) then throw .validationFailed
  let apiKeys ← compileKeys document keys
  return newTenantSnapshot (snapshotData lib document version publishedAt apiKeys)

/-! ### What a compilation says -/

section

variable {lib : Library} {system : SystemConfig} {document : TenantConfig} {version : Int}
  {publishedAt : Time} {keys : List KeyRecord} {snapshot : TenantRuntimeSnapshot}

theorem compile_eq_ok :
    compile lib system document version publishedAt keys = .ok snapshot ↔
      hasErrors (validateWithSystemDefaults lib system document) = false ∧
        ∃ apiKeys, compileKeys (applySystemDefaults system document) keys = .ok apiKeys ∧
          newTenantSnapshot (snapshotData lib (applySystemDefaults system document) version
            publishedAt apiKeys) = snapshot := by
  simp only [compile, throw_bind, bind_eq_ok, ite_throw_eq_ok, pure_eq_ok, validate_eq,
    validateWithSystemDefaults, Bool.not_eq_true]

/-- Whether a document compiles does not depend on the number it gets, nor on the time. -/
theorem compile_other_version (version' : Int) (publishedAt' : Time)
    (h : compile lib system document version publishedAt keys = .ok snapshot) :
    ∃ snapshot', compile lib system document version' publishedAt' keys = .ok snapshot' := by
  obtain ⟨hpass, apiKeys, hkeys, -⟩ := compile_eq_ok.mp h
  exact ⟨_, compile_eq_ok.mpr ⟨hpass, apiKeys, hkeys, rfl⟩⟩

theorem compile_names (h : compile lib system document version publishedAt keys = .ok snapshot) :
    snapshot.tenantRef = document.tenant.publicRef ∧ snapshot.tenantID = document.tenant.id ∧
      snapshot.version = version := by
  obtain ⟨-, apiKeys, -, rfl⟩ := compile_eq_ok.mp h
  exact ⟨rfl, rfl, rfl⟩

end

end LiteAIG.Config
