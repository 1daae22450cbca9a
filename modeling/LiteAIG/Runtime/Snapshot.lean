/-
The tenant snapshot, the configuration a request runs under.

A snapshot is compiled from its data: every list of the data becomes an index by the
key it is looked up under, and where two entries share a key the later one stays.
The data itself is kept beside the indexes.  Records are values here, so the copies
that the getters make need no counterpart.
-/
import LiteAIG.Lib.Assoc
import LiteAIG.Lib.Calendar

namespace LiteAIG.Runtime

open Lib

/-! ### The records -/

structure Project where
  (id status : String)
  allowedDataRegions : List String
  residencyEnforcement : String

structure Provider where
  (id ownerScope type endpoint status : String)
  deriving DecidableEq

structure Credential where
  (id providerID ownerScope secretRef status : String)
  deriving DecidableEq

structure Deployment where
  (id providerID credentialID upstreamModel dataRegion status poolID : String)
  capabilities : List String
  (contextWindow priority : Int)

structure RoutePolicy where
  (id projectID strategy : String)
  deploymentIDs : List String
  weights : Assoc String Int
  scoreWeights : Assoc String ℚ
  version : Int

structure LogicalModel where
  id : String
  «alias» : String
  routePolicyID : String

structure APIKey where
  (id publicID projectID applicationID agentID serviceAccountID status : String)
  hmacDigest : List UInt8
  pepperVersion : Int
  expiresAt : Option Time
  (modelAllowlist ipAllowlist : List String)

structure BudgetPolicy where
  (id tenantID : String)
  /-- Empty for a window of the whole tenant. -/
  projectID : String
  keyID : String
  windowHours : Int
  tokenLimit : ℚ
  (mode consistency : String)
  deriving DecidableEq

structure SpoolPolicy where
  mode : String
  (warnThreshold criticalThreshold hardThreshold : ℚ)
  quotaBytes : Int
  deriving DecidableEq

structure SemanticCachePolicy where
  enabled : Bool
  model : String
  threshold : ℚ
  deriving DecidableEq

structure CachePolicy where
  enabled : Bool
  (ttlSeconds namespaceVersion : Int)
  allowedKinds : List String
  maxTemperature : ℚ
  semantic : SemanticCachePolicy
  deriving DecidableEq

structure MCPServer where
  (id url status : String)

structure Tool where
  (id serverID name dataClassification endpoint status : String)
  schema : List UInt8
  capabilityTags : List String

structure ToolPolicy where
  (toolID projectID : String)
  allowedAgentIDs : List String
  (allowed requireApproval : Bool)

structure Agent where
  (id projectID name status currentVersion : String)
  capabilities : List String
  requireApproval : Bool

structure AgentEndpoint where
  (id agentID version url protocol authScheme secretRef : String)
  headers : Assoc String String
  dataClassification : String
  capabilities : List String

structure FederatedAgent where
  (id name externalSubject status trustBoundary : String)

structure FederationRelationship where
  (id externalAgentID status assuranceLevel : String)
  hasVerifiedAnchor : Bool
  direction : String
  (projectGrants capabilityGrants : List String)
  boundaryStatus : String
  processingRegions : List String
  approvedVersion : String

structure GuardrailRule where
  (id kind pattern action replacement : String)
  deriving DecidableEq

structure GuardrailJudge where
  enabled : Bool
  (model action : String)
  deriving DecidableEq

structure GuardrailGroundedness where
  enabled : Bool
  minOverlap : ℚ
  deriving DecidableEq

structure GuardrailPolicy where
  mode : String
  securityEpoch : Int
  rules : List GuardrailRule
  judge : GuardrailJudge
  groundedness : GuardrailGroundedness

structure PoolMember where
  credentialID : String
  weight : Int
  deriving DecidableEq

structure CredentialPool where
  (id providerID tenantID strategy : String)
  members : List PoolMember
  deriving DecidableEq

structure LeaseConfig where
  deploymentID : String
  (capacity ttlSeconds : Int)

structure CircuitConfig where
  minSamples : Int
  errorRate : ℚ
  (initialCooldownMS maxCooldownMS : Int)
  cooldownFactor : ℚ
  deriving DecidableEq

structure DriftMetadata where
  (version graceMS : Int)
  strict : Bool
  securityEpoch : Int

/-! ### The snapshot -/

structure TenantSnapshotData where
  (tenantID tenantRef status : String)
  (version securityEpoch : Int)
  publishedAt : Time
  projects : List Project
  providers : List Provider
  credentials : List Credential
  deployments : List Deployment
  routePolicies : List RoutePolicy
  logicalModels : List LogicalModel
  apiKeys : List APIKey
  budgetPolicies : List BudgetPolicy
  credentialPools : List CredentialPool
  leases : List LeaseConfig
  circuit : CircuitConfig
  drift : DriftMetadata
  spool : SpoolPolicy
  cache : CachePolicy
  mcpServers : List MCPServer
  tools : List Tool
  toolPolicies : List ToolPolicy
  agents : List Agent
  agentEndpoints : List AgentEndpoint
  federatedAgents : List FederatedAgent
  federationRelationships : List FederationRelationship
  guardrail : GuardrailPolicy

/-- The zero value. -/
def TenantSnapshotData.zero : TenantSnapshotData where
  tenantID := ""
  tenantRef := ""
  status := ""
  version := 0
  securityEpoch := 0
  publishedAt := ⟨0, 0⟩
  projects := []
  providers := []
  credentials := []
  deployments := []
  routePolicies := []
  logicalModels := []
  apiKeys := []
  budgetPolicies := []
  credentialPools := []
  leases := []
  circuit := ⟨0, 0, 0, 0, 0⟩
  drift := ⟨0, 0, false, 0⟩
  spool := ⟨"", 0, 0, 0, 0⟩
  cache := ⟨false, 0, 0, [], 0, ⟨false, "", 0⟩⟩
  mcpServers := []
  tools := []
  toolPolicies := []
  agents := []
  agentEndpoints := []
  federatedAgents := []
  federationRelationships := []
  guardrail := ⟨"", 0, [], ⟨false, "", ""⟩, ⟨false, 0⟩⟩

/-- The first six fields are exported; the rest is not seen outside the package. -/
structure TenantRuntimeSnapshot where
  (tenantID tenantRef status : String)
  (version securityEpoch : Int)
  publishedAt : Time
  projects : Assoc String Project
  providers : Assoc String Provider
  credentials : Assoc String Credential
  deployments : Assoc String Deployment
  routePolicies : Assoc String RoutePolicy
  logicalModels : Assoc String LogicalModel
  apiKeys : Assoc String APIKey
  budgetPolicies : Assoc String BudgetPolicy
  credentialPools : Assoc String CredentialPool
  leases : Assoc String LeaseConfig
  circuit : CircuitConfig
  drift : DriftMetadata
  spool : SpoolPolicy
  cache : CachePolicy
  mcpServers : Assoc String MCPServer
  tools : Assoc String Tool
  toolPolicies : Assoc String ToolPolicy
  agents : Assoc String Agent
  agentEndpoints : Assoc String AgentEndpoint
  /-- The agents that have a capability. -/
  capabilityIndex : Assoc String (List String)
  federatedAgents : Assoc String FederatedAgent
  federatedRels : Assoc String FederationRelationship
  guardrail : GuardrailPolicy
  sourceData : TenantSnapshotData

/-- The entries by key. -/
def indexBy {α : Type} (key : α → String) (items : List α) : Assoc String α :=
  items.foldl (fun index item => index.insert (key item) item) .empty

/-- `indexCapabilities`: an agent stands once under each of its capabilities. -/
def indexCapabilities (agentID : String) (capabilities : List String)
    (index : Assoc String (List String)) : Assoc String (List String) :=
  capabilities.foldl
    (fun index capability =>
      let existing := (index.lookup capability).getD []
      if agentID ∈ existing then index else index.insert capability (existing ++ [agentID]))
    index

def newTenantSnapshot (data : TenantSnapshotData) : TenantRuntimeSnapshot where
  tenantID := data.tenantID
  tenantRef := data.tenantRef
  status := data.status
  version := data.version
  securityEpoch := data.securityEpoch
  publishedAt := data.publishedAt
  projects := indexBy Project.id data.projects
  providers := indexBy Provider.id data.providers
  credentials := indexBy Credential.id data.credentials
  deployments := indexBy Deployment.id data.deployments
  routePolicies := indexBy RoutePolicy.id data.routePolicies
  logicalModels := indexBy LogicalModel.«alias» data.logicalModels
  apiKeys := indexBy APIKey.publicID data.apiKeys
  budgetPolicies := indexBy BudgetPolicy.id data.budgetPolicies
  credentialPools := indexBy CredentialPool.id data.credentialPools
  leases := indexBy LeaseConfig.deploymentID data.leases
  circuit := data.circuit
  drift := data.drift
  spool := data.spool
  cache := data.cache
  mcpServers := indexBy MCPServer.id data.mcpServers
  tools := indexBy Tool.id data.tools
  toolPolicies := indexBy (fun item => item.projectID ++ ":" ++ item.toolID) data.toolPolicies
  agents := indexBy Agent.id data.agents
  agentEndpoints := indexBy AgentEndpoint.id data.agentEndpoints
  capabilityIndex :=
    data.agentEndpoints.foldl
      (fun index item => indexCapabilities item.agentID item.capabilities index)
      (data.agents.foldl (fun index item =>
        indexCapabilities item.id item.capabilities index) .empty)
  federatedAgents := indexBy FederatedAgent.id data.federatedAgents
  federatedRels := indexBy FederationRelationship.id data.federationRelationships
  guardrail := data.guardrail
  sourceData := data

namespace TenantRuntimeSnapshot

variable (s : TenantRuntimeSnapshot)

/-- The data the snapshot was compiled from. -/
def data : TenantSnapshotData := s.sourceData

def deployment (id : String) : Option Deployment := s.deployments.lookup id

def lease (deploymentID : String) : Option LeaseConfig := s.leases.lookup deploymentID

end TenantRuntimeSnapshot

end LiteAIG.Runtime
