/-
The tenant configuration document, as it is drafted, published and compiled.

A section whose record has the same fields as the snapshot's record is that record
here.  The others name the tenant they belong to, which the snapshot leaves out.
-/
import LiteAIG.Runtime.Snapshot

namespace LiteAIG.Config

open Lib
open LiteAIG.Runtime
    (GuardrailRule GuardrailJudge GuardrailGroundedness SpoolPolicy CachePolicy BudgetPolicy
  CredentialPool CircuitConfig)

/-! ### The system defaults -/

structure TenantPolicyDefaults where
  allowedDataRegions : List String
  residencyEnforcement : String

structure SystemConfig where
  tenantDefaults : TenantPolicyDefaults
  fileMappingRetentionDays : Int

/-- No defaults. -/
def SystemConfig.zero : SystemConfig := ⟨⟨[], ""⟩, 0⟩

/-! ### The sections -/

structure TenantResource where
  (id publicRef status : String)
  securityEpoch : Int
  allowedDataRegions : List String
  residencyEnforcement : String
  deriving DecidableEq

structure ProjectAgentDefaults where
  requireApproval : Bool
  deriving DecidableEq

structure Project where
  (id tenantID status : String)
  allowedDataRegions : List String
  residencyEnforcement : String
  agentDefaults : ProjectAgentDefaults
  deriving DecidableEq

structure Provider where
  (id tenantID ownerScope type endpoint status : String)
  deriving DecidableEq

structure Credential where
  (id providerID tenantID ownerScope secretRef status : String)
  deriving DecidableEq

structure Deployment where
  (id tenantID providerID credentialID poolID upstreamModel dataRegion : String)
  capabilities : List String
  (contextWindow priority leaseCapacity leaseTTLMS : Int)
  status : String
  deriving DecidableEq

structure RoutePolicy where
  (id tenantID : String)
  /-- Empty for a route of the whole tenant. -/
  projectID : String
  strategy : String
  deploymentIDs : List String
  weights : Assoc String Int
  scoreWeights : Assoc String ℚ
  version : Int
  deriving DecidableEq

structure LogicalModel where
  (id tenantID : String)
  «alias» : String
  routePolicyID : String
  deriving DecidableEq

structure DriftMetadata where
  graceMS : Int
  strict : Bool
  securityEpoch : Int
  deriving DecidableEq

structure MCPServer where
  (id tenantID url status : String)
  deriving DecidableEq

structure Tool where
  (id tenantID serverID name dataClassification endpoint status : String)
  schema : List UInt8
  capabilityTags : List String
  deriving DecidableEq

structure ToolPolicy where
  (toolID tenantID projectID : String)
  allowedAgentIDs : List String
  (allowed requireApproval : Bool)
  deriving DecidableEq

structure Agent where
  (id tenantID projectID name status currentVersion : String)
  capabilities : List String
  requireApproval : Bool
  approvalMode : String
  deriving DecidableEq

structure AgentEndpoint where
  (id tenantID agentID version url protocol authScheme secretRef : String)
  headers : Assoc String String
  dataClassification : String
  capabilities : List String
  deriving DecidableEq

structure FederatedAgent where
  (id tenantID name externalSubject trustBoundary status : String)
  deriving DecidableEq

structure FederationRelationship where
  (id tenantID externalAgentID status assuranceLevel : String)
  hasVerifiedAnchor : Bool
  direction : String
  (projectGrants capabilityGrants : List String)
  boundaryStatus : String
  processingRegions : List String
  approvedVersion : String
  deriving DecidableEq

/-- The snapshot's policy has a security epoch as well; it is the tenant's. -/
structure GuardrailPolicy where
  mode : String
  rules : List GuardrailRule
  judge : GuardrailJudge
  groundedness : GuardrailGroundedness
  deriving DecidableEq

/-! ### The document -/

structure TenantConfig where
  schemaVersion : String
  tenant : TenantResource
  projects : List Project
  providers : List Provider
  credentials : List Credential
  deployments : List Deployment
  routePolicies : List RoutePolicy
  logicalModels : List LogicalModel
  budgetPolicies : List BudgetPolicy
  credentialPools : List CredentialPool
  circuit : CircuitConfig
  drift : DriftMetadata
  accountingSpool : SpoolPolicy
  cache : CachePolicy
  mcpServers : List MCPServer
  tools : List Tool
  toolPolicies : List ToolPolicy
  agents : List Agent
  agentEndpoints : List AgentEndpoint
  federatedAgents : List FederatedAgent
  federationRelationships : List FederationRelationship
  guardrail : GuardrailPolicy
  deriving DecidableEq

def GuardrailPolicy.zero : GuardrailPolicy := ⟨"", [], ⟨false, "", ""⟩, ⟨false, 0⟩⟩

/-- The zero value. -/
def TenantConfig.zero : TenantConfig where
  schemaVersion := ""
  tenant := ⟨"", "", "", 0, [], ""⟩
  projects := []
  providers := []
  credentials := []
  deployments := []
  routePolicies := []
  logicalModels := []
  budgetPolicies := []
  credentialPools := []
  circuit := ⟨0, 0, 0, 0, 0⟩
  drift := ⟨0, false, 0⟩
  accountingSpool := ⟨"", 0, 0, 0, 0⟩
  cache := ⟨false, 0, 0, [], 0, ⟨false, "", 0⟩⟩
  mcpServers := []
  tools := []
  toolPolicies := []
  agents := []
  agentEndpoints := []
  federatedAgents := []
  federationRelationships := []
  guardrail := .zero

variable (document : TenantConfig) (policy : GuardrailPolicy)

/-- A document with another guardrail policy. -/
def TenantConfig.withGuardrail : TenantConfig :=
  { document with guardrail := policy }

namespace TenantConfig

@[simp] theorem withGuardrail_self :
    document.withGuardrail document.guardrail = document := rfl

@[simp] theorem withGuardrail_withGuardrail (policy policy' : GuardrailPolicy) :
    (document.withGuardrail policy).withGuardrail policy' = document.withGuardrail policy' := rfl

@[simp] theorem guardrail_withGuardrail :
    (document.withGuardrail policy).guardrail = policy := rfl

end TenantConfig

/-- `ApplySystemDefaults`: what the tenant leaves open is the system's. -/
def applySystemDefaults (system : SystemConfig) (document : TenantConfig) : TenantConfig :=
  let regions := document.tenant.allowedDataRegions
  let residency := document.tenant.residencyEnforcement
  { document with
    tenant := { document.tenant with
      allowedDataRegions :=
        if regions = [] then system.tenantDefaults.allowedDataRegions else regions
      residencyEnforcement :=
        if residency = "" then system.tenantDefaults.residencyEnforcement else residency } }

/-- `inheritTenantProjectPolicy`: what a project leaves open is its tenant's. -/
def inheritTenantProjectPolicy (tenant : TenantResource) (project : Project) : Project :=
  { project with
    allowedDataRegions :=
      if project.allowedDataRegions = [] then tenant.allowedDataRegions
      else project.allowedDataRegions
    residencyEnforcement :=
      if project.residencyEnforcement = "" then tenant.residencyEnforcement
      else project.residencyEnforcement }

@[simp] theorem applySystemDefaults_zero :
    applySystemDefaults .zero document = document := by
  have hregions : (if document.tenant.allowedDataRegions = [] then []
      else document.tenant.allowedDataRegions) = document.tenant.allowedDataRegions := by
    split <;> simp_all
  have hresidency : (if document.tenant.residencyEnforcement = "" then ""
      else document.tenant.residencyEnforcement) = document.tenant.residencyEnforcement := by
    split <;> simp_all
  simp only [applySystemDefaults, SystemConfig.zero, hregions, hresidency]

end LiteAIG.Config
