/-
What the control plane checks of a document before it is published.

Every check is made whatever the others found, and a finding is a diagnostic: an
error, or a warning that stops nothing.  Each loop of the source is one section
here: the checks of an item, under the item's path, given the items before it.  A
section that looks an id up does so in the whole list of the section it refers to.
-/
import LiteAIG.Config.Document

namespace LiteAIG.Config

open Lib
open LiteAIG.Runtime (indexBy SpoolPolicy CachePolicy BudgetPolicy CredentialPool CircuitConfig)

/-- What `url.Parse` makes of a text. -/
structure URL where
  (scheme opaquePart host path : String)
  hasUser : Bool

/-- The library functions that the control plane calls. -/
structure Library where
  /-- `url.Parse`; an error is `none`. -/
  parseURL : String → Option URL
  /-- `strings.ToLower`. -/
  toLower : String → String

/-! ### Diagnostics -/

inductive Severity
  | error | warning
  deriving DecidableEq

structure Diagnostic where
  severity : Severity
  (code path messageKey : String)
  params : List (String × String)

/-- The `add` of the validator. -/
def add (code path : String) (params : List (String × String)) : Diagnostic :=
  ⟨.error, code, path, "config.validation." ++ code, params⟩

/-- The `warn` of the validator. -/
def warn (code path : String) : Diagnostic :=
  ⟨.warning, code, path, "config.validation." ++ code, []⟩

def hasErrors (diagnostics : List Diagnostic) : Bool :=
  diagnostics.any (·.severity = .error)

/-- A diagnostic, where there is reason for it. -/
def report (c : Prop) [Decidable c] (d : Diagnostic) : List Diagnostic :=
  if c then [d] else []

/-- The checks of every item of a list, given its path and the items before it. -/
def each {α : Type} (list : String) (items : List α)
    (check : String → List α → α → List Diagnostic) :
    List Diagnostic :=
  items.zipIdx.flatMap fun e => check (list ++ "/" ++ toString e.2) (items.take e.2) e.1

/-- An id that an item before it has. -/
def duplicate (path : String) (before : List String) (id : String) : List Diagnostic :=
  report (id ∈ before) (add "duplicate_resource_id" (path ++ "/id") [("id", id)])

/-- An item of another tenant. -/
def foreign (path tenantID : String) (tenant : TenantResource) : List Diagnostic :=
  report (tenantID ≠ tenant.id) (add "tenant_scope_mismatch" (path ++ "/tenant_id") [])

/-! ### The vocabularies -/

def schemaV1 : String := "v1"
def routeStrategies : List String := ["priority", "weighted", "round_robin", "soft"]
def poolStrategies : List String := ["round_robin", "weighted", "least_inflight", "quota_aware"]
def budgetModes : List String := ["hard", "soft"]
def budgetConsistency : List String := ["regional", "global_soft", "global_hard"]
def federationRelationshipDirections : List String := ["", "outbound", "inbound", "bidirectional"]
def agentApprovalModes : List String := ["", "inherit_project", "always", "never"]
def federationBoundaryStatuses : List String := ["", "unknown", "declared", "contractually_bound"]
def endpointAuthSchemes : List String := ["", "bearer", "x-api-key"]

/-! ### The sections -/

section

variable (lib : Library)

def validSecretRef (value : String) : Bool :=
  match lib.parseURL value with
  | none => false
  | some parsed =>
    parsed.scheme ≠ "" && !parsed.hasUser
      && (parsed.host ≠ "" || parsed.opaquePart ≠ "" || parsed.path ≠ "")

/-- A URL an agent can be called at. -/
def validEndpointURL (value : String) : Bool :=
  match lib.parseURL value with
  | none => false
  | some parsed => (parsed.scheme = "http" || parsed.scheme = "https") && parsed.host ≠ ""

variable (document : TenantConfig)

def validateProjects : List Diagnostic :=
  each "/projects" document.projects fun path before item =>
    duplicate path (before.map (·.id)) item.id ++ foreign path item.tenantID document.tenant

def validateProviders : List Diagnostic :=
  each "/providers" document.providers fun path before item =>
    duplicate path (before.map (·.id)) item.id ++
    report
      (¬(item.ownerScope = "SYSTEM_SHARED" ∧ item.tenantID = "" ∨
        item.ownerScope = "TENANT_PRIVATE" ∧ item.tenantID = document.tenant.id))
      (add "provider_scope_invalid" (path ++ "/owner_scope") [])

/-- The finished maps of the loops, by id. -/
def TenantConfig.projectsByID : Assoc String Project :=
  indexBy Project.id (document.projects.map (inheritTenantProjectPolicy document.tenant))

def TenantConfig.providersByID : Assoc String Provider :=
  indexBy Provider.id document.providers

def TenantConfig.credentialsByID : Assoc String Credential :=
  indexBy Credential.id document.credentials

def TenantConfig.deploymentsByID : Assoc String Deployment :=
  indexBy Deployment.id document.deployments

def TenantConfig.routesByID : Assoc String RoutePolicy :=
  indexBy RoutePolicy.id document.routePolicies

/-- `poolByID`: the first pool with the id. -/
def TenantConfig.poolByID (id : String) : Option CredentialPool :=
  document.credentialPools.find? (·.id = id)

def validateCredentials : List Diagnostic :=
  each "/credentials" document.credentials fun path before item =>
    duplicate path (before.map (·.id)) item.id ++
    (match document.providersByID.lookup item.providerID with
      | none => [add "provider_reference_missing" (path ++ "/provider_id") []]
      | some provider =>
        report (item.ownerScope ≠ provider.ownerScope ∨ item.tenantID ≠ provider.tenantID)
          (add "credential_scope_invalid" (path ++ "/owner_scope") [])) ++
    report (¬validSecretRef lib item.secretRef)
      (add "secret_ref_invalid" (path ++ "/secret_ref") [])

def validateDeployments : List Diagnostic :=
  each "/deployments" document.deployments fun path before item =>
    duplicate path (before.map (·.id)) item.id ++
    foreign path item.tenantID document.tenant ++
    report (document.providersByID.lookup item.providerID = none)
      (add "provider_reference_missing" (path ++ "/provider_id") []) ++
    report
      ((document.credentialsByID.lookup item.credentialID).map (·.providerID) ≠
        some item.providerID)
      (add "credential_reference_invalid" (path ++ "/credential_id") [])

/-- A project's own rule on where its data may go, against a deployment of its route. -/
def residencyViolated (project : Option Project) (deployment : Deployment) : Bool :=
  match project with
  | none => false
  | some project =>
    project.residencyEnforcement = "strict" && deployment.dataRegion ∉ project.allowedDataRegions

def validateRoutePolicies : List Diagnostic :=
  each "/route_policies" document.routePolicies fun path before item =>
    duplicate path (before.map (·.id)) item.id ++
    foreign path item.tenantID document.tenant ++
    report (item.projectID ≠ "" ∧ document.projectsByID.lookup item.projectID = none)
      (add "project_reference_missing" (path ++ "/project_id") []) ++
    report (item.strategy ∉ routeStrategies)
      (add "route_strategy_invalid" (path ++ "/strategy") []) ++
    each (path ++ "/deployment_ids") item.deploymentIDs (fun path _ id =>
      match document.deploymentsByID.lookup id with
      | none => [add "deployment_reference_missing" path []]
      | some deployment =>
        report (residencyViolated (document.projectsByID.lookup item.projectID) deployment)
          (add "data_residency_violation" path [])) ++
    report
      (item.deploymentIDs.all fun id =>
        (document.deploymentsByID.lookup id).map (·.status) ≠ some "enabled")
      (add "route_has_no_eligible_deployment" (path ++ "/deployment_ids") [])

def validateLogicalModels : List Diagnostic :=
  each "/logical_models" document.logicalModels (fun path before item =>
    report (item.id ∈ before.map (·.id) ∨ item.«alias» ∈ before.map (·.«alias»))
      (add "duplicate_resource_id" (path ++ "/id") [("id", item.id)]) ++
    foreign path item.tenantID document.tenant ++
    report (document.routesByID.lookup item.routePolicyID = none)
      (add "route_reference_missing" (path ++ "/route_policy_id") [])) ++
  report (document.logicalModels = []) (warn "no_logical_models" "/logical_models")

def validateBudgetPolicies : List Diagnostic :=
  each "/budget_policies" document.budgetPolicies fun path before item =>
    duplicate path (before.map (·.id)) item.id ++
    foreign path item.tenantID document.tenant ++
    report (item.windowHours ≤ 0 ∨ item.tokenLimit < 0 ∨ item.mode ∉ budgetModes)
      (add "budget_policy_invalid" path []) ++
    report (item.consistency ≠ "" ∧ item.consistency ∉ budgetConsistency)
      (add "budget_consistency_invalid" (path ++ "/consistency") []) ++
    report (item.projectID ≠ "" ∧ document.projectsByID.lookup item.projectID = none)
      (add "project_reference_missing" (path ++ "/project_id") [])

def validateSpoolPolicy (policy : SpoolPolicy) : List Diagnostic :=
  if policy.mode = "" then []
  else if policy.mode ∉ budgetModes then
    [add "spool_policy_invalid" "/accounting_spool/mode" []]
  else if policy.warnThreshold < 0 ∨ policy.criticalThreshold < 0 ∨ policy.hardThreshold < 0 ∨
      policy.quotaBytes < 0 then
    [add "spool_policy_invalid" "/accounting_spool" []]
  else
    report (0 < policy.warnThreshold ∧ 0 < policy.criticalThreshold ∧
        policy.criticalThreshold < policy.warnThreshold)
      (add "spool_threshold_order" "/accounting_spool" []) ++
    report (0 < policy.criticalThreshold ∧ 0 < policy.hardThreshold ∧
        policy.hardThreshold < policy.criticalThreshold)
      (add "spool_threshold_order" "/accounting_spool" [])

def validateCachePolicy (policy : CachePolicy) : List Diagnostic :=
  report (policy.enabled ∧
      (policy.ttlSeconds < 0 ∨ policy.namespaceVersion < 0 ∨ policy.maxTemperature < 0))
    (add "cache_policy_invalid" "/cache" []) ++
  report (policy.semantic.enabled ∧
      (¬policy.enabled ∨ policy.semantic.model = "" ∨ policy.semantic.threshold < 0 ∨
        1 < policy.semantic.threshold))
    (add "cache_policy_invalid" "/cache/semantic" [])

/-- The rules themselves are not looked at. -/
def validateGuardrailPolicy (policy : GuardrailPolicy) : List Diagnostic :=
  report (policy.judge.enabled ∧
      (policy.judge.model = "" ∨
        policy.judge.action ≠ "" ∧ policy.judge.action ≠ "block" ∧ policy.judge.action ≠ "mark"))
    (add "guardrail_policy_invalid" "/guardrail/judge" []) ++
  report (policy.groundedness.enabled ∧
      (policy.groundedness.minOverlap ≤ 0 ∨ 1 < policy.groundedness.minOverlap))
    (add "guardrail_policy_invalid" "/guardrail/groundedness" [])

def validateMCPServers : List Diagnostic :=
  each "/mcp_servers" document.mcpServers fun path _ item =>
    foreign path item.tenantID document.tenant ++
    report (item.id = "" ∨ item.url = "") (add "mcp_server_invalid" path [])

def validateTools : List Diagnostic :=
  each "/tools" document.tools fun path _ item =>
    foreign path item.tenantID document.tenant ++
    report (item.id = "" ∨ item.name = "" ∨ item.serverID ∉ document.mcpServers.map (·.id))
      (add "tool_invalid" path [])

def validateToolPolicies : List Diagnostic :=
  each "/tool_policies" document.toolPolicies fun path _ item =>
    foreign path item.tenantID document.tenant ++
    report (item.toolID ∉ document.tools.map (·.id))
      (add "tool_reference_missing" (path ++ "/tool_id") []) ++
    report (document.projectsByID.lookup item.projectID = none)
      (add "project_reference_missing" (path ++ "/project_id") [])

def validateAgents : List Diagnostic :=
  each "/agents" document.agents fun path _ item =>
    foreign path item.tenantID document.tenant ++
    report (item.id = "" ∨ item.name = "") (add "agent_invalid" path []) ++
    report (document.projectsByID.lookup item.projectID = none)
      (add "project_reference_missing" (path ++ "/project_id") []) ++
    report (item.approvalMode ∉ agentApprovalModes)
      (add "agent_approval_mode_invalid" (path ++ "/approval_mode") [])

def validateAgentEndpoints : List Diagnostic :=
  each "/agent_endpoints" document.agentEndpoints fun path _ item =>
    foreign path item.tenantID document.tenant ++
    report (item.id = "" ∨ item.agentID = "" ∨ item.url = "" ∨ item.protocol = "")
      (add "agent_endpoint_invalid" path []) ++
    report (¬validEndpointURL lib item.url)
      (add "agent_endpoint_url_invalid" (path ++ "/url") []) ++
    report (item.secretRef ≠ "" ∧ ¬validSecretRef lib item.secretRef)
      (add "secret_ref_invalid" (path ++ "/secret_ref") []) ++
    report (item.authScheme ∉ endpointAuthSchemes)
      (add "agent_endpoint_auth_invalid" (path ++ "/auth_scheme") []) ++
    report (item.secretRef ≠ "" ∧ item.authScheme = "")
      (add "agent_endpoint_auth_invalid" (path ++ "/auth_scheme") []) ++
    report (item.authScheme ≠ "" ∧ item.secretRef = "")
      (add "agent_endpoint_auth_invalid" (path ++ "/secret_ref") [])

/-- An unknown word is only warned of: the call is refused later. -/
def validateFederationRelationships : List Diagnostic :=
  each "/federation_relationships" document.federationRelationships fun path _ item =>
    report (item.direction ∉ federationRelationshipDirections)
      (warn "federation_direction_invalid" (path ++ "/direction")) ++
    report (item.boundaryStatus ∉ federationBoundaryStatuses)
      (warn "federation_boundary_status_invalid" (path ++ "/boundary_status"))

def validateCredentialPools : List Diagnostic :=
  each "/credential_pools" document.credentialPools fun path before item =>
    duplicate path (before.map (·.id)) item.id ++
    foreign path item.tenantID document.tenant ++
    report (item.strategy ∉ poolStrategies)
      (add "pool_strategy_invalid" (path ++ "/strategy") []) ++
    report (document.providersByID.lookup item.providerID = none)
      (add "provider_reference_missing" (path ++ "/provider_id") []) ++
    each (path ++ "/members") item.members (fun path _ member =>
      match document.credentialsByID.lookup member.credentialID with
      | none => [add "credential_reference_missing" path []]
      | some credential =>
        report (∃ provider ∈ document.providersByID.lookup item.providerID,
            credential.providerID ≠ provider.id)
          (add "pool_member_provider_mismatch" path []) ++
        report (member.weight < 0) (add "pool_member_weight_invalid" path [])) ++
    report (item.members = []) (add "pool_has_no_members" (path ++ "/members") [])

def validatePoolReferences : List Diagnostic :=
  each "/deployments" document.deployments fun path _ item =>
    if item.poolID = "" then []
    else
      match document.poolByID item.poolID with
      | none => [add "pool_reference_missing" (path ++ "/pool_id") []]
      | some pool =>
        report (pool.tenantID ≠ document.tenant.id)
          (add "tenant_scope_mismatch" (path ++ "/pool_id") []) ++
        report (pool.providerID ≠ item.providerID)
          (add "deployment_pool_provider_mismatch" (path ++ "/pool_id") [])

def validateCircuit (circuit : CircuitConfig) : List Diagnostic :=
  report (0 < circuit.minSamples ∧
      (circuit.minSamples < 1 ∨ circuit.errorRate ≤ 0 ∨ 1 < circuit.errorRate ∨
        circuit.initialCooldownMS ≤ 0 ∨ circuit.maxCooldownMS < circuit.initialCooldownMS))
    (add "circuit_config_invalid" "/circuit" [])

/-- The checks before the guardrail policy's. -/
def validateModels : List Diagnostic :=
  report (document.schemaVersion ≠ schemaV1)
    (add "unsupported_schema" "/schema_version" [("supported", schemaV1)]) ++
  report (document.tenant.id = "" ∨ document.tenant.publicRef = "")
    (add "tenant_required" "/tenant" []) ++
  validateProjects document ++
  validateProviders document ++
  validateCredentials lib document ++
  validateDeployments document ++
  validateRoutePolicies document ++
  validateLogicalModels document ++
  validateBudgetPolicies document ++
  validateSpoolPolicy document.accountingSpool ++
  validateCachePolicy document.cache

/-- The checks after it. -/
def validateAgentic : List Diagnostic :=
  validateMCPServers document ++
  validateTools document ++
  validateToolPolicies document ++
  validateAgents document ++
  validateAgentEndpoints lib document ++
  validateFederationRelationships document ++
  validateCredentialPools document ++
  validatePoolReferences document ++
  validateCircuit document.circuit ++
  report (document.drift.graceMS < 0) (add "drift_config_invalid" "/drift/grace_ms" [])

/-- The checks of a document whose defaults are in place. -/
def validateDocument : List Diagnostic :=
  validateModels lib document ++ validateGuardrailPolicy document.guardrail ++
    validateAgentic lib document

def validateWithSystemDefaults (system : SystemConfig) (document : TenantConfig) :
    List Diagnostic :=
  validateDocument lib (applySystemDefaults system document)

def validate : List Diagnostic :=
  validateWithSystemDefaults lib .zero document

def validateForTenantWithSystemDefaults (system : SystemConfig) (document : TenantConfig)
    (tenantID : String) : List Diagnostic :=
  validateWithSystemDefaults lib system document ++
  report (document.tenant.id ≠ tenantID) (add "tenant_scope_mismatch" "/tenant/id" [])

end

/-! ### What passing says -/

@[simp] theorem hasErrors_append (xs ys : List Diagnostic) :
    hasErrors (xs ++ ys) = (hasErrors xs || hasErrors ys) := List.any_append

@[simp] theorem hasErrors_report_add (c : Prop) [Decidable c] (code path : String)
    (params : List (String × String)) : hasErrors (report c (add code path params)) = decide c := by
  by_cases hc : c <;> simp [report, hasErrors, add, hc]

section

variable {lib : Library} {system : SystemConfig} {document : TenantConfig} {tenantID : String}

theorem validate_eq : validate lib document = validateDocument lib document := by
  rw [validate, validateWithSystemDefaults, applySystemDefaults_zero]

/-- A document that passes for a tenant passes, and is that tenant's. -/
theorem hasErrors_validateForTenant :
    hasErrors (validateForTenantWithSystemDefaults lib system document tenantID) = false ↔
      hasErrors (validateWithSystemDefaults lib system document) = false ∧
        document.tenant.id = tenantID := by
  simp [validateForTenantWithSystemDefaults]

/-- Only the guardrail section reads the guardrail policy. -/
theorem hasErrors_validate_guardrail {guardrail : GuardrailPolicy}
    (hguardrail : hasErrors (validateGuardrailPolicy guardrail) = false)
    (h : hasErrors (validateForTenantWithSystemDefaults lib system document tenantID) = false) :
    hasErrors (validateForTenantWithSystemDefaults lib system (document.withGuardrail guardrail)
      tenantID) = false := by
  rw [hasErrors_validateForTenant] at h ⊢
  refine ⟨?_, h.2⟩
  have hpass := h.1
  simp only [validateWithSystemDefaults, validateDocument, hasErrors_append, Bool.or_eq_false_iff]
    at hpass ⊢
  exact ⟨⟨hpass.1.1, hguardrail⟩, hpass.2⟩

/-- The guardrail policy of a document that passes passes. -/
theorem hasErrors_guardrail
    (h : hasErrors (validateForTenantWithSystemDefaults lib system document tenantID) = false) :
    hasErrors (validateGuardrailPolicy document.guardrail) = false := by
  have hpass := (hasErrors_validateForTenant.mp h).1
  simp only [validateWithSystemDefaults, validateDocument, hasErrors_append, Bool.or_eq_false_iff]
    at hpass
  exact hpass.1.2

end

end LiteAIG.Config
