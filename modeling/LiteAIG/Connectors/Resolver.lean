/-
Connectors to model providers, built from a snapshot and kept.

A connector is built from the provider and the credential that a snapshot has for a
deployment, and is kept under a text made of the deployment, the credential, the
endpoint, the upstream model and the time limit.  What the URL and IP packages make
of an endpoint, and the address policy, is a parameter.  Of a connector's
configuration the fields that depend on the snapshot are kept; the paths and versions
are constants, and the HTTP client and the secret provider are there.
-/
import LiteAIG.Runtime.Snapshot

namespace LiteAIG.Connectors

open Lib LiteAIG.Runtime

structure URL where
  (scheme host : String)
  /-- The host without its port. -/
  hostname : String

/-- The packages for URLs, addresses and durations. -/
structure Packages where
  parse : String → Option URL
  /-- The host is a loopback address. -/
  isLoopback : String → Bool
  /-- The host is no address, or one that the policy lets through. -/
  allowed : String → Bool
  pathEscape : String → String
  durationText : Int → String

variable (pkg : Packages)

/-- `egress.ValidateTarget`. -/
def validateTarget (rawURL : String) : Bool :=
  match pkg.parse rawURL with
  | none => false
  | some u => (u.scheme = "http" || u.scheme = "https") && u.hostname ≠ "" && pkg.allowed u.hostname

def allowsInsecureHTTP (endpoint : String) : Bool :=
  match pkg.parse endpoint with
  | none => false
  | some u => u.host ≠ "" && (u.hostname = "localhost" || pkg.isLoopback u.hostname)

inductive ConnectorKind
  | openai | anthropic | azure | bedrock | vertex | gemini
  deriving DecidableEq

/-- The connector for a provider type. -/
def ConnectorKind.parse (type : String) : Option ConnectorKind :=
  if type = "openai" ∨ type = "openai-compatible" then some .openai
  else if type = "anthropic" then some .anthropic
  else if type = "azure-openai" then some .azure
  else if type = "bedrock" then some .bedrock
  else if type = "vertex" then some .vertex
  else if type = "gemini" then some .gemini
  else none

def regionFromEndpoint (endpoint service : String) : String :=
  match pkg.parse endpoint with
  | none => "us-east-1"
  | some u =>
    match (service ++ ".").toList.isPrefixOf? u.hostname.toList with
    | none => "us-east-1"
    | some remainder =>
      match remainder.idxOf? '.' with
      | some (i + 1) => String.ofList (remainder.take (i + 1))
      | _ => if remainder ≠ [] then String.ofList remainder else "us-east-1"

def locationFromEndpoint (endpoint : String) : String :=
  match pkg.parse endpoint with
  | none => "us-central1"
  | some u =>
    match "-aiplatform.googleapis.com".toList.isSuffixOf? u.hostname.toList with
    | none => "us-central1"
    | some location => if location ≠ [] then String.ofList location else "us-central1"

structure Config where
  (baseURL secretRef : String)
  allowInsecureHTTP : Bool
  requestTimeout : Int
  /-- The region or the location, where the connector has one. -/
  region : String
  deriving DecidableEq

structure Connector where
  kind : ConnectorKind
  config : Config
  deriving DecidableEq

/-- A complete configuration, for a connector that needs no region. -/
def Config.complete (config : Config) : Bool :=
  config.secretRef ≠ "" && config.requestTimeout > 0

/-- `New` of the connectors that parse their URL. -/
def newParsed (kind : ConnectorKind) (config : Config) : Option Connector :=
  match pkg.parse config.baseURL with
  | none => none
  | some u =>
    if u.host = "" then none
    else if u.scheme ≠ "https" ∧ config.allowInsecureHTTP = false then none
    else if config.complete then some ⟨kind, config⟩
    else none

/-- `New` of the connectors that make up a URL for their region if they have none; `host` is
what they make it of. -/
def newRegional (host : String → String) (kind : ConnectorKind) (config : Config) :
    Option Connector :=
  if config.region = "" ∨ config.complete = false then none
  else
    let config := if config.baseURL = "" then
        { config with baseURL := "https://" ++ host config.region }
      else config
    if !"https://".toList.isPrefixOf config.baseURL.toList ∧ config.allowInsecureHTTP = false then
      none
    else some ⟨kind, config⟩

/-- `build`: the connector for a provider and a credential. -/
def build (timeout : Int) (provider : Provider) (credential : Credential) : Option Connector :=
  if !validateTarget pkg provider.endpoint then none
  else
    let config (region : String) : Config :=
      { baseURL := provider.endpoint
        secretRef := credential.secretRef
        allowInsecureHTTP := allowsInsecureHTTP pkg provider.endpoint
        requestTimeout := if timeout > 0 then timeout else 30 * 1000000000
        region }
    match ConnectorKind.parse provider.type with
    | none => none
    | some .bedrock =>
      newRegional (fun region => "bedrock-runtime." ++ region ++ ".amazonaws.com") .bedrock
        (config (regionFromEndpoint pkg provider.endpoint "bedrock-runtime"))
    | some .vertex =>
      newRegional (fun location => pkg.pathEscape location ++ "-aiplatform.googleapis.com") .vertex
        (config (locationFromEndpoint pkg provider.endpoint))
    | some kind => newParsed pkg kind (config "")

/-! ### The resolver -/

/-- `deploymentModelInvoker`: a connector that is called with the deployment's model. -/
structure Invoker where
  inner : Connector
  upstreamModel : String
  deriving DecidableEq

structure ProviderResolver where
  timeout : Int
  invokers : Assoc String Invoker

/-- What a deployment is called with: the provider and the credential, if both are in use. -/
def usable (snapshot : TenantRuntimeSnapshot) (deployment : Deployment) (credentialID : String) :
    Option (Provider × Credential) :=
  match snapshot.providers.lookup deployment.providerID with
  | none => none
  | some provider =>
    if provider.status ≠ "enabled" ∨ provider.endpoint = "" then none
    else
      match snapshot.credentials.lookup credentialID with
      | none => none
      | some credential =>
        if credential.status ≠ "enabled" ∨ credential.secretRef = "" then none
        else some (provider, credential)

def cacheKey (timeout : Int) (deployment : Deployment) (credentialID : String)
    (provider : Provider) : String :=
  deployment.id ++ ":" ++ credentialID ++ ":" ++ provider.endpoint ++ ":" ++
    deployment.upstreamModel ++ ":" ++ pkg.durationText timeout

/-- `ResolveCredential`. -/
def ProviderResolver.resolveCredential (r : ProviderResolver) (snapshot : TenantRuntimeSnapshot)
    (deployment : Deployment) (credentialID : String) :
    Option Invoker × ProviderResolver :=
  match usable snapshot deployment credentialID with
  | none => (none, r)
  | some (provider, credential) =>
    let key := cacheKey pkg r.timeout deployment credentialID provider
    match r.invokers.lookup key with
    | some invoker => (some invoker, r)
    | none =>
      match build pkg r.timeout provider credential with
      | none => (none, r)
      | some connector =>
        let invoker : Invoker := ⟨connector, deployment.upstreamModel⟩
        (some invoker, { r with invokers := r.invokers.insert key invoker })

/-- A new resolver, with the time limit of the requests. -/
def ProviderResolver.new (timeout : Int) : ProviderResolver := ⟨timeout, .empty⟩

end LiteAIG.Connectors
