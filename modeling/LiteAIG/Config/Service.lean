/-
The configuration service: publish, roll back, overlay, reconcile.

Publish and Rollback read a document, check it for the tenant, try to compile it,
store it as the next version, compile what was stored and activate the snapshot.
They hold no lock: other calls come between any two accesses of the store, so a call
is a machine whose step is one access and what is computed from it.  A call that
nobody interrupts takes its five steps in a row.

A step may fail.  The transaction that stores the version may also take effect and
still be reported as failed.  A call that failed keeps, as a history that nothing
reads, the version it has left in the store.

The Last Known Good file and the signed bundle that follow an activation cannot fail
it and are left out.
-/
import LiteAIG.Config.Repository
import LiteAIG.Lib.Threads
import LiteAIG.Runtime.Registry

namespace LiteAIG.Config

open Lib
open LiteAIG.Runtime (ActiveRegistry TenantRuntimeSnapshot)
open Guardrail (Policy PolicyRow Text Regexp activePolicy fastPublish)

/-- A process and its database. -/
structure Server where
  store : Store
  registry : ActiveRegistry
  /-- The guardrail policies that are active in memory. -/
  guardrails : Assoc String Policy

def Server.activate (s : Server) (snapshot : TenantRuntimeSnapshot) : Server :=
  { s with registry := s.registry.activateTenant snapshot.tenantRef snapshot }

/-! ### Publish and Rollback -/

inductive Target
  | publish (draftID : String) (expectedRevision : Int)
  | rollback (sourceVersion : Int)
  deriving DecidableEq

/-- The arguments of a call, the id it draws for its version and its reading of the clock. -/
structure Request where
  tenantID : String
  target : Target
  (actorID versionID : String)
  now : Time

/-- The document a call is about: `GetDraft` or `GetVersion`. -/
def Store.document (s : Store) (request : Request) : Except Err TenantConfig :=
  match request.target with
  | .publish draftID _ => (s.getDraft request.tenantID draftID).map (·.config)
  | .rollback sourceVersion => (s.getVersion request.tenantID sourceVersion).map (·.config)

/-- The transaction of a call: `PublishDraft` or `RollbackVersion`. -/
def Store.write (s : Store) (request : Request) : Except Err (Store × Version) :=
  match request.target with
  | .publish draftID expectedRevision =>
    s.publishDraft request.tenantID
      ⟨draftID, request.versionID, request.actorID, expectedRevision, request.now⟩
  | .rollback sourceVersion =>
    s.rollbackVersion request.tenantID
      ⟨sourceVersion, request.versionID, request.actorID, request.now⟩

/-- Where a call is. -/
inductive Phase
  | started
  | read (config : TenantConfig)
  | validated (config : TenantConfig) (system : SystemConfig)
  /-- The document was compiled on trial. -/
  | tried (config : TenantConfig) (system : SystemConfig) (keys : List KeyRecord)
  | written (config : TenantConfig) (system : SystemConfig) (keys : List KeyRecord)
      (version : Version)
  | activated (config : TenantConfig) (system : SystemConfig) (keys : List KeyRecord)
      (version : Version) (snapshot : TenantRuntimeSnapshot)
  | failed (error : Err) (stored : Option Version)

/-- An access that may fail. -/
def attempt {α : Type} (fault : Option Fault) (x : Except Err α) : Except Err α :=
  if fault = none then x else .error .unavailable

variable (lib : Library)

/-- One step of a call. -/
def advance (request : Request) (s : Server) (phase : Phase) (fault : Option Fault) :
    Server × Phase :=
  match phase with
  | .started =>
    match attempt fault (s.store.document request) with
    | .error error => (s, .failed error none)
    | .ok config => (s, .read config)
  | .read config =>
    match attempt fault (.ok s.store.system) with
    | .error error => (s, .failed error none)
    | .ok system =>
      if hasErrors (validateForTenantWithSystemDefaults lib system config request.tenantID) then
        (s, .failed .validationFailed none)
      else (s, .validated config system)
  | .validated config system =>
    match attempt fault (s.store.listActive request.tenantID) with
    | .error error => (s, .failed error none)
    | .ok keys =>
      match compile lib system config 0 request.now keys with
      | .error error => (s, .failed error none)
      | .ok _ => (s, .tried config system keys)
  | .tried config system keys =>
    if fault = some .refused then (s, .failed .unavailable none)
    else
      match s.store.write request with
      | .error error => (s, .failed error none)
      | .ok (store, version) =>
        if fault = some .unconfirmed then
          ({ s with store }, .failed .unavailable (some version))
        else ({ s with store }, .written config system keys version)
  | .written config system keys version =>
    match compile lib system version.config version.version version.publishedAt keys with
    | .error error => (s, .failed error (some version))
    | .ok snapshot => (s.activate snapshot, .activated config system keys version snapshot)
  | .activated .. | .failed .. => (s, phase)

/-- A call that nobody interrupts. -/
def perform (s : Server) (request : Request) : Server × Phase :=
  run (fun r fault => advance lib request r.1 r.2 fault) (s, .started) (List.replicate 5 none)

/-! ### Reconcile and overlay -/

/-- A document with the overlay's guardrail policy in the place of its own.  The overlay has no
judge and no groundedness check. -/
def TenantConfig.overlaid (document : TenantConfig) (overlay : Runtime.GuardrailPolicy) :
    TenantConfig :=
  document.withGuardrail ⟨overlay.mode, overlay.rules, ⟨false, "", ""⟩, ⟨false, 0⟩⟩

/-- What `compileAndActivate` makes of a stored version. -/
def compileVersion (s : Store) (tenantID : String) (version : Version)
    (overlay : Option Runtime.GuardrailPolicy) : Except String TenantRuntimeSnapshot := do
  if tenantID = "" then throw Err.invalidScope.text
  let document := (overlay.map version.config.overlaid).getD version.config
  if hasErrors (validateForTenantWithSystemDefaults lib s.system document tenantID) then
    throw Err.validationFailed.text
  let keys ← (s.listActive tenantID).mapError ("list api keys: " ++ ·.text)
  (compile lib s.system document version.version version.publishedAt keys).mapError
    ("compile: " ++ ·.text)

def compileAndActivate (s : Server) (tenantID : String) (version : Version)
    (overlay : Option Runtime.GuardrailPolicy) :
    Except String (Server × TenantRuntimeSnapshot) := do
  let snapshot ← compileVersion lib s.store tenantID version overlay
  return (s.activate snapshot, snapshot)

/-- A policy as it is overlaid. -/
def overlayPolicy (mode : String) (policy : Policy) : Runtime.GuardrailPolicy :=
  ⟨mode, policy.securityEpoch, policy.rules, ⟨false, "", ""⟩, ⟨false, 0⟩⟩

/-- The loader that `ReconcileAll` is wired with: the newest stored policy, its change type for its
mode. -/
def guardrailLoader (s : Store) (tenantID : String) : Option Runtime.GuardrailPolicy :=
  (activePolicy s.policies tenantID).map fun row => overlayPolicy row.changeType.text row.toPolicy

structure Reconciled where
  server : Server
  /-- The snapshots that were activated, in turn; the source counts them. -/
  activated : List TenantRuntimeSnapshot
  failures : List String

/-- The body of the loop: one tenant's newest version. -/
def reconcileTenant (r : Reconciled) (version : Version) : Reconciled :=
  match compileAndActivate lib r.server version.tenantID version
      (guardrailLoader r.server.store version.tenantID) with
  | .error error =>
    { r with failures := r.failures ++ ["tenant " ++ version.tenantID ++ ": " ++ error] }
  | .ok (server, snapshot) => { r with server, activated := r.activated ++ [snapshot] }

/-- `ReconcileAll`: every tenant, whatever became of the others. -/
def reconcileAll (s : Server) : Reconciled :=
  s.store.listLatestVersions.foldl (reconcileTenant lib) ⟨s, [], []⟩

/-- `OverlayGuardrail`. -/
def overlayGuardrail (s : Server) (tenantID : String) (policy : Runtime.GuardrailPolicy) :
    Except String (Server × TenantRuntimeSnapshot) := do
  if tenantID = "" then throw Err.invalidScope.text
  match s.store.latest tenantID with
  | none => throw Err.noPublishedVersion.text
  | some version => compileAndActivate lib s tenantID version (some policy)

/-- The mode of a fast-published policy: that of the tenant's live snapshot, if it has one. -/
def overlayMode (found : Option TenantRuntimeSnapshot) (change : String) : String :=
  match found with
  | none => change
  | some snapshot => if snapshot.guardrail.mode ≠ "" then snapshot.guardrail.mode else change

/-- `FastPublishGuardrail`: the policy is stored and then overlaid.  `order` is the order in which
the registry is walked for the tenant's snapshot. -/
def fastPublishGuardrail (regexps : Text → Option Regexp) (s : Server) (order : List String)
    (tenantID : String) (policy : Policy) (change : String) :
    Server × Except String PolicyRow :=
  match fastPublish regexps s.store.policies s.guardrails tenantID policy change with
  | .error error => (s, .error error.text)
  | .ok (policies, guardrails, published) =>
    let s := { s with store := { s.store with policies }, guardrails }
    let mode := overlayMode (s.registry.tenantByID order tenantID) change
    match overlayGuardrail lib s tenantID (overlayPolicy mode published.toPolicy) with
    | .error error => (s, .error error)
    | .ok (s, _) => (s, .ok published)

/-! ### The system defaults -/

def maxFileMappingRetentionDays : Int := 3650

def validSystemConfig (document : SystemConfig) : Bool :=
  0 ≤ document.fileMappingRetentionDays &&
    document.fileMappingRetentionDays ≤ maxFileMappingRetentionDays &&
    document.tenantDefaults.residencyEnforcement ∈ ["", "advisory", "strict"]

/-- `SetSystemConfig`: stored if it is valid, and then every tenant is reconciled. -/
def setSystemConfig (s : Server) (document : SystemConfig) : Server :=
  if validSystemConfig document then
    (reconcileAll lib { s with store := { s.store with system := document } }).server
  else s

/-! ### Calls that take turns -/

structure Call where
  request : Request
  phase : Phase

/-- A step of the call, or what some other caller does in the meantime. -/
inductive Action
  | step (fault : Option Fault)
  | createDraft (tenantID : String) (draft : Draft)
  | updateDraft (tenantID id : String) (expectedRevision : Int) (document : TenantConfig)
  | setKeys (keys : List KeyRecord)
  | setSystemConfig (document : SystemConfig)

/-- What a change of the tables leaves; nothing changes where it is refused. -/
def Server.edit (s : Server) (x : Except Err Store) : Server :=
  match x with
  | .error _ => s
  | .ok store => { s with store }

def act (s : Server) (t : Call) (a : Action) : Server × Call :=
  match a with
  | .step fault =>
    let (s, phase) := advance lib t.request s t.phase fault
    (s, { t with phase })
  | .createDraft tenantID draft => (s.edit (s.store.createDraft tenantID draft), t)
  | .updateDraft tenantID id expectedRevision document =>
    (s.edit (s.store.updateDraft tenantID id expectedRevision document), t)
  | .setKeys keys => ({ s with store := { s.store with keys } }, t)
  | .setSystemConfig document => (Config.setSystemConfig lib s document, t)

/-- Calls that have not begun. -/
def begun {κ : Type} (s : Server) (requests : κ → Request) : Threads Server κ Call :=
  ⟨s, fun k => ⟨requests k, .started⟩⟩

end LiteAIG.Config
