/-
The stored drafts and versions.

A draft has a revision, and an update gives the revision it replaces; publishing
claims the draft at a revision and stores its document under the next version number.
Rolling back stores an old version's document under the next number.  Each function
is one transaction.  A document is stored as the text of its encoding and is, here,
what the text decodes to; a time column keeps a time as it is given.
-/
import LiteAIG.Config.Compiler
import LiteAIG.Guardrail.Policy

namespace LiteAIG.Config

open Lib

inductive DraftStatus
  | editing
  | pendingApproval
  | published
  | discarded
  | expired
  deriving DecidableEq

structure Draft where
  (id tenantID : String)
  revision : Int
  status : DraftStatus
  config : TenantConfig

structure Version where
  (id tenantID : String)
  version : Int
  /-- Empty for a rollback. -/
  sourceDraftID : String
  config : TenantConfig
  publishedBy : String
  publishedAt : Time

structure PublishRecord where
  (draftID versionID actorID : String)
  expectedRevision : Int
  publishedAt : Time

structure RollbackRecord where
  sourceVersion : Int
  (versionID actorID : String)
  publishedAt : Time

/-- The tables. -/
structure Store where
  drafts : Assoc String Draft
  versions : List Version
  system : SystemConfig
  keys : List KeyRecord
  policies : List Guardrail.PolicyRow

namespace Store

def empty : Store := ⟨.empty, [], .zero, [], []⟩

/-! ### Drafts -/

def getDraft (s : Store) (tenantID id : String) : Except Err Draft :=
  if tenantID = "" then .error .invalidScope
  else
    match s.drafts.lookup id with
    | none => .error .draftNotFound
    | some draft => if draft.tenantID = tenantID then .ok draft else .error .draftNotFound

/-- A draft's id is its primary key. -/
def createDraft (s : Store) (tenantID : String) (draft : Draft) : Except Err Store :=
  if tenantID = "" then .error .invalidScope
  else if draft.tenantID ≠ tenantID then .error .scopeMismatch
  else
    match s.drafts.lookup draft.id with
    | some _ => .error .unavailable
    | none => .ok { s with drafts := s.drafts.insert draft.id draft }

/-- The draft that a statement of the repository finds: of the tenant, at the revision, and still
being edited. -/
def claimable (s : Store) (tenantID id : String) (revision : Int) : Option Draft :=
  (s.drafts.lookup id).filter fun draft =>
    draft.tenantID = tenantID ∧ draft.revision = revision ∧ draft.status = .editing

def updateDraft (s : Store) (tenantID id : String) (expectedRevision : Int)
    (document : TenantConfig) : Except Err Store :=
  if tenantID = "" then .error .invalidScope
  else
    match s.claimable tenantID id expectedRevision with
    | none => .error .revisionConflict
    | some draft =>
      let draft := { draft with config := document, revision := draft.revision + 1 }
      .ok { s with drafts := s.drafts.insert id draft }

/-! ### Versions -/

def versionsOf (s : Store) (tenantID : String) : List Version :=
  s.versions.filter (·.tenantID = tenantID)

/-- The last of `ListVersions`. -/
def latest (s : Store) (tenantID : String) : Option Version :=
  newest Version.version (s.versionsOf tenantID)

/-- `ListLatestVersions`, in the order of the tenants' ids. -/
def listLatestVersions (s : Store) : List Version :=
  ((s.versions.map (·.tenantID)).dedup.mergeSort fun a b => decide (a ≤ b)).filterMap s.latest

def getVersion (s : Store) (tenantID : String) (version : Int) : Except Err Version :=
  if tenantID = "" then .error .invalidScope
  else
    match (s.versionsOf tenantID).find? (·.version = version) with
    | none => .error .versionNotFound
    | some row => .ok row

/-- `PublishDraft`. -/
def publishDraft (s : Store) (tenantID : String) (record : PublishRecord) :
    Except Err (Store × Version) :=
  if tenantID = "" then .error .invalidScope
  else
    match s.claimable tenantID record.draftID record.expectedRevision with
    | none => .error .revisionConflict
    | some draft =>
      let version : Version := {
        id := record.versionID
        tenantID := tenantID
        version := nextNumber Version.version (s.versionsOf tenantID)
        sourceDraftID := record.draftID
        config := draft.config
        publishedBy := record.actorID
        publishedAt := record.publishedAt }
      .ok ({ s with
        drafts := s.drafts.insert record.draftID { draft with status := .published }
        versions := s.versions ++ [version] }, version)

/-- `RollbackVersion`. -/
def rollbackVersion (s : Store) (tenantID : String) (record : RollbackRecord) :
    Except Err (Store × Version) := do
  let source ← s.getVersion tenantID record.sourceVersion
  let version : Version := {
    id := record.versionID
    tenantID := tenantID
    version := nextNumber Version.version (s.versionsOf tenantID)
    sourceDraftID := ""
    config := source.config
    publishedBy := record.actorID
    publishedAt := record.publishedAt }
  return ({ s with versions := s.versions ++ [version] }, version)

/-! ### Keys -/

def listActive (s : Store) (tenantID : String) : Except Err (List KeyRecord) :=
  if tenantID = "" then .error .invalidScope
  else .ok (s.keys.filter fun key => key.tenantID = tenantID ∧ key.status = "active")

end Store

end LiteAIG.Config
