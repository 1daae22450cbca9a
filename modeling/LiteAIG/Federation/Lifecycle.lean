/-
Federation: trust in the agents of other organisations.

A relationship goes from discovery through review to active, and may be suspended
or revoked.  `Lifecycle` keeps relationships in a hot map in front of a store.  Both
are keyed by the id of the relationship alone; a lookup compares the tenant
afterwards.  Two stores are behind it: a map in memory, and a table.  Of a row of
the table the update on conflict leaves the tenant as it was.

An operation takes the time it runs at and returns, as the source does, a
relationship with an error or none, and the state.  Times are nanoseconds in UTC.
-/
import LiteAIG.Lib.Assoc

namespace LiteAIG.Federation

open Lib

inductive Status
  | discovered
  | candidate
  | pendingReview
  | active
  | suspended
  | revoked
  /-- Of a relationship that no operation has set yet. -/
  | unset
  deriving DecidableEq

inductive AnchorType
  | jws
  | mtls
  | oidc
  | registry
  deriving DecidableEq

inductive DataBoundaryStatus
  | unknown
  | declared
  | contractuallyBound
  | unset
  deriving DecidableEq

structure TrustAnchor where
  id : String
  type : AnchorType
  subject : String
  verified : Bool
  verifiedAt : Int
  deriving DecidableEq

structure DataBoundary where
  status : DataBoundaryStatus
  processingRegions : List String
  retention : String
  trainingUse : Bool
  subprocessors : List String
  dpaReference : String
  deriving DecidableEq

structure ProjectGrant where
  (id projectID grantedBy : String)
  createdAt : Int
  deriving DecidableEq

structure CapabilityGrant where
  (id capability : String)
  createdAt : Int
  deriving DecidableEq

structure Relationship where
  (id tenantID externalAgentID externalSubject name : String)
  status : Status
  (direction assuranceLevel agentCardSource authMethod : String)
  dataBoundary : DataBoundary
  anchors : List TrustAnchor
  projectGrants : List ProjectGrant
  capabilityGrants : List CapabilityGrant
  (pricingRef approvedVersion reviewStatus : String)
  /-- Guards against updates that are based on an old state. -/
  version : Int64
  (createdAt updatedAt : Int)
  deriving DecidableEq

/-- The zero value. -/
def Relationship.zero : Relationship where
  id := ""
  tenantID := ""
  externalAgentID := ""
  externalSubject := ""
  name := ""
  status := .unset
  direction := ""
  assuranceLevel := ""
  agentCardSource := ""
  authMethod := ""
  dataBoundary := ⟨.unset, [], "", false, [], ""⟩
  anchors := []
  projectGrants := []
  capabilityGrants := []
  pricingRef := ""
  approvedVersion := ""
  reviewStatus := ""
  version := 0
  createdAt := 0
  updatedAt := 0

def Relationship.hasVerifiedAnchor (r : Relationship) : Bool := r.anchors.any (·.verified)

inductive FederationError
  | unverified
  | notGranted
  | alreadyActive
  | staleState
  | notFound
  /-- The store's own error. -/
  | store (error : String)
  deriving DecidableEq

def FederationError.message : FederationError → String
  | .unverified => "federation relationship has no verified trust anchor"
  | .notGranted => "project or capability grant missing"
  | .alreadyActive => "federation relationship already active"
  | .staleState => "federation relationship is in a non-transitional state"
  | .notFound => "relationship not found"
  | .store error => error

/-! ### Stores -/

/-- What persists relationships. -/
class Store (σ : Type) where
  put : Relationship → σ → Except FederationError σ
  get : (tenantID id : String) → σ → Option Relationship
  list : (tenantID : String) → σ → Except FederationError (List Relationship)

structure MemoryStore where
  rows : Assoc String Relationship

def MemoryStore.put (m : MemoryStore) (r : Relationship) : MemoryStore := ⟨m.rows.insert r.id r⟩

def MemoryStore.get (m : MemoryStore) (tenantID id : String) : Option Relationship :=
  (m.rows.lookup id).filter (·.tenantID = tenantID)

/-- The source walks a map: the order means nothing. -/
def MemoryStore.list (m : MemoryStore) (tenantID : String) : List Relationship :=
  (m.rows.entries.map Prod.snd).filter (·.tenantID = tenantID)

instance : Store MemoryStore where
  put r m := .ok (m.put r)
  get tenantID id m := m.get tenantID id
  list tenantID m := .ok (m.list tenantID)

/-- A row of `federation_relationships`.  The body is the relationship, as JSON. -/
structure Row where
  (tenantID externalAgentID name : String)
  status : Status
  body : Relationship
  (createdAt updatedAt : Int)

/-- The table by its primary key; `available` is false while the database does not answer. -/
structure FederationStore where
  rows : Assoc String Row
  available : Bool

/-- The row a relationship is written to: the tenant and the creation time of one that is there
already stay. -/
def FederationStore.rowFor (s : FederationStore) (r : Relationship) : Row :=
  match s.rows.lookup r.id with
  | none => ⟨r.tenantID, r.externalAgentID, r.name, r.status, r, r.createdAt, r.updatedAt⟩
  | some old => { old with
      externalAgentID := r.externalAgentID, name := r.name, status := r.status, body := r,
      updatedAt := r.updatedAt }

/-- `INSERT … ON CONFLICT(id) DO UPDATE`. -/
def FederationStore.upsert (s : FederationStore) (r : Relationship) : FederationStore :=
  { s with rows := s.rows.insert r.id (s.rowFor r) }

def unavailable : FederationError := .store "database is unavailable"

def FederationStore.put (s : FederationStore) (r : Relationship) :
    Except FederationError FederationStore :=
  if s.available then .ok (s.upsert r) else .error unavailable

/-- `WHERE id=$1 AND tenant_id=$2`; a query that fails finds nothing. -/
def FederationStore.get (s : FederationStore) (tenantID id : String) : Option Relationship :=
  if s.available then
    ((s.rows.lookup id).filter (·.tenantID = tenantID)).map Row.body
  else none

/-- `WHERE tenant_id=$1 ORDER BY created_at`. -/
def FederationStore.list (s : FederationStore) (tenantID : String) :
    Except FederationError (List Relationship) :=
  if s.available then
    let rows := (s.rows.entries.map Prod.snd).filter (·.tenantID = tenantID)
    .ok ((rows.mergeSort fun a b => decide (a.createdAt ≤ b.createdAt)).map Row.body)
  else .error unavailable

instance : Store FederationStore where
  put r s := s.put r
  get tenantID id s := s.get tenantID id
  list tenantID s := s.list tenantID

/-! ### The lifecycle -/

structure Lifecycle (σ : Type) where
  states : Assoc String Relationship
  store : σ

/-- `NewLifecycleWithStore`. -/
def Lifecycle.withStore {σ : Type} (store : σ) : Lifecycle σ := ⟨.empty, store⟩

/-- `NewLifecycle`. -/
def Lifecycle.new : Lifecycle MemoryStore := .withStore ⟨.empty⟩

structure MaterialChange where
  fields : List String

def MaterialChange.requiresReview (m : MaterialChange) : Bool := 0 < m.fields.length

section

variable {σ : Type} [Store σ] (l : Lifecycle σ)

/-- The hot map first, then the store; what the store has goes into the hot map. -/
def Lifecycle.loadLocked (tenantID id : String) :
    Option Relationship × Lifecycle σ :=
  match l.states.lookup id with
  | some r => if r.tenantID ≠ tenantID then (none, l) else (some r, l)
  | none =>
    match Store.get tenantID id l.store with
    | some r => (some r, { l with states := l.states.insert id r })
    | none => (none, l)

/-- The hot map is written also where the store fails. -/
def Lifecycle.saveLocked (r : Relationship) :
    Option FederationError × Lifecycle σ :=
  let l := { l with states := l.states.insert r.id r }
  match Store.put r l.store with
  | .ok store => (none, { l with store })
  | .error e => (some e, l)

/-- What an operation returns once it has saved a relationship. -/
def Lifecycle.saved (r : Relationship) :
    (Relationship × Option FederationError) × Lifecycle σ :=
  let (err, l) := l.saveLocked r
  ((r, err), l)

def Lifecycle.get (tenantID id : String) : Option Relationship × Lifecycle σ :=
  l.loadLocked tenantID id

def Lifecycle.list (tenantID : String) :
    Except FederationError (List Relationship) :=
  Store.list tenantID l.store

/-- Whether a relationship may serve new calls. -/
def Lifecycle.active (tenantID id : String) : Bool :=
  match (l.get tenantID id).1 with
  | some r => r.status = .active
  | none => false

/-- Discovery never implies trust. -/
def Lifecycle.discover (now : Int) (r : Relationship) :
    (Relationship × Option FederationError) × Lifecycle σ :=
  let r := { r with status := .candidate, updatedAt := now, version := 1 }
  match l.loadLocked r.tenantID r.id with
  | (some _, l) => ((r, some .alreadyActive), l)
  | (none, l) => l.saved r

def Lifecycle.review (now : Int) (r : Relationship) (approved : Bool) :
    (Relationship × Option FederationError) × Lifecycle σ :=
  match l.loadLocked r.tenantID r.id with
  | (none, l) => ((r, some .notFound), l)
  | (some current, l) =>
    if current.status ≠ .candidate ∧ current.status ≠ .pendingReview then
      ((current, some .staleState), l)
    else if !approved then
      l.saved { current with
        status := .pendingReview, reviewStatus := "rejected", updatedAt := now,
        version := current.version + 1 }
    else if r.version ≠ current.version then ((current, some .staleState), l)
    else
      -- what is saved is the caller's relationship
      l.saved { r with
        status := .active, reviewStatus := "approved", updatedAt := now,
        version := current.version + 1 }

def Lifecycle.activate (now : Int) (r : Relationship) :
    (Relationship × Option FederationError) × Lifecycle σ :=
  if !r.hasVerifiedAnchor then ((r, some .unverified), l)
  else if r.projectGrants.length = 0 ∨ r.capabilityGrants.length = 0 then ((r, some .notGranted), l)
  else
    match l.loadLocked r.tenantID r.id with
    | (some current, l) =>
      if r.version ≠ current.version then ((current, some .staleState), l)
      else
        l.saved { r with
          status := .active, reviewStatus := "approved", updatedAt := now,
          version := current.version + 1 }
    | (none, l) =>
      l.saved { r with
        status := .active, reviewStatus := "approved", updatedAt := now, version := 1 }

def Lifecycle.suspend (now : Int) (tenantID id : String) :
    (Relationship × Option FederationError) × Lifecycle σ :=
  match l.loadLocked tenantID id with
  | (none, l) => ((.zero, some .notFound), l)
  | (some r, l) =>
    if r.status = .revoked then ((r, some .staleState), l)
    else l.saved { r with status := .suspended, updatedAt := now, version := r.version + 1 }

def Lifecycle.revoke (now : Int) (tenantID id : String) :
    (Relationship × Option FederationError) × Lifecycle σ :=
  match l.loadLocked tenantID id with
  | (none, l) => ((.zero, some .notFound), l)
  | (some r, l) =>
    l.saved { r with
      status := .revoked, reviewStatus := "revoked", updatedAt := now, version := r.version + 1 }

def Lifecycle.reviewMaterialChange (now : Int) (tenantID id : String) (change : MaterialChange) :
    (Relationship × Option FederationError) × Lifecycle σ :=
  if !change.requiresReview then
    match l.get tenantID id with
    | (none, l) => ((.zero, some .notFound), l)
    | (some r, l) => ((r, none), l)
  else
    match l.loadLocked tenantID id with
    | (none, l) => ((.zero, some .notFound), l)
    | (some r, l) =>
      l.saved { r with
        status := .pendingReview, reviewStatus := "material_change:" ++ change.fields.headD "",
        updatedAt := now, version := r.version + 1 }

end

end LiteAIG.Federation
