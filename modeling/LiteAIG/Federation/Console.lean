/-
The console's side of federation.

An operator discovers a peer by the URL of its agent card, and approves or rejects
what was discovered.  The id of a relationship is derived from the peer's name, or
from the URL where the card has none; the tenant has no part in it.  How a card is
fetched and its signature verified is a parameter.
-/
import LiteAIG.Lib.Text
import LiteAIG.Federation.Lifecycle

namespace LiteAIG.Federation

open Lib

structure AgentCard where
  (name url version : String)
  /-- The card carries a signature. -/
  signed : Bool

structure VerificationKey where
  (alg pem : String)

/-- What the console depends on outside: `κ` is the type of parsed public keys. -/
structure Peers (κ : Type) where
  sha256 : List UInt8 → List UInt8
  fetch : String → Except String AgentCard
  parseVerificationKeys : List VerificationKey → Except String (List κ)
  verifyCardSignature : AgentCard → List κ → Bool

structure FederationDiscoverInput where
  (url name : String)
  verificationKeys : List VerificationKey
  (projectGrants capabilityGrants : List String)

structure FederationReviewInput where
  approved : Bool
  (projectGrants capabilityGrants : List String)

structure RelationshipView where
  (id externalAgentID : String)
  status : Status
  assuranceLevel : String
  dataBoundary : DataBoundaryStatus
  hasVerifiedAnchor : Bool
  (projectGrants capabilityGrants : Nat)

def toRelationshipView (r : Relationship) : RelationshipView where
  id := r.id
  externalAgentID := r.externalAgentID
  status := r.status
  assuranceLevel := r.assuranceLevel
  dataBoundary := r.dataBoundary.status
  hasVerifiedAnchor := r.hasVerifiedAnchor
  projectGrants := r.projectGrants.length
  capabilityGrants := r.capabilityGrants.length

def sha256hex (sha256 : List UInt8 → List UInt8) (value : String) : List Char :=
  hexEncode (sha256 (utf8 value))

def relationshipID (sha256 : List UInt8 → List UInt8) (name url : String) : String :=
  let seed := if name = "" then url else name
  "rel-" ++ String.ofList ((sha256hex sha256 seed).take 16)

def firstNonEmpty (values : List String) : String := (values.find? (· ≠ "")).getD ""

def projectGrants (ids : List String) : List ProjectGrant := ids.map fun id => ⟨id, id, "admin", 0⟩

def capabilityGrants (capabilities : List String) : List CapabilityGrant :=
  capabilities.map fun capability => ⟨capability, capability, 0⟩

def cardMaterialChange (existing : Relationship) (cardURL : String) (card : AgentCard)
    (verified : Bool) : MaterialChange where
  fields :=
    (if existing.agentCardSource ≠ "" ∧ existing.agentCardSource ≠ cardURL then ["endpoint"]
      else []) ++
    (if card.version ≠ "" ∧ existing.approvedVersion ≠ "" ∧ card.version ≠ existing.approvedVersion
      then ["publisher"] else []) ++
    (if existing.hasVerifiedAnchor ≠ verified then ["trust_key"] else [])

/-- The relationship a card is recorded as. -/
def cardRelationship (tenantID id : String) (now : Int) (input : FederationDiscoverInput)
    (card : AgentCard) (verified : Bool) : Relationship :=
  { Relationship.zero with
    id
    tenantID
    externalAgentID := card.name
    externalSubject := card.url
    name := firstNonEmpty [input.name, card.name]
    assuranceLevel := "declared"
    agentCardSource := input.url
    authMethod := "jws"
    dataBoundary := { Relationship.zero.dataBoundary with status := .unknown }
    anchors := [⟨"card", .jws, card.name, verified, now⟩]
    projectGrants := projectGrants input.projectGrants
    capabilityGrants := capabilityGrants input.capabilityGrants }

section

variable {σ κ : Type} [Store σ]

/-- A peer that is known already is compared with its card; a new one becomes a candidate. -/
def consoleDiscover (peers : Peers κ) (l : Lifecycle σ) (now : Int) (tenantID : String)
    (input : FederationDiscoverInput) : Except String RelationshipView × Lifecycle σ :=
  match peers.fetch input.url with
  | .error e => (.error e, l)
  | .ok card =>
    match peers.parseVerificationKeys input.verificationKeys with
    | .error e => (.error e, l)
    | .ok keys =>
      let verified := card.signed && peers.verifyCardSignature card keys
      let id := relationshipID peers.sha256 card.name input.url
      match l.get tenantID id with
      | (some existing, l) =>
        let change := cardMaterialChange existing input.url card verified
        if change.requiresReview then
          match l.reviewMaterialChange now tenantID id change with
          | ((_, some e), l) => (.error e.message, l)
          | ((_, none), l) =>
            let (updated, l) := l.get tenantID id
            (.ok (toRelationshipView (updated.getD .zero)), l)
        else
          let (updated, l) := l.get tenantID id
          (.ok (toRelationshipView (updated.getD .zero)), l)
      | (none, l) =>
        match l.discover now (cardRelationship tenantID id now input card verified) with
        | ((_, some e), l) => (.error e.message, l)
        | ((created, none), l) => (.ok (toRelationshipView created), l)

/-- An approval activates the relationship as it is stored, with the grants that come along. -/
def consoleReview (l : Lifecycle σ) (now : Int) (tenantID id : String)
    (input : FederationReviewInput) : Except String Unit × Lifecycle σ :=
  match l.get tenantID id with
  | (none, l) => (.error "relationship not found", l)
  | (some r, l) =>
    if !input.approved then
      match l.review now r false with
      | ((_, some e), l) => (.error e.message, l)
      | ((_, none), l) => (.ok (), l)
    else
      let r := if 0 < input.projectGrants.length then
        { r with projectGrants := projectGrants input.projectGrants } else r
      let r := if 0 < input.capabilityGrants.length then
        { r with capabilityGrants := capabilityGrants input.capabilityGrants } else r
      match l.activate now r with
      | ((_, some .unverified), l) =>
        (.error "cannot activate: relationship has no verified trust anchor", l)
      | ((_, some .notGranted), l) =>
        (.error "cannot activate: project and capability grants are required", l)
      | ((_, some e), l) => (.error e.message, l)
      | ((_, none), l) => (.ok (), l)

def consoleSuspend (l : Lifecycle σ) (now : Int) (tenantID id : String) :
    Except String Unit × Lifecycle σ :=
  match l.suspend now tenantID id with
  | ((_, some e), l) => (.error e.message, l)
  | ((_, none), l) => (.ok (), l)

end

end LiteAIG.Federation
