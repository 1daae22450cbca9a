/-
Signed bundles: how the control plane delivers a snapshot to the data planes.

A bundle is signed over its checksum, and the checksum is taken over the payload, the
JSON text of the bundle's metadata and of its snapshot.  `encoding/json` writes the
exported fields of a struct and no others, so of the snapshot the payload has six
fields.  On the wire the snapshot travels as its data, and the receiver compiles it
again.  The hash and the signature scheme are parameters.
-/
import LiteAIG.Lib.Json
import LiteAIG.Runtime.Snapshot

namespace LiteAIG.Bundle

open Lib LiteAIG.Runtime

/-- SHA-256 and Ed25519, as far as anything here depends on them. -/
structure Crypto where
  sha256 : List UInt8 → List UInt8
  /-- The public key of a private key. -/
  publicKey : List UInt8 → List UInt8
  sign : List UInt8 → List UInt8 → List UInt8
  verify : List UInt8 → List UInt8 → List UInt8 → Bool
  collisionFree : Function.Injective sha256
  verify_sign : ∀ key message, verify (publicKey key) message (sign key message) = true
  sign_ne_nil : ∀ key message, sign key message ≠ []

inductive BundleError
  | marshal (error : String)
  | unsigned
  | checksumMismatch
  | badSignature
  | noSnapshot
  | incomplete
  deriving DecidableEq

structure RuntimeBundle where
  (schemaVersion tenantID tenantRef : String)
  (configVersion securityEpoch systemRuntimeVersion : Int)
  publishedAt : Time
  payloadChecksum : String
  signature : List UInt8
  snapshot : Option TenantRuntimeSnapshot

/-! ### The payload -/

/-- A time as `encoding/json` writes it, and its error where there is no such text. -/
def timeJson (t : Time) : Except BundleError Json :=
  match t.rfc3339 with
  | .ok text => .ok (.str (String.ofList text))
  | .error e =>
    .error (.marshal ("json: error calling MarshalJSON for type time.Time: Time.MarshalJSON: " ++
      e))

/-- The exported fields of a snapshot; a missing one is null. -/
def snapshotJson : Option TenantRuntimeSnapshot → Except BundleError Json
  | none => .ok .null
  | some s => do
    let publishedAt ← timeJson s.publishedAt
    return .obj
      [("TenantID", .str s.tenantID), ("TenantRef", .str s.tenantRef), ("Status", .str s.status),
        ("Version", .num s.version), ("SecurityEpoch", .num s.securityEpoch),
        ("PublishedAt", publishedAt)]

namespace RuntimeBundle

/-- The struct that the payload is marshalled from. -/
def wire (b : RuntimeBundle) : Except BundleError Json := do
  let publishedAt ← timeJson b.publishedAt
  let snapshot ← snapshotJson b.snapshot
  return .obj
    [("SchemaVersion", .str b.schemaVersion), ("TenantID", .str b.tenantID),
      ("TenantRef", .str b.tenantRef), ("ConfigVersion", .num b.configVersion),
      ("SecurityEpoch", .num b.securityEpoch),
      ("SystemRuntimeVersion", .num b.systemRuntimeVersion), ("PublishedAt", publishedAt),
      ("Snapshot", snapshot)]

def payload (b : RuntimeBundle) : Except BundleError (List UInt8) := do
  let json ← b.wire
  return utf8 (String.ofList json.render)

variable (crypto : Crypto)

def checksum (b : RuntimeBundle) : Except BundleError String := do
  let payload ← b.payload
  return String.ofList (hexEncode (crypto.sha256 payload))

def sign (privateKey : List UInt8) (b : RuntimeBundle) : Except BundleError RuntimeBundle := do
  let checksum ← b.checksum crypto
  return { b with payloadChecksum := checksum, signature := crypto.sign privateKey (utf8 checksum) }

def verify (publicKey : List UInt8) (b : RuntimeBundle) : Except BundleError Unit :=
  if b.signature = [] then .error .unsigned
  else
    match b.checksum crypto with
    | .error e => .error e
    | .ok checksum =>
      if checksum ≠ b.payloadChecksum then .error .checksumMismatch
      else if crypto.verify publicKey (utf8 checksum) b.signature then .ok ()
      else .error .badSignature

end RuntimeBundle

/-! ### Delivery -/

/-- What travels: the snapshot as its data. -/
structure WireBundle where
  (schemaVersion tenantID tenantRef : String)
  (configVersion securityEpoch systemRuntimeVersion : Int)
  publishedAt : Time
  payloadChecksum : String
  signature : List UInt8
  snapshotData : TenantSnapshotData

/-- `Encode`, up to the JSON text of the wire bundle. -/
def RuntimeBundle.encode (b : RuntimeBundle) : Except BundleError WireBundle :=
  match b.snapshot with
  | none => .error .noSnapshot
  | some s =>
    .ok ⟨b.schemaVersion, b.tenantID, b.tenantRef, b.configVersion, b.securityEpoch,
      b.systemRuntimeVersion, b.publishedAt, b.payloadChecksum, b.signature, s.data⟩

/-- `Decode`, from the wire bundle that the JSON text parses to. -/
def WireBundle.decode (w : WireBundle) : Except BundleError RuntimeBundle :=
  if w.snapshotData.tenantRef = "" ∨ w.configVersion = 0 then .error .incomplete
  else
    .ok ⟨w.schemaVersion, w.tenantID, w.tenantRef, w.configVersion, w.securityEpoch,
      w.systemRuntimeVersion, w.publishedAt, w.payloadChecksum, w.signature,
      some (newTenantSnapshot w.snapshotData)⟩

structure Signer where
  privateKey : List UInt8
  schema : String
  systemVersion : Int

/-- A fresh bundle around a snapshot, signed. -/
def Signer.sign (crypto : Crypto) (s : Signer) (snapshot : TenantRuntimeSnapshot) :
    Except BundleError RuntimeBundle :=
  RuntimeBundle.sign crypto s.privateKey
    { schemaVersion := if s.schema = "" then "v1" else s.schema
      tenantID := snapshot.tenantID
      tenantRef := snapshot.tenantRef
      configVersion := snapshot.version
      securityEpoch := snapshot.securityEpoch
      systemRuntimeVersion := s.systemVersion
      publishedAt := snapshot.publishedAt
      payloadChecksum := ""
      signature := []
      snapshot := some snapshot }

end LiteAIG.Bundle
