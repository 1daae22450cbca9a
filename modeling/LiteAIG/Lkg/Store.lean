/-
The Last Known Good store: what a data plane boots from when the control plane is
out of reach.

A tenant's directory has the active bundle, the previous one, and the temporary file
a new one is written to.  `Save` moves the active bundle over the previous one and
then writes the new one through the temporary file.  Every call to the file system
may fail, or be the one at which the process crashes.  A rename is atomic; what the
temporary file holds is anybody's guess until it is synced.

File contents are of any type, with `encoding/json` as the codec.
-/
import LiteAIG.Runtime.Snapshot

namespace LiteAIG.Lkg

open LiteAIG.Runtime

structure Bundle where
  (schemaVersion tenantID tenantRef : String)
  (configVersion securityEpoch : Int)
  payloadChecksum : String
  signature : List UInt8
  snapshotData : Option TenantSnapshotData

/-- `json.Marshal` and `json.Unmarshal` of a bundle. -/
structure Codec (φ : Type) where
  marshal : Bundle → Except String φ
  unmarshal : φ → Except String Bundle
  roundTrip : ∀ {bundle data}, marshal bundle = .ok data → unmarshal data = .ok bundle

/-- A tenant's directory. -/
structure TenantDir (φ : Type) where
  (active previous temp : Option φ)

/-! ### Loading -/

section

variable {φ : Type} (codec : Codec φ)

def read (file : Option φ) : Except String Bundle :=
  match file with
  | none => .error "no such file or directory"
  | some data =>
    match codec.unmarshal data with
    | .error e => .error e
    | .ok bundle =>
      if bundle.tenantRef = "" ∨ bundle.configVersion = 0 then .error "invalid LKG bundle"
      else .ok bundle

def loadActive (d : TenantDir φ) : Except String Bundle :=
  match read codec d.active with
  | .ok bundle => .ok bundle
  | .error err =>
    match read codec d.previous with
    | .ok previous => .ok previous
    | .error _ => .error ("active and previous bundles unreadable: " ++ err)

def ready (d : TenantDir φ) : Bool := (loadActive codec d).isOk

/-- One candidate: it can be read and the verifier accepts it. -/
def candidate (verifier : Bundle → Except String Unit) (file : Option φ) :
    Except String Bundle :=
  match read codec file with
  | .error e => .error e
  | .ok bundle =>
    match verifier bundle with
    | .error e => .error e
    | .ok () => .ok bundle

def loadVerified (verifier : Option (Bundle → Except String Unit)) (d : TenantDir φ) :
    Except String Bundle :=
  match verifier with
  | none => .error "LKG bundle verifier is required"
  | some verifier =>
    match candidate codec verifier d.active with
    | .ok bundle => .ok bundle
    | .error activeErr =>
      match candidate codec verifier d.previous with
      | .ok bundle => .ok bundle
      -- the first error is the one reported
      | .error _ =>
        .error ("active and previous bundles failed verification: " ++ activeErr)

end

def lkgSchemaVersion : String := "v1"

/-- The verifier the data plane boots with. -/
def verifyLKGBundle (bundle : Bundle) : Except String Unit :=
  if bundle.schemaVersion ≠ lkgSchemaVersion then .error "unsupported LKG schema version"
  else if bundle.tenantRef = "" ∨ bundle.tenantID = "" ∨ bundle.configVersion = 0 then
    .error "incomplete LKG bundle"
  else
    match bundle.snapshotData with
    | none => .error "LKG bundle has no snapshot data"
    | some data =>
      if data.tenantRef ≠ bundle.tenantRef ∨ data.tenantID ≠ bundle.tenantID then
        .error "LKG bundle tenant mismatch"
      else if data.version ≠ bundle.configVersion then .error "LKG bundle version mismatch"
      else .ok ()

/-! ### Saving -/

/-- The calls to the file system that `Save` makes. -/
inductive Call
  | mkdir
  | stat
  | rotate
  | create
  | write
  | sync
  | close
  | rename
  deriving DecidableEq

/-- What becomes of a call. -/
inductive Fate
  | done
  | failed
  | crashed
  deriving DecidableEq

/-- Why `Save` stopped. -/
inductive Halt
  | marshal (error : String)
  | failed (call : Call)
  | crashed
  deriving DecidableEq

def Proc (φ α : Type) := TenantDir φ → Except Halt α × TenantDir φ

instance {φ : Type} : Monad (Proc φ) where
  pure a := fun d => (.ok a, d)
  bind p f := fun d =>
    match p d with
    | (.ok a, d') => f a d'
    | (.error halt, d') => (.error halt, d')

section

variable {φ : Type} (fates : Call → Fate)

/-- A call with what it does to the directory where it goes through, and where it does not. -/
def call (c : Call) (good bad : TenantDir φ → TenantDir φ) : Proc φ Unit := fun d =>
  match fates c with
  | .done => (.ok (), good d)
  | .failed => (.error (.failed c), bad d)
  | .crashed => (.error .crashed, bad d)

/-- The active bundle, if there is one, becomes the previous one.  An error of the rename is
ignored. -/
def rotateActive : Proc φ Unit := fun d =>
  match fates .stat with
  | .crashed => (.error .crashed, d)
  | .failed => (.ok (), d)
  | .done =>
    match d.active with
    | none => (.ok (), d)
    | some file =>
      match fates .rotate with
      | .crashed => (.error .crashed, d)
      | .failed => (.ok (), d)
      | .done => (.ok (), { d with active := none, previous := some file })

/-- Until it is synced the temporary file holds something, `torn`. -/
def writeAtomic (torn data : φ) : Proc φ Unit := do
  let tear := fun d : TenantDir φ => { d with temp := some torn }
  call fates .create tear id
  call fates .write tear tear
  call fates .sync (fun d => { d with temp := some data }) tear
  call fates .close id id
  call fates .rename (fun d => { d with active := d.temp, temp := none }) id

def save (codec : Codec φ) (torn : φ) (bundle : Bundle) : Proc φ Unit :=
  match codec.marshal bundle with
  | .error e => fun d => (.error (.marshal e), d)
  | .ok data => do
    call fates .mkdir id id
    rotateActive fates
    writeAtomic fates torn data

end

end LiteAIG.Lkg
