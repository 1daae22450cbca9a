/-
Approvals of high-risk actions.

A request waits for one decision, or for two approvals where dual approval is asked.
The service reads the stored row, works out the row as it should be and writes that;
nothing in the write says which row it was worked out from.  The data plane's gate
looks for a request of the caller for the target and opens one if there is none,
under an id that depends on nothing else, and opening one is an upsert.

A call is therefore two steps on the table, with those of other calls in between.
`verified` is what the check of the actor's identity answered.  Times are nanoseconds
in UTC.
-/
import LiteAIG.Lib.Assoc
import LiteAIG.Lib.Text
import LiteAIG.Lib.Threads

namespace LiteAIG.Approval

open Lib

inductive Status
  | pending
  | approved
  | rejected
  | cancelled
  deriving DecidableEq

structure Request where
  (id tenantID requester action target : String)
  dualApproval : Bool
  status : Status
  approvedBy : List String
  rejectedBy : String
  (createdAt updatedAt : Int)

inductive ApprovalError
  | selfApproval
  | notPending
  | notFound
  | scopeMismatch
  | invalidScope
  | alreadyDecided
  | required
  /-- The actor is not an active local user of the tenant. -/
  | verifier (error : String)
  deriving DecidableEq

/-! ### The table -/

/-- The rows by their primary key. -/
structure ApprovalStore where
  rows : Assoc String Request
  keyed : ∀ id row, rows.lookup id = some row → row.id = id

namespace ApprovalStore

def empty : ApprovalStore := ⟨.empty, by simp⟩

variable (s : ApprovalStore)

def put (row : Request) : ApprovalStore where
  rows := s.rows.insert row.id row
  keyed := by
    intro id found h
    rcases Assoc.lookup_insert_some h with ⟨rfl, rfl⟩ | ⟨-, h⟩
    · rfl
    · exact s.keyed id found h

/-- What an upsert or an update sets in a row that is there. -/
def overwrite (row request : Request) : Request :=
  { row with
    status := request.status
    approvedBy := request.approvedBy
    rejectedBy := request.rejectedBy
    updatedAt := request.updatedAt }

def create (tenantID : String) (request : Request) :
    Except ApprovalError ApprovalStore :=
  if request.tenantID ≠ tenantID then .error .scopeMismatch
  else
    match s.rows.lookup request.id with
    | some row => .ok (s.put (overwrite row request))
    | none => .ok (s.put request)

def get (tenantID id : String) : Except ApprovalError Request :=
  match s.rows.lookup id with
  | some row => if row.tenantID = tenantID then .ok row else .error .notFound
  | none => .error .notFound

def update (tenantID : String) (request : Request) :
    Except ApprovalError ApprovalStore :=
  if request.tenantID ≠ tenantID then .error .scopeMismatch
  else
    match s.rows.lookup request.id with
    | some row =>
      if row.tenantID = tenantID then .ok (s.put (overwrite row request)) else .error .notFound
    | none => .error .notFound

/-- `ORDER BY created_at DESC, id DESC`. -/
def before (a b : Request) : Bool :=
  a.createdAt < b.createdAt || a.createdAt == b.createdAt && a.id < b.id

/-- The last of the rows in that order. -/
def latest : List Request → Option Request
  | [] => none
  | row :: rest =>
    match latest rest with
    | none => some row
    | some other => if before row other then some other else some row

/-- The most recent request of the caller for the target, in any status. -/
def find (tenantID target requester : String) : Except ApprovalError Request :=
  match latest ((s.rows.entries.map Prod.snd).filter fun row =>
      row.tenantID = tenantID ∧ row.target = target ∧ row.requester = requester) with
  | some row => .ok row
  | none => .error .notFound

end ApprovalStore

/-! ### The service -/

/-- `TenantScope.Validate`. -/
def validateScope (tenantID : String) : Except ApprovalError Unit :=
  if tenantID = "" then .error .invalidScope else .ok ()

namespace Service

/-- `Create`, up to its write: the request as it is stored. -/
def create (tenantID : String) (request : Request) (now : Int) : Except ApprovalError Request := do
  validateScope tenantID
  if request.requester = "" ∨ request.action = "" then throw .required
  return { request with tenantID, status := .pending, createdAt := now, updatedAt := now }

/-- `Approve`, up to its write. -/
def approve (s : ApprovalStore) (tenantID id approver : String)
    (verified : Except ApprovalError Unit) (now : Int) : Except ApprovalError Request := do
  validateScope tenantID
  let request ← s.get tenantID id
  if request.status ≠ .pending then throw .notPending
  verified
  if approver = request.requester then throw .selfApproval
  if approver ∈ request.approvedBy then throw .alreadyDecided
  let approvedBy := request.approvedBy ++ [approver]
  if request.dualApproval ∧ approvedBy.length < 2 then
    return { request with approvedBy, updatedAt := now }
  return { request with approvedBy, status := .approved, updatedAt := now }

/-- `Reject`, up to its write. -/
def reject (s : ApprovalStore) (tenantID id reviewer : String)
    (verified : Except ApprovalError Unit) (now : Int) : Except ApprovalError Request := do
  validateScope tenantID
  let request ← s.get tenantID id
  if request.status ≠ .pending then throw .notPending
  verified
  if reviewer = request.requester then throw .selfApproval
  return { request with status := .rejected, rejectedBy := reviewer, updatedAt := now }

end Service

/-! ### The gate -/

structure Decision where
  (action requester : String)
  (approved rejected : Bool)
  approvers : Nat
  dualNeeded : Bool

variable (sha256 : List UInt8 → List UInt8)

/-- A version-5-style UUID of the digest of tenant, caller and target. -/
def stableApprovalID (tenantID caller target : String) : String :=
  let digest := sha256 (utf8 (tenantID ++ "\x00" ++ caller ++ "\x00" ++ target))
  let b := digest.take 16
  let b := b.modify 6 fun x => (x &&& 0x0f) ||| 0x50
  let b := b.modify 8 fun x => (x &&& 0x3f) ||| 0x80
  let part := fun lo hi => String.ofList (hexEncode ((b.take hi).drop lo))
  "-".intercalate [part 0 4, part 4 6, part 6 8, part 8 10, part 10 16]

/-- What the gate does after its `Find`. -/
inductive GateStep
  | decided (decision : Decision)
  | creates (request : Request)
  | fails (error : ApprovalError)

/-- `approvalGate.Check`, up to its write. -/
def gateCheck (s : ApprovalStore) (tenantID caller target : String) (now : Int) : GateStep :=
  match (do validateScope tenantID; s.find tenantID target caller) with
  | .ok existing =>
    .decided ⟨target, caller, existing.status = .approved, existing.status = .rejected,
      existing.approvedBy.length, existing.dualApproval⟩
  | .error .notFound =>
    let request : Request :=
      ⟨stableApprovalID sha256 tenantID caller target, "", caller, target, target, false, .pending,
        [], "", 0, 0⟩
    match Service.create tenantID request now with
    | .ok request => .creates request
    | .error error => .fails error
  | .error error => .fails error

/-! ### Calls in turns -/

/-- Where a call is. -/
inductive Progress
  | idle
  /-- `read` is the row that `next` was worked out from; an approval has its approver. -/
  | updating (tenantID : String) (approver : Option String) (read next : Request)
  | creating (tenantID : String) (request : Request)

inductive Action
  /-- The `Get` of an approval. -/
  | approve (tenantID id approver : String) (verified : Except ApprovalError Unit) (now : Int)
  /-- The `Get` of a rejection. -/
  | reject (tenantID id reviewer : String) (verified : Except ApprovalError Unit) (now : Int)
  /-- The `Find` of the gate. -/
  | check (tenantID caller target : String) (now : Int)
  /-- A request that is opened by somebody else. -/
  | create (tenantID : String) (request : Request) (now : Int)
  /-- The write a call has come to. -/
  | write (fault : Option Fault)

structure Approvals where
  store : ApprovalStore
  /-- The approvals that were answered without an error, each with the id of its request.
  Nothing reads them. -/
  recorded : List (String × String)

/-- The table after a write, if the write takes effect. -/
def Approvals.put (s : Approvals) (fault : Option Fault)
    (written : Except ApprovalError ApprovalStore)
    (recorded : List (String × String)) : Approvals :=
  match written, fault with
  | .ok store, none => ⟨store, s.recorded ++ recorded⟩
  | .ok store, some .unconfirmed => { s with store }
  | .ok _, some .refused => s
  | .error _, _ => s

def act (s : Approvals) (t : Progress) (a : Action) :
    Approvals × Progress :=
  match t, a with
  | .idle, .approve tenantID id approver verified now =>
    match s.store.get tenantID id, Service.approve s.store tenantID id approver verified now with
    | .ok read, .ok next => (s, .updating tenantID (some approver) read next)
    | _, _ => (s, .idle)
  | .idle, .reject tenantID id reviewer verified now =>
    match s.store.get tenantID id, Service.reject s.store tenantID id reviewer verified now with
    | .ok read, .ok next => (s, .updating tenantID none read next)
    | _, _ => (s, .idle)
  | .idle, .check tenantID caller target now =>
    match gateCheck sha256 s.store tenantID caller target now with
    | .creates request => (s, .creating tenantID request)
    | .decided _ | .fails _ => (s, .idle)
  | .idle, .create tenantID request now =>
    match Service.create tenantID request now with
    | .ok request => (s, .creating tenantID request)
    | .error _ => (s, .idle)
  | .updating tenantID approver _ next, .write fault =>
    (s.put fault (s.store.update tenantID next) (approver.toList.map fun a => (next.id, a)), .idle)
  | .creating tenantID request, .write fault =>
    (s.put fault (s.store.create tenantID request) [], .idle)
  | t, _ => (s, t)

end LiteAIG.Approval
