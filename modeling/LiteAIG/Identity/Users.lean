/-
The local user directory, and the requests that may take an administrator away.

A request reads the account it is about.  If that is an active administrator whose
rights it could end, it counts the active administrators; then it writes.  Each of
the three is a statement of its own, and other requests may come between them.
Names, addresses and password hashes have no part in it.
-/
import LiteAIG.Lib.Assoc
import LiteAIG.Lib.Threads

namespace LiteAIG.Identity

open Lib

inductive Role
  | systemAdmin | tenantAdmin | tenantOperator | viewer
  deriving DecidableEq

inductive UserStatus
  | active | disabled
  deriving DecidableEq

structure LocalUser where
  role : Role
  status : UserStatus

/-- The table `local_admins`, by id. -/
abbrev Users := Assoc String LocalUser

def isLastActiveAdmin (user : LocalUser) : Bool := user.role = .tenantAdmin && user.status = .active

def countActiveAdmins (users : Users) : Nat :=
  users.sum fun user => if isLastActiveAdmin user then 1 else 0

/-- The error codes of the handlers. -/
inductive UserError
  | invalidRequest | notFound | lastAdminProtected
  deriving DecidableEq

/-- `updateUserRole`, `updateUserStatus` and `deleteUser`. -/
inductive UserChange
  | setRole (role : Role)
  | setStatus (status : UserStatus)
  | delete
  deriving DecidableEq

/-- `validRole`: only the roles of a tenant can be given. -/
def UserChange.valid : UserChange → Bool
  | .setRole role => role ≠ .systemAdmin
  | _ => true

/-- Is the account's last administrator to be protected from the change?  Enabling needs no
check. -/
def UserChange.guards : UserChange → LocalUser → Bool
  | .setStatus .active, _ => false
  | _, target => isLastActiveAdmin target

/-- The row after the change; none when it is deleted. -/
def UserChange.result : UserChange → LocalUser → Option LocalUser
  | .setRole role, user => some { user with role }
  | .setStatus status, user => some { user with status }
  | .delete, _ => none

/-- The statement of the change.  One that affects no row has found no user. -/
def UserChange.write (change : UserChange) (users : Users) (id : String) :
    Except UserError Unit × Users :=
  match users.lookup id with
  | none => (.error .notFound, users)
  | some user =>
    match change.result user with
    | some user' => (.ok (), users.insert id user')
    | none => (.ok (), users.erase id)

/-- How far a request has come, with the account as it was read and what was counted, if the
request had to count. -/
inductive UserProgress
  | idle
  | counting (id : String) (change : UserChange) (target : LocalUser)
  | writing (id : String) (change : UserChange) (target : LocalUser) (counted : Option Nat)
  | answered (answer : Except UserError Unit)

inductive UserAction
  /-- A request of the caller arrives, is checked, and reads its target. -/
  | find (caller id : String) (change : UserChange)
  | count
  | write
  deriving DecidableEq

/-- A statement of a request.  What is not its next one does nothing. -/
def userAct (users : Users) : UserProgress → UserAction → Users × UserProgress
  | .idle, .find caller id change =>
    if change.valid then
      match users.lookup id with
      | none => (users, .answered (.error .notFound))
      | some target =>
        if id = caller then (users, .answered (.error .invalidRequest))
        else if change.guards target then (users, .counting id change target)
        else (users, .writing id change target none)
    else (users, .answered (.error .invalidRequest))
  | .counting id change target, .count =>
    let count := countActiveAdmins users
    if count ≤ 1 then (users, .answered (.error .lastAdminProtected))
    else (users, .writing id change target (some count))
  | .writing id change _ _, .write =>
    ((change.write users id).2, .answered (change.write users id).1)
  | progress, _ => (users, progress)

end LiteAIG.Identity
