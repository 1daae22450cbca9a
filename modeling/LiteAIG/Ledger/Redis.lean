/-
The budget ledger on Redis: Lua scripts over one keyspace.

A reservation is a hash that lists the windows it charged; an expiry set per
tenant orders the open reservations by when they are due.  Both carry the same
time to live, set by the same script.  Times are nanoseconds on one clock that the
ledger and the server share; the scripts see them in milliseconds.
-/
import LiteAIG.Lib.Redis
import LiteAIG.Ledger.Memory

namespace LiteAIG.Ledger

open Lib.Redis

inductive Status
  | reserved | reconciled | released | expired
  deriving DecidableEq

/-- The fields of a reservation hash: `status`, `estimate`, `wc`, and `w0`, `w1`, … -/
structure ReservationHash where
  status : Option Status
  estimate : Option ℚ
  wc : Option Nat
  w : Nat → Option String

def ReservationHash.empty : ReservationHash := ⟨none, none, none, fun _ => none⟩

abbrev Db := Keyspace String ReservationHash String

abbrev LedgerScript (α : Type) := Script String ReservationHash String α

/-- `Time.UnixMilli`. -/
def unixMilli (t : Int) : Int := t / 1000000

/-- `Duration.Milliseconds`. -/
def milliseconds (d : Int) : Int := d.tdiv 1000000

/-! ### The scripts -/

/-- Does a window that has a counter go over its limit?  One without a counter is not looked at. -/
def anyExceeded (now : Int) (estimate : ℚ) : List BudgetWindow → LedgerScript Bool
  | [] => pure false
  | window :: rest => do
    match ← get now window.key with
    | some current =>
      if current + estimate > window.limit then pure true
      else anyExceeded now estimate rest
    | none => anyExceeded now estimate rest

def chargeAll (now : Int) (estimate : ℚ) : List BudgetWindow → LedgerScript Unit
  | [] => pure ()
  | window :: rest => do
    let current ← get now window.key
    let ttl := milliseconds window.ttl
    set now window.key (current.getD 0 + estimate) (if ttl > 0 then some ttl else none)
    chargeAll now estimate rest

/-- Write the window keys into the fields from `w i` on. -/
def listWindows (now : Int) (reservation : String) : Nat → List BudgetWindow → LedgerScript Unit
  | _, [] => pure ()
  | i, window :: rest => do
    hset now .empty reservation fun h => { h with w := Function.update h.w i (some window.key) }
    listWindows now reservation (i + 1) rest

def reserveScript (now : Int) (reservation expiry reservationID : String) (estimate : ℚ)
    (expiresAt ttl : Int) (windows : List BudgetWindow) : LedgerScript Bool := do
  if ← anyExceeded now estimate windows then
    return false
  chargeAll now estimate windows
  hset now .empty reservation fun h =>
    { h with status := some .reserved, estimate := some estimate, wc := some windows.length }
  listWindows now reservation 0 windows
  zadd now expiry expiresAt reservationID
  pexpire now reservation ttl
  pexpire now expiry ttl
  return true

/-- Move the counters the reservation lists under these indices. -/
def adjust (now : Int) (reservation : String) (delta : ℚ) : List Nat → LedgerScript Unit
  | [] => pure ()
  | i :: rest => do
    match ← hget now reservation (·.w i) with
    | some key => incrByFloat now key delta
    | none => pure ()
    adjust now reservation delta rest

/-- Charge the difference to an open reservation's windows and close it. -/
def settleScript (now : Int) (reservation expiry reservationID : String) (delta : ℚ → ℚ)
    (status : Status) : LedgerScript Bool := do
  if (← hget now reservation (·.status)) ≠ some .reserved then
    return false
  let estimate := (← hget now reservation (·.estimate)).getD 0
  let wc := (← hget now reservation (·.wc)).getD 0
  adjust now reservation (delta estimate) (List.range wc)
  hset now .empty reservation fun h => { h with status := some status }
  zrem now expiry reservationID
  return true

def reconcileScript (now : Int) (reservation expiry reservationID : String) (actual : ℚ) :
    LedgerScript Bool :=
  settleScript now reservation expiry reservationID (fun estimate => actual - estimate) .reconciled

def releaseScript (now : Int) (reservation expiry reservationID : String) : LedgerScript Bool :=
  settleScript now reservation expiry reservationID (fun estimate => -estimate) .released

/-- Unlike a settlement, expiring takes the id out of the set whatever the hash says. -/
def expireScript (now : Int) (reservation expiry reservationID : String) :
    LedgerScript Bool := do
  zrem now expiry reservationID
  match ← hget now reservation (·.status) with
  | none => return false
  | some status =>
    if status = .reserved then
      let estimate := (← hget now reservation (·.estimate)).getD 0
      let wc := (← hget now reservation (·.wc)).getD 0
      adjust now reservation (-estimate) (List.range wc)
      hset now .empty reservation fun h => { h with status := some .expired }
    return true

/-! ### The ledger -/

structure RedisBudgetLedger where
  reservationTTL : Int
  ttl_pos : 0 < reservationTTL

/-- A time to live that is not positive stands for an hour. -/
def RedisBudgetLedger.new (reservationTTL : Int) : RedisBudgetLedger :=
  if h : reservationTTL ≤ 0 then ⟨3600 * 1000000000, by decide⟩
  else ⟨reservationTTL, by omega⟩

def reservationKey (tenantID reservationID : String) : String :=
  "budget:\x7btenant:" ++ tenantID ++ "\x7d" ++ ":reservation:" ++ reservationID

def expiryKey (tenantID : String) : String :=
  "budget:\x7btenant:" ++ tenantID ++ "\x7d" ++ ":reservation_expiry"

/-- `wrap`: whatever goes wrong in Redis is an unavailable ledger. -/
def wrap {α : Type} : Except Error α → Except LedgerError α
  | .ok a => .ok a
  | .error _ => .error .ledgerUnavailable

def RedisBudgetLedger.reserve (r : RedisBudgetLedger) (t : Int) (req : ReserveRequest) (db : Db) :
    Except LedgerError ReserveResult × Db :=
  if req.reservationID = "" ∨ req.estimate < 0 ∨ req.windows = [] then
    (.error .invalidReserveRequest, db)
  else if req.windows.any BudgetWindow.invalid then (.error .invalidBudgetWindow, db)
  else
    let (result, db) := reserveScript (unixMilli t)
      (reservationKey req.tenantID req.reservationID) (expiryKey req.tenantID)
      req.reservationID req.estimate (unixMilli (t + r.reservationTTL))
      (milliseconds r.reservationTTL) req.windows db
    ((wrap result).map fun reserved => ⟨reserved, false⟩, db)

/-- A settlement script's answer: anything but 1 means there was nothing open to settle. -/
def settled (result : Except Error Bool) : Except LedgerError Unit :=
  match wrap result with
  | .error err => .error err
  | .ok true => .ok ()
  | .ok false => .error .alreadyFinalized

def RedisBudgetLedger.reconcile (_ : RedisBudgetLedger) (t : Int) (tenantID reservationID : String)
    (actual : ℚ) (db : Db) : Except LedgerError Unit × Db :=
  let (result, db) := reconcileScript (unixMilli t) (reservationKey tenantID reservationID)
    (expiryKey tenantID) reservationID actual db
  (settled result, db)

def RedisBudgetLedger.release (_ : RedisBudgetLedger) (t : Int) (tenantID reservationID : String)
    (db : Db) : Except LedgerError Unit × Db :=
  let (result, db) := releaseScript (unixMilli t) (reservationKey tenantID reservationID)
    (expiryKey tenantID) reservationID db
  (settled result, db)

/-- Expire these reservations one by one; the first failure ends it. -/
def expireIds (now : Int) (tenantID : String) :
    List String → Nat → Db → (Nat × Option LedgerError) × Db
  | [], swept, db => ((swept, none), db)
  | id :: rest, swept, db =>
    match expireScript now (reservationKey tenantID id) (expiryKey tenantID) id db with
    | (.ok _, db) => expireIds now tenantID rest (swept + 1) db
    | (.error _, db) => ((swept, some .ledgerUnavailable), db)

/-- The batches of one sweep.  Each batch that goes on sweeps at least one reservation, so
`limit` rounds are enough. -/
def sweepBatches (now : Int) (tenantID : String) (limit : Nat) :
    Nat → Nat → Db → (Nat × Option LedgerError) × Db
  | 0, swept, db => ((swept, none), db)
  | rounds + 1, swept, db =>
    if swept < limit then
      match zrangeByScore now (fun a b => decide (a ≤ b)) (expiryKey tenantID) now
          (limit - swept) db with
      | (.error _, db) => ((swept, some .ledgerUnavailable), db)
      | (.ok ids, db) =>
        if ids = [] then ((swept, none), db)
        else
          match expireIds now tenantID ids swept db with
          | ((swept, some err), db) => ((swept, some err), db)
          | ((swept, none), db) =>
            if ids.length < limit - swept then ((swept, none), db)
            else sweepBatches now tenantID limit rounds swept db
    else ((swept, none), db)

/-- A limit that is not positive stands for 500. -/
def RedisBudgetLedger.sweep (_ : RedisBudgetLedger) (t : Int) (tenantID : String) (limit : Int)
    (db : Db) : (Nat × Option LedgerError) × Db :=
  let limit := if limit ≤ 0 then 500 else limit.toNat
  sweepBatches (unixMilli t) tenantID limit limit 0 db

/-! ### A ledger on a server -/

/-- The ledger with the server it talks to: its keyspace, the time, and whether it can be
reached. -/
structure RedisServer where
  ledger : RedisBudgetLedger
  now : Int
  reachable : Bool
  db : Db

/-- What the client sees of a call: no server, no answer. -/
def RedisServer.call {α : Type} (s : RedisServer) (unreached : α) (run : Db → α × Db) :
    α × RedisServer :=
  if s.reachable then
    let (answer, db) := run s.db
    (answer, { s with db })
  else (unreached, s)

/-- A request is checked before the server is asked. -/
def ReserveRequest.malformed (req : ReserveRequest) : Bool :=
  req.reservationID = "" || req.estimate < 0 || req.windows.isEmpty ||
    req.windows.any BudgetWindow.invalid

instance : BudgetLedger RedisServer where
  reserve req s :=
    if req.malformed then ((s.ledger.reserve s.now req s.db).1, s)
    else s.call (.error .ledgerUnavailable) (s.ledger.reserve s.now req)
  reconcile tenantID reservationID actual s :=
    s.call (.error .ledgerUnavailable) (s.ledger.reconcile s.now tenantID reservationID actual)
  release tenantID reservationID s :=
    s.call (.error .ledgerUnavailable) (s.ledger.release s.now tenantID reservationID)
  sweep tenantID limit s :=
    s.call (0, some .ledgerUnavailable) (s.ledger.sweep s.now tenantID limit)

end LiteAIG.Ledger
