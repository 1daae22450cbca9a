/-
The budget enforcer: up to three ledgers behind one reservation.

The in-process manager always decides first.  With a distributed ledger attached,
the policy's window is then reserved there, under the policy's fail mode.  A policy
with a consistency mode is last admitted on a slice, a counter that is meant to
follow the manager's total.  A step that refuses undoes the manager's hold.
-/
import LiteAIG.Lib.Calendar
import LiteAIG.Budget.Manager
import LiteAIG.Ledger.Redis

namespace LiteAIG.Budget

open Lib Ledger

/-! ### Slices -/

inductive SliceError
  | overshoot
  | notFound
  deriving DecidableEq

structure SliceCounter where
  (strict used : ℚ)

/-- The slices of one window, by region. -/
structure SliceAuthority where
  window : String
  /-- Strict, with no overshoot. -/
  regional : Bool
  slices : Assoc String SliceCounter

def SliceAuthority.new (window : String) (regional : Bool) : SliceAuthority :=
  ⟨window, regional, .empty⟩

/-- `consistencyMode` and `ForMode`: only `global_soft` may overshoot. -/
def SliceAuthority.forMode (window : String) (consistency : Consistency) : SliceAuthority :=
  .new window (consistency ≠ .globalSoft)

variable (a : SliceAuthority) (region : String)

/-- A region's counter, opened with this limit if it has none. -/
def SliceAuthority.counter (strict : ℚ) : SliceCounter :=
  (a.slices.lookup region).getD ⟨strict, 0⟩

def SliceAuthority.bound (slice : SliceCounter) (overshoot : ℚ) : ℚ :=
  if a.regional then slice.strict else slice.strict + overshoot

def SliceAuthority.admit (amount strict overshoot : ℚ) :
    Except SliceError Unit × SliceAuthority :=
  let slice := a.counter region strict
  if slice.used + amount > a.bound slice overshoot then
    (.error .overshoot, { a with slices := a.slices.insert region slice })
  else
    (.ok (),
      { a with slices := a.slices.insert region { slice with used := slice.used + amount } })

structure ReconcileEvent where
  (windowKey region : String)
  adjusted : ℚ

def SliceAuthority.reconcile (trueUsed : ℚ) :
    Except SliceError ReconcileEvent × SliceAuthority :=
  match a.slices.lookup region with
  | none => (.error .notFound, a)
  | some slice =>
    (.ok ⟨a.window, region, trueUsed⟩,
      { a with slices := a.slices.insert region { slice with used := trueUsed } })

structure SliceState where
  region : String
  (used strict : ℚ)
  overshot : Bool

def SliceAuthority.state : Option SliceState :=
  (a.slices.lookup region).map fun slice =>
    ⟨region, slice.used, slice.strict, slice.strict < slice.used⟩

/-! ### Fail modes -/

/-- What to do when the distributed ledger is unavailable. -/
inductive FailMode
  | failClosed | failOpen
  deriving DecidableEq

structure Alert where
  (kind message : String)

variable {σ : Type} [BudgetLedger σ]

/-- `FailModeLedger.Reserve`, with the alert it raises. -/
def failModeReserve (mode : FailMode) (req : ReserveRequest) (ledger : σ) :
    Except LedgerError ReserveResult × Option Alert × σ :=
  match BudgetLedger.reserve req ledger with
  | (.error .ledgerUnavailable, ledger) =>
    match mode with
    | .failClosed =>
      (.error .ledgerUnavailable,
        some ⟨"budget.fail_closed", "hard budget ledger unavailable"⟩, ledger)
    | .failOpen =>
      (.ok ⟨true, true⟩,
        some ⟨"budget.fail_open",
          "soft budget ledger unavailable; proceeding without enforcement"⟩, ledger)
  | (result, ledger) => (result, none, ledger)

/-! ### The enforcer -/

structure SliceEntry where
  authority : SliceAuthority
  windowStart : Int

inductive EnforcerError
  | budget (err : BudgetError)
  | ledger (err : LedgerError)
  | slice (err : SliceError)
  deriving DecidableEq

structure BudgetEnforcer (σ : Type) where
  manager : Manager
  distributed : Option σ
  /-- The alerts raised so far. -/
  alerts : List Alert
  slices : Assoc String SliceEntry
  tenantByPolicy : Assoc String String

def sliceRegion : String := "global"

def defaultSliceOvershootRatio : ℚ := 1 / 10

def budgetSweepLimit : Int := 500

def BudgetEnforcer.new (manager : Manager) : BudgetEnforcer σ :=
  ⟨manager, none, [], .empty, .empty⟩

variable (e : BudgetEnforcer σ)

def BudgetEnforcer.withDistributedLedger (ledger : σ) : BudgetEnforcer σ :=
  { e with distributed := some ledger }

def BudgetEnforcer.recordTenant (policyID tenantID : String) :
    BudgetEnforcer σ :=
  if policyID = "" ∨ tenantID = "" then e
  else { e with tenantByPolicy := e.tenantByPolicy.insert policyID tenantID }

variable (policyID : String)

def BudgetEnforcer.tenantFor : String :=
  (e.tenantByPolicy.lookup policyID).getD ""

/-- A number with leading zeros, the sign before them. -/
def padded (width : Nat) (n : Int) : String :=
  let digits := toString n.natAbs
  (if n < 0 then "-" else "") ++
    String.ofList (List.replicate (width - digits.length) '0') ++ digits

/-- `Format("20060102150405")` of a time in UTC. -/
def formatStart (t : Int) : String :=
  let seconds := t / 1000000000
  let (year, month, day) := civil (seconds / 86400)
  let ofDay := seconds % 86400
  padded 4 year ++ padded 2 month ++ padded 2 day ++
    padded 2 (ofDay / 3600) ++ padded 2 (ofDay / 60 % 60) ++ padded 2 (ofDay % 60)

-- 29 February 2024, 23:59:59
example : formatStart (63844847999 * 1000000000) = "20240229235959" := by decide +kernel

variable (policy : Policy)

def distributedWindows : List BudgetWindow :=
  let ttl := policy.windowEnd - policy.windowStart
  [⟨"\x7btenant:" ++ policy.tenantID ++ "\x7d:budget:" ++ policy.id ++ ":" ++
      formatStart policy.windowStart,
    policy.tokenLimit, if ttl < 1000000000 then 3600 * 1000000000 else ttl⟩]

def distributedRequest (id : String) (estimate : Int) : ReserveRequest :=
  ⟨policy.tenantID, id, estimate, distributedWindows policy⟩

/-- A hard policy fails closed; a soft one goes on without the ledger. -/
def Policy.failMode : FailMode :=
  if policy.mode = .soft then .failOpen else .failClosed

/-- The distributed part of `Reserve`: the error to return, if any. -/
def BudgetEnforcer.reserveDistributed (id : String) (estimate : Int) :
    Except EnforcerError Unit × BudgetEnforcer σ :=
  match e.distributed with
  | none => (.ok (), e)
  | some ledger =>
    let (result, alert, ledger) :=
      failModeReserve policy.failMode (distributedRequest policy id estimate) ledger
    let e := { e with distributed := some ledger, alerts := e.alerts ++ alert.toList }
    match result with
    | .error err => (.error (.ledger err), e)
    | .ok result => if result.reserved then (.ok (), e) else (.error (.budget .exceeded), e)

/-- The policy's slices, opened anew when it has none or has those of another window. -/
def BudgetEnforcer.authorityFor :
    SliceAuthority × BudgetEnforcer σ :=
  let fresh := SliceAuthority.forMode policy.id policy.consistency
  let opened := { e with slices := e.slices.insert policy.id ⟨fresh, policy.windowStart⟩ }
  match e.slices.lookup policy.id with
  | none => (fresh, opened)
  | some entry =>
    if entry.windowStart = policy.windowStart then (entry.authority, e) else (fresh, opened)

/-- The authority is shared: what is done to it is seen in the entry. -/
def BudgetEnforcer.setAuthority (authority : SliceAuthority) :
    BudgetEnforcer σ :=
  match e.slices.lookup policyID with
  | none => e
  | some entry => { e with slices := e.slices.insert policyID { entry with authority } }

def Policy.overshoot : ℚ :=
  if policy.consistency = .globalSoft then policy.tokenLimit * defaultSliceOvershootRatio else 0

/-- The slice part of `Reserve`. -/
def BudgetEnforcer.admitSlice (estimate : Int) :
    Except SliceError Unit × BudgetEnforcer σ :=
  if policy.consistency = .none then (.ok (), e)
  else
    let (authority, e) := e.authorityFor policy
    let (result, authority) :=
      authority.admit sliceRegion estimate policy.tokenLimit policy.overshoot
    (result, e.setAuthority policy.id authority)

def BudgetEnforcer.reserve (id : String) (estimate now : Int) :
    Except EnforcerError Reservation × BudgetEnforcer σ :=
  let e := e.recordTenant policy.id policy.tenantID
  match e.manager.reserve policy id estimate now with
  | (.error err, manager) => (.error (.budget err), { e with manager })
  | (.ok reserved, manager) =>
    match { e with manager }.reserveDistributed policy id estimate with
    | (.error err, e) => (.error err, { e with manager := e.manager.release policy.id id })
    | (.ok (), e) =>
      match e.admitSlice policy estimate with
      | (.error err, e) =>
        (.error (.slice err), { e with manager := e.manager.release policy.id id })
      | (.ok (), e) => (.ok reserved, e)

def BudgetEnforcer.usage : Int × Int :=
  e.manager.usage policyID

/-- The use of the region's slice; one that was never opened has none. -/
def SliceAuthority.used : ℚ :=
  ((a.state sliceRegion).map SliceState.used).getD 0

def BudgetEnforcer.sliceUsed : ℚ :=
  ((e.slices.lookup policyID).map fun entry => entry.authority.used).getD 0

/-- Set the policy's slice to the manager's total. -/
def BudgetEnforcer.syncSlice : BudgetEnforcer σ :=
  match e.slices.lookup policyID with
  | none => e
  | some entry =>
    let (reserved, consumed) := e.manager.usage policyID
    e.setAuthority policyID
      (entry.authority.reconcile sliceRegion ((reserved + consumed : Int) : ℚ)).2

/-- Settle a reservation on the distributed ledger; what it answers is not looked at. -/
def BudgetEnforcer.settleDistributed (settle : String → σ → Except LedgerError Unit × σ) :
    BudgetEnforcer σ :=
  if e.tenantFor policyID = "" then e
  else { e with distributed := e.distributed.map fun ledger =>
    (settle (e.tenantFor policyID) ledger).2 }

def BudgetEnforcer.reconcile (policyID reservationID : String) (actual : Int) :
    Except BudgetError Unit × BudgetEnforcer σ :=
  match e.manager.reconcile policyID reservationID actual with
  | (.error err, manager) => (.error err, { e with manager })
  | (.ok (), manager) =>
    let e := { e with manager }.settleDistributed policyID fun tenantID =>
      BudgetLedger.reconcile tenantID reservationID (actual : ℚ)
    (.ok (), e.syncSlice policyID)

def BudgetEnforcer.release (policyID reservationID : String) :
    BudgetEnforcer σ :=
  let e := { e with manager := e.manager.release policyID reservationID }.settleDistributed policyID
    fun tenantID => BudgetLedger.release tenantID reservationID
  e.syncSlice policyID

def BudgetEnforcer.tenants : List String :=
  (e.tenantByPolicy.entries.map Prod.snd).dedup

def BudgetEnforcer.sweep (now : Int) : BudgetEnforcer σ :=
  { e with
    manager := e.manager.sweep now
    distributed := e.distributed.map fun ledger =>
      e.tenants.foldl
        (fun ledger tenantID => (BudgetLedger.sweep tenantID budgetSweepLimit ledger).2) ledger }

end LiteAIG.Budget
