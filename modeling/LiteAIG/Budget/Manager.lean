/-
The in-process budget manager, and the policy a request brings to it.

A policy has one ledger at a time, opened for one window start.  A request for
another window start retires the ledger and opens a new one; the retired ledger
stays for a while so that requests in flight can still settle.  Times are
nanoseconds since the zero time, and amounts are exact integers.
-/
import LiteAIG.Lib.Assoc
import LiteAIG.Lib.Int64

namespace LiteAIG.Budget

open Lib

/-- `Policy.Mode`; `other` is any text but the two it may be. -/
inductive Mode
  | hard | soft | other
  deriving DecidableEq

/-- `Policy.Consistency`; `none` is the empty text, `other` a text the slices do not know. -/
inductive Consistency
  | none | regional | globalSoft | globalHard | other
  deriving DecidableEq

structure Policy where
  (id tenantID projectID keyID : String)
  mode : Mode
  consistency : Consistency
  (tokenLimit windowStart windowEnd : Int)
  deriving DecidableEq

structure Reservation where
  (id policyID : String)
  estimatedTokens : Int
  warning : Bool
  deriving DecidableEq

inductive BudgetError
  | invalidReservation
  | exceeded
  | negativeActual
  | reservationNotFound
  deriving DecidableEq

structure ReservationState where
  estimate : Int
  final : Bool
  deriving DecidableEq

/-- The ledger of one window. -/
structure Window where
  (start reserved consumed : Int)
  reservations : Assoc String ReservationState
  deriving DecidableEq

def Window.open (start : Int) : Window := ⟨start, 0, 0, .empty⟩

structure RetiredWindow where
  state : Window
  retiredAt : Int
  deriving DecidableEq

structure Manager where
  windows : Assoc String Window
  retired : Assoc String RetiredWindow
  lastSweep : Int
  deriving DecidableEq

def sweepInterval : Int := 60 * 1000000000

def retireGrace : Int := 60 * 1000000000

def Manager.new (now : Int) : Manager := ⟨.empty, .empty, now⟩

/-- The ledger without its final reservations. -/
def Window.prune (w : Window) : Window :=
  { w with reservations := w.reservations.filter fun r => !r.final }

variable (m : Manager)

/-- Prune the ledgers and drop what was retired long enough ago, once per interval. -/
def Manager.sweepLocked (now : Int) : Manager :=
  if now - m.lastSweep < sweepInterval then m
  else
    { windows := m.windows.map Window.prune
      retired := m.retired.filter fun r => decide (¬ now - r.retiredAt > retireGrace)
      lastSweep := now }

/-! ### Reserving -/

variable (policy : Policy)

/-- What `Reserve` checks before it takes the lock, with the clock at `now`. -/
def Policy.admissible (id : String) (estimate now : Int) : Bool :=
  !(id = "" || estimate < 0 || policy.tokenLimit < 0 || policy.mode = .other ||
    !(now < policy.windowEnd) || now < policy.windowStart)

/-- The policy's ledger for its window start, opened if it has another or none. -/
def Manager.ledger (now : Int) : Window × Manager :=
  let fresh := Window.open policy.windowStart
  match m.windows.lookup policy.id with
  | some state =>
    if state.start = policy.windowStart then (state, m)
    else
      (fresh, { m with
        windows := m.windows.insert policy.id fresh
        retired := m.retired.insert policy.id ⟨state, now⟩ })
  | none => (fresh, { m with windows := m.windows.insert policy.id fresh })

/-- What `Reserve` does under the lock. -/
def Manager.reserveLocked (id : String) (estimate now : Int) :
    Except BudgetError Reservation × Manager :=
  let (state, m) := (m.sweepLocked now).ledger policy now
  match state.reservations.lookup id with
  | some existing =>
    (.ok ⟨id, policy.id, existing.estimate,
      policy.mode = .soft && policy.tokenLimit < state.reserved + state.consumed⟩, m)
  | none =>
    let projected := state.reserved + state.consumed + estimate
    if policy.mode = .hard && policy.tokenLimit < projected then (.error .exceeded, m)
    else
      let state := { state with
        reserved := state.reserved + estimate
        reservations := state.reservations.insert id ⟨estimate, false⟩ }
      (.ok ⟨id, policy.id, estimate, policy.mode = .soft && policy.tokenLimit < projected⟩,
        { m with windows := m.windows.insert policy.id state })

def Manager.reserve (id : String) (estimate now : Int) :
    Except BudgetError Reservation × Manager :=
  if policy.admissible id estimate now then m.reserveLocked policy id estimate now
  else (.error .invalidReservation, m)

/-- What `Reserve` does under the lock, with every sum put through `round`: `wrap64` is what the
machine computes. -/
def Manager.reserveLockedWith (round : Int → Int) (m : Manager) (policy : Policy) (id : String)
    (estimate now : Int) : Except BudgetError Reservation × Manager :=
  let (state, m) := (m.sweepLocked now).ledger policy now
  let used := round (state.reserved + state.consumed)
  match state.reservations.lookup id with
  | some existing =>
    (.ok ⟨id, policy.id, existing.estimate, policy.mode = .soft && policy.tokenLimit < used⟩, m)
  | none =>
    let projected := round (used + estimate)
    if policy.mode = .hard && policy.tokenLimit < projected then (.error .exceeded, m)
    else
      let state := { state with
        reserved := round (state.reserved + estimate)
        reservations := state.reservations.insert id ⟨estimate, false⟩ }
      (.ok ⟨id, policy.id, estimate, policy.mode = .soft && policy.tokenLimit < projected⟩,
        { m with windows := m.windows.insert policy.id state })

def Manager.reserveWith (round : Int → Int) (m : Manager) (policy : Policy) (id : String)
    (estimate now : Int) : Except BudgetError Reservation × Manager :=
  if policy.admissible id estimate now then m.reserveLockedWith round policy id estimate now
  else (.error .invalidReservation, m)

/-! ### Settling -/

/-- Where a reservation is kept. -/
inductive Place
  | current | retired
  deriving DecidableEq

variable (policyID reservationID : String)

/-- The ledger that holds the reservation: the current one first, then the retired one. -/
def Manager.ledgerFor :
    Option (Place × Window × ReservationState) :=
  let inCurrent := (m.windows.lookup policyID).bind fun state =>
    (state.reservations.lookup reservationID).map fun r => (Place.current, state, r)
  let inRetired := (m.retired.lookup policyID).bind fun retired =>
    (retired.state.reservations.lookup reservationID).map fun r => (Place.retired, retired.state, r)
  inCurrent.or inRetired

/-- Write a ledger back to its place. -/
def Manager.store (policyID : String) (state : Window) : Place → Manager
  | .current => { m with windows := m.windows.insert policyID state }
  | .retired =>
    match m.retired.lookup policyID with
    | none => m
    | some retired => { m with retired := m.retired.insert policyID { retired with state } }

/-- A ledger after one of its reservations was closed for `actual` tokens. -/
def Window.close (state : Window) (reservationID : String) (r : ReservationState) (actual : Int) :
    Window :=
  { state with
    reserved := state.reserved - r.estimate
    consumed := state.consumed + actual
    reservations := state.reservations.insert reservationID { r with final := true } }

/-- Close an open reservation, wherever it is kept, for `actual` tokens. -/
def Manager.settle (actual : Int) : Manager :=
  match m.ledgerFor policyID reservationID with
  | none => m
  | some (place, state, r) =>
    if r.final then m else m.store policyID (state.close reservationID r actual) place

def Manager.reconcile (actual : Int) :
    Except BudgetError Unit × Manager :=
  if actual < 0 then (.error .negativeActual, m)
  else
    match m.ledgerFor policyID reservationID with
    | none => (.error .reservationNotFound, m)
    | some _ => (.ok (), m.settle policyID reservationID actual)

/-- A release of what is not there, or is final, is no error. -/
def Manager.release : Manager :=
  m.settle policyID reservationID 0

/-- The zero time is long past, so the sweep is due. -/
def Manager.sweep (now : Int) : Manager :=
  { m with lastSweep := 0 }.sweepLocked now

def Manager.usage (policyID : String) : Int × Int :=
  match m.windows.lookup policyID with
  | some state => (state.reserved, state.consumed)
  | none => (0, 0)

/-! ### The caller's policy -/

/-- A budget policy of a snapshot. -/
structure PolicyItem where
  (id tenantID projectID keyID : String)
  windowHours : Int
  tokenLimit : ℚ
  mode : Mode
  consistency : Consistency
  deriving DecidableEq

/-- Who makes the request. -/
structure Caller where
  (tenantID projectID keyID : String)

/-- `Time.Truncate`: down to a multiple of the duration since the zero time. -/
def truncate (t d : Int) : Int := if d ≤ 0 then t else t - t % d

def PolicyItem.applies (item : PolicyItem) (caller : Caller) : Bool :=
  !(item.tenantID ≠ "" && item.tenantID ≠ caller.tenantID) &&
  !(item.projectID ≠ "" && item.projectID ≠ caller.projectID) &&
  !(item.keyID ≠ "" && item.keyID ≠ caller.keyID) &&
  !(item.windowHours * (3600 * 1000000000) ≤ 0)

/-- A policy for a key counts more than one for a project, and that more than a tenant's. -/
def PolicyItem.score (item : PolicyItem) : Int :=
  (if item.projectID ≠ "" then 1 else 0) + (if item.keyID ≠ "" then 2 else 0)

def PolicyItem.at (item : PolicyItem) (now : Int) : Policy :=
  let duration := item.windowHours * (3600 * 1000000000)
  let windowStart := truncate now duration
  ⟨item.id, item.tenantID, item.projectID, item.keyID, item.mode, item.consistency,
    truncToInt item.tokenLimit, windowStart, windowStart + duration⟩

/-- The policy for this caller: of those that apply, the last with the highest score. -/
def budgetPolicyFor (items : List PolicyItem) (caller : Caller) (now : Int) : Option Policy :=
  let step : Option Policy × Int → PolicyItem → Option Policy × Int := fun best item =>
    if !item.applies caller || item.score < best.2 then best else (some (item.at now), item.score)
  (items.foldl step (none, -1)).1

end LiteAIG.Budget
