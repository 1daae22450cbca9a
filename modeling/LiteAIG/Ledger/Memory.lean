/-
The budget ledger contract, and the ledger one process keeps for itself.

A reservation names windows and an estimate; each window is a counter with a
limit.  Amounts are exact numbers.  Every call holds the ledger's lock from its
first read to its last write, so a call is one step from ledger to ledger.
-/
import Mathlib

namespace LiteAIG.Ledger

/-- One counter that a reservation must respect; durations are nanoseconds. -/
structure BudgetWindow where
  key : String
  limit : ℚ
  ttl : Int

structure ReserveRequest where
  (tenantID reservationID : String)
  estimate : ℚ
  windows : List BudgetWindow

structure ReserveResult where
  reserved : Bool
  /-- Admitted by a fail-open policy while the ledger was unavailable. -/
  degraded : Bool

inductive LedgerError
  | invalidReserveRequest
  | invalidBudgetWindow
  | reservationNotFound
  | alreadyFinalized
  | ledgerUnavailable
  deriving DecidableEq

/-- The check both ledgers make of a window of the request. -/
def BudgetWindow.invalid (w : BudgetWindow) : Bool := w.key = "" || w.limit < 0

/-- The answer of `Reserve`: admitted or not, an error being not admitted. -/
def admitted : Except LedgerError ReserveResult → Bool
  | .ok result => result.reserved
  | .error _ => false

/-- The `BudgetLedger` contract, for ledgers with states of type `σ`. -/
class BudgetLedger (σ : Type) where
  reserve : ReserveRequest → σ → Except LedgerError ReserveResult × σ
  reconcile : String → String → ℚ → σ → Except LedgerError Unit × σ
  release : String → String → σ → Except LedgerError Unit × σ
  sweep : String → Int → σ → (Nat × Option LedgerError) × σ

/-! ### The in-memory ledger -/

structure MemoryReservation where
  estimate : ℚ
  windows : List String
  final : Bool

/-- Counters and reservations, each by tenant. -/
structure MemoryBudgetLedger where
  windows : String → String → Option ℚ
  reservations : String → String → Option MemoryReservation

def MemoryBudgetLedger.new : MemoryBudgetLedger := ⟨fun _ _ => none, fun _ _ => none⟩

/-- A tenant's counters; a missing one reads as zero. -/
def addTo (amount : ℚ) (tenant : String → Option ℚ) (key : String) : String → Option ℚ :=
  Function.update tenant key (some ((tenant key).getD 0 + amount))

/-- Check the windows in order: the keys to charge, or nothing when one would be exceeded. -/
def checkWindows (tenant : String → Option ℚ) (estimate : ℚ) :
    List BudgetWindow → Except LedgerError (Option (List String))
  | [] => .ok (some [])
  | window :: rest =>
    if window.invalid then .error .invalidBudgetWindow
    else if (tenant window.key).getD 0 + estimate > window.limit then .ok none
    else (checkWindows tenant estimate rest).map (Option.map (window.key :: ·))

variable (m : MemoryBudgetLedger)

def MemoryBudgetLedger.reserve (req : ReserveRequest) :
    Except LedgerError ReserveResult × MemoryBudgetLedger :=
  if req.reservationID = "" ∨ req.estimate < 0 then (.error .invalidReserveRequest, m)
  else
    let tenant := m.windows req.tenantID
    match checkWindows tenant req.estimate req.windows with
    | .error err => (.error err, m)
    | .ok none => (.ok ⟨false, false⟩, m)
    | .ok (some keys) =>
      let reservation : MemoryReservation := ⟨req.estimate, keys, false⟩
      (.ok ⟨true, false⟩,
        { windows := Function.update m.windows req.tenantID
            (keys.foldl (addTo req.estimate) tenant)
          reservations := Function.update m.reservations req.tenantID
            (Function.update (m.reservations req.tenantID) req.reservationID
              (some reservation)) })

variable (tenantID reservationID : String)

/-- An open reservation of the tenant. -/
def MemoryBudgetLedger.reservation :
    Except LedgerError MemoryReservation :=
  match m.reservations tenantID reservationID with
  | none => .error .reservationNotFound
  | some r => if r.final then .error .alreadyFinalized else .ok r

/-- Charge the reservation's windows and close it. -/
def MemoryBudgetLedger.settle (delta : ℚ → ℚ) :
    Except LedgerError Unit × MemoryBudgetLedger :=
  match m.reservation tenantID reservationID with
  | .error err => (.error err, m)
  | .ok r =>
    (.ok (),
      { windows := Function.update m.windows tenantID
          (r.windows.foldl (addTo (delta r.estimate)) (m.windows tenantID))
        reservations := Function.update m.reservations tenantID
          (Function.update (m.reservations tenantID) reservationID
            (some { r with final := true })) })

def MemoryBudgetLedger.reconcile (actual : ℚ) :
    Except LedgerError Unit × MemoryBudgetLedger :=
  m.settle tenantID reservationID fun estimate => actual - estimate

def MemoryBudgetLedger.release :
    Except LedgerError Unit × MemoryBudgetLedger :=
  m.settle tenantID reservationID fun estimate => -estimate

/-- The process owns its state, so there is nothing to sweep. -/
def MemoryBudgetLedger.sweep (_tenantID : String) (_limit : Int) :
    (Nat × Option LedgerError) × MemoryBudgetLedger :=
  ((0, none), m)

instance : BudgetLedger MemoryBudgetLedger where
  reserve req m := m.reserve req
  reconcile tenantID reservationID actual m := m.reconcile tenantID reservationID actual
  release tenantID reservationID m := m.release tenantID reservationID
  sweep tenantID limit m := m.sweep tenantID limit

end LiteAIG.Ledger
