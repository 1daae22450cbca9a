/-
The token meter: a fixed window of one minute for each scope.

A request reserves an estimate before it calls a provider and reconciles it to the
actual usage afterwards.  The ledger of a scope is one bucket, opened anew by the
first reservation of a minute.  What a caller passes to `Reconcile` is the scope and
the two amounts, and not the minute it reserved in.  Times are nanoseconds since the
Unix epoch, in UTC.
-/
import LiteAIG.Lib.Assoc
import LiteAIG.Lib.Calendar

namespace LiteAIG.Rate

open Lib

def minute : Nat := 60 * 1000000000

def hour : Nat := 60 * minute

def day : Nat := 24 * hour

/-- The date of a time; the epoch is day 719162 of the calendar. -/
def date (t : Nat) : Int × Int × Int := civil (719162 + (t / day : Nat))

/-- The same date (for the source: year and day of the year), hour and minute. -/
def sameMinute (a b : Nat) : Bool :=
  date a = date b ∧ a / hour % 24 = b / hour % 24 ∧ a / minute % 60 = b / minute % 60

def nextMinute (now : Nat) : Nat := (now / minute + 1) * minute

structure TPMDecision where
  allowed : Bool
  retryAfter : Nat

/-- The contract of a meter.  `limit` is what the policy answers for the scope; the index that
`reserve` returns is -1 where nothing was put on the ledger. -/
class TPM (σ : Type) where
  reserve : (limit : Int) → (tenantID projectID : String) → (estimated : Int) → (now : Nat) →
    σ → (TPMDecision × Int) × σ
  reconcile : (tenantID projectID : String) → (estimated actual : Int) → (now : Nat) → σ → σ

/-- The ledger of a scope; the amounts are of any kind of integers. -/
structure TPMBucket (ι : Type) where
  window : Nat
  used : ι

structure Meter (ι : Type) where
  scopes : Assoc String (TPMBucket ι)

def Meter.new {ι : Type} : Meter ι := ⟨.empty⟩

def scopeKey (tenantID projectID : String) : String := tenantID ++ ":" ++ projectID

section

variable {ι : Type} [Add ι] [Sub ι] [OfNat ι 0] [LT ι] [DecidableLT ι] [LE ι] [DecidableLE ι]

/-- The bucket of the current minute, if the scope has one. -/
def Meter.current (m : Meter ι) (tenantID projectID : String) (now : Nat) :
    Option (TPMBucket ι) :=
  (m.scopes.lookup (scopeKey tenantID projectID)).filter fun state => sameMinute state.window now

def Meter.reserve (m : Meter ι) (limit : ι) (tenantID projectID : String) (estimated : ι)
    (now : Nat) : (TPMDecision × Int) × Meter ι :=
  if limit ≤ 0 ∨ estimated ≤ 0 then ((⟨true, 0⟩, -1), m)
  else
    let key := scopeKey tenantID projectID
    let state := (m.current tenantID projectID now).getD ⟨now, 0⟩
    let m := { m with scopes := m.scopes.insert key state }
    if limit < state.used + estimated then ((⟨false, nextMinute now - now⟩, -1), m)
    else
      let state := { state with used := state.used + estimated }
      let m := { m with scopes := m.scopes.insert key state }
      ((⟨true, 0⟩, m.scopes.entries.length), m)

def Meter.reconcile (m : Meter ι) (tenantID projectID : String) (estimated actual : ι) (now : Nat) :
    Meter ι :=
  if estimated ≤ 0 ∧ actual ≤ 0 then m
  else
    match m.current tenantID projectID now with
    | none => m
    | some state =>
      let used := state.used - estimated + actual
      let used := if used < 0 then 0 else used
      { m with scopes := m.scopes.insert (scopeKey tenantID projectID) { state with used } }

end

instance : TPM (Meter Int) where
  reserve limit tenantID projectID estimated now m :=
    m.reserve limit tenantID projectID estimated now
  reconcile tenantID projectID estimated actual now m :=
    m.reconcile tenantID projectID estimated actual now

end LiteAIG.Rate
