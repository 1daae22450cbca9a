/-
Jobs that one process is to run at a time.

The table of leases has one row per scope.  A process takes the row if there is none
or its time is over, and extends it while it is its own.  `singletonTask.run` calls
the job after each of the two, waits, and starts over; nothing is extended while the
job runs.  The clock is read before the statement is sent, so both are steps of their
own, and other processes may come in between.  The processes share the clock; times
are nanoseconds.
-/
import LiteAIG.Lib.Assoc
import LiteAIG.Lib.Text
import LiteAIG.Lib.Threads

namespace LiteAIG.Coordination

open Lib

structure LeaseRow where
  leaseID : String
  expiresAt : Int

/-- The rows by scope. -/
abbrev LeaseTable := Assoc String LeaseRow

namespace LeaseTable

/-- The statement of `Acquire`; whether it affected a row. -/
def acquire (rows : LeaseTable) (scope leaseID : String) (ttl now : Int) : Bool × LeaseTable :=
  match rows.lookup scope with
  | some row =>
    if row.expiresAt < now then (true, rows.insert scope ⟨leaseID, now + ttl⟩) else (false, rows)
  | none => (true, rows.insert scope ⟨leaseID, now + ttl⟩)

/-- The statement of `Renew`. -/
def renew (rows : LeaseTable) (scope leaseID : String) (ttl now : Int) : Bool × LeaseTable :=
  match rows.lookup scope with
  | some row =>
    if row.leaseID = leaseID ∧ row.expiresAt > now then
      (true, rows.insert scope { row with expiresAt := now + ttl })
    else (false, rows)
  | none => (false, rows)

/-- The statement of `Release`. -/
def release (rows : LeaseTable) (scope leaseID : String) : LeaseTable :=
  match rows.lookup scope with
  | some row => if row.leaseID = leaseID then rows.erase scope else rows
  | none => rows

end LeaseTable

/-- The hexadecimal text of what `rand.Read` filled in. -/
def coordinationLeaseID (random : Except String (List UInt8)) : Except String String :=
  random.map fun value => String.ofList (hexEncode value)

structure SingletonTask where
  scope : String
  ttl : Int

def singletonLeaseTTL : Int := 30 * 1000000000

def platformSweeperScope : String := "platform:sweeper"

/-- Where a process is in `run`.  The time its lease ends is in the row only; it is kept here for
the statements about it. -/
inductive Progress
  /-- At the top of the loop, not the holder. -/
  | idle
  /-- `Acquire` has drawn an id and read the clock. -/
  | acquiring (leaseID : String) (now : Int)
  /-- The lease was acquired or renewed, and the job is next. -/
  | granted (leaseID : String) (expiresAt : Int)
  | running (leaseID : String) (expiresAt : Int)
  /-- At the top of the loop, as the holder. -/
  | holding (leaseID : String)
  /-- `Renew` has read the clock. -/
  | renewing (leaseID : String) (now : Int)
  | stopped
  deriving DecidableEq

inductive Action
  /-- `Acquire`, up to its statement. -/
  | acquire (random : Except String (List UInt8))
  /-- `Renew`, up to its statement. -/
  | renew
  /-- The statement of either. -/
  | execute (fault : Option Fault)
  /-- The job is called. -/
  | start
  /-- The job returns. -/
  | finish
  /-- The context is done while the process waits. -/
  | stop (fault : Option Fault)
  /-- Time passes. -/
  | tick (elapsed : Nat)

structure Platform where
  rows : LeaseTable
  clock : Int
  /-- The ids that were drawn.  Nothing reads them. -/
  drawn : List String

/-- What the caller of a statement is told, and the rows it leaves. -/
def settle (fault : Option Fault) (rows : LeaseTable) (done : Bool × LeaseTable) :
    Option Bool × LeaseTable :=
  match fault with
  | none => (some done.1, done.2)
  | some .unconfirmed => (none, done.2)
  | some .refused => (none, rows)

def act (task : SingletonTask) (s : Platform) (t : Progress) (a : Action) : Platform × Progress :=
  match t, a with
  | .idle, .acquire random =>
    if task.ttl ≤ 0 then (s, .idle)
    else
      match coordinationLeaseID random with
      | .error _ => (s, .idle)
      | .ok id => ({ s with drawn := id :: s.drawn }, .acquiring id s.clock)
  | .acquiring id now, .execute fault =>
    match settle fault s.rows (s.rows.acquire task.scope id task.ttl now) with
    | (some true, rows) => ({ s with rows }, .granted id (now + task.ttl))
    | (_, rows) => ({ s with rows }, .idle)
  | .granted id expiresAt, .start => (s, .running id expiresAt)
  | .running id _, .finish => (s, .holding id)
  | .holding id, .renew =>
    if task.ttl ≤ 0 then (s, .idle) else (s, .renewing id s.clock)
  | .renewing id now, .execute fault =>
    match settle fault s.rows (s.rows.renew task.scope id task.ttl now) with
    | (some true, rows) => ({ s with rows }, .granted id (now + task.ttl))
    | (some false, rows) => ({ s with rows }, .idle)
    | (none, rows) => ({ s with rows }, .holding id)
  | .holding id, .stop fault =>
    ({ s with rows := (settle fault s.rows (true, s.rows.release task.scope id)).2 }, .stopped)
  | .idle, .stop _ => (s, .stopped)
  | t, .tick elapsed => ({ s with clock := s.clock + elapsed }, t)
  | t, _ => (s, t)

end LiteAIG.Coordination
