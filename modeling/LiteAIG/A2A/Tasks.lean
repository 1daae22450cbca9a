/-
The durable tasks of the outbound relay.

A row of the table is one task, found by its id or by the idempotency key it was
created for; both are unique within a tenant.  Every method of the store is one
statement, so it is one step from table to table.  The stamp of a row is in whole
seconds, which is what `CURRENT_TIMESTAMP` gives, and the cutoff a stale row is
compared with is formatted to whole seconds too.  Other times are in nanoseconds.
-/
import Mathlib

namespace LiteAIG.A2A

inductive Status
  | pending | running | completed | failed | cancelled
  deriving DecidableEq

/-- Whether a task may be claimed. -/
def Status.claimable : Status → Bool
  | .pending | .failed | .cancelled => true
  | .running | .completed => false

/-- A row.  `message` is the text that was sent, `result` the one an idempotent retry gets. -/
structure A2ATask where
  (taskID tenantID externalAgentID projectID requestID idempotencyKey : String)
  status : Status
  (message result : String)
  (hops calls attempts : Int)
  /-- In seconds. -/
  updatedAt : Int
  deriving DecidableEq

/-- What no update changes. -/
structure Fixed where
  (taskID tenantID externalAgentID projectID requestID idempotencyKey message : String)

def A2ATask.fixed (t : A2ATask) : Fixed :=
  ⟨t.taskID, t.tenantID, t.externalAgentID, t.projectID, t.requestID, t.idempotencyKey, t.message⟩

/-- A time to the second, as the database writes it. -/
def seconds (t : Int) : Int := t / 1000000000

/-- A row with another status and result. -/
def A2ATask.set (status : Status) (result : String) (now : Int) (row : A2ATask) : A2ATask :=
  { row with status, result, updatedAt := seconds now }

/-- A row with one attempt more, of so many hops and calls. -/
def A2ATask.advance (hops calls now : Int) (row : A2ATask) : A2ATask :=
  { row with
    hops := row.hops + hops
    calls := row.calls + calls
    attempts := row.attempts + 1
    updatedAt := seconds now }

inductive TaskError
  | invalidScope
  | scopeMismatch
  /-- The insert repeats a primary key. -/
  | constraint
  deriving DecidableEq

def TaskError.message : TaskError → String
  | .invalidScope => "invalid tenant scope"
  | .scopeMismatch => "resource is outside tenant scope"
  -- the driver's own text
  | .constraint => "UNIQUE constraint failed: a2a_tasks.tenant_id, a2a_tasks.task_id"

/-- The row is the tenant's task with this id. -/
def A2ATask.Is (row : A2ATask) (tenantID taskID : String) : Prop :=
  row.tenantID = tenantID ∧ row.taskID = taskID
  deriving Decidable

/-- The row is the one that has the tenant's key. -/
def A2ATask.Has (row : A2ATask) (tenantID key : String) : Prop :=
  row.tenantID = tenantID ∧ row.idempotencyKey = key
  deriving Decidable

namespace A2ATask

variable {row row' : A2ATask}

theorem is_congr (h : row'.fixed = row.fixed) {tenantID taskID : String} :
    row'.Is tenantID taskID ↔ row.Is tenantID taskID := by
  simp only [fixed, Fixed.mk.injEq] at h
  simp only [Is, h]

theorem has_congr (h : row'.fixed = row.fixed) {tenantID key : String} :
    row'.Has tenantID key ↔ row.Has tenantID key := by
  simp only [fixed, Fixed.mk.injEq] at h
  simp only [Has, h]

end A2ATask

/-- The table, with its primary key and its unique index. -/
structure A2ATaskStore where
  rows : List A2ATask
  primary : rows.Pairwise fun a b => ¬ a.Is b.tenantID b.taskID
  unique : rows.Pairwise fun a b => ¬ a.Has b.tenantID b.idempotencyKey

namespace A2ATaskStore

def empty : A2ATaskStore := ⟨[], .nil, .nil⟩

/-- What an update of the rows that meet a condition does to one row. -/
def change (select : A2ATask → Bool) (set : A2ATask → A2ATask) (row : A2ATask) : A2ATask :=
  if select row then set row else row

section

variable {select : A2ATask → Bool} {set : A2ATask → A2ATask}
  (hset : ∀ row, (set row).fixed = row.fixed)

include hset

theorem fixed_change (row : A2ATask) : (change select set row).fixed = row.fixed := by
  unfold change
  split
  · exact hset row
  · rfl

/-- An update keeps the rows apart that were. -/
theorem apart_change {a b : A2ATask} (ha : ¬ a.Is b.tenantID b.taskID)
    (hb : ¬ a.Has b.tenantID b.idempotencyKey) :
    ¬ (change select set a).Is (change select set b).tenantID (change select set b).taskID ∧
      ¬ (change select set a).Has (change select set b).tenantID
        (change select set b).idempotencyKey := by
  have hfixed : (change select set b).fixed = b.fixed := fixed_change hset b
  simp only [A2ATask.fixed, Fixed.mk.injEq] at hfixed
  rw [A2ATask.is_congr (fixed_change hset a), A2ATask.has_congr (fixed_change hset a)]
  simp only [hfixed]
  exact ⟨ha, hb⟩

end

variable (s : A2ATaskStore)

def update (select : A2ATask → Bool) (set : A2ATask → A2ATask)
    (hset : ∀ row, (set row).fixed = row.fixed) : A2ATaskStore where
  rows := s.rows.map (change select set)
  primary := List.pairwise_map.mpr
    ((s.primary.and s.unique).imp fun h => (apart_change hset h.1 h.2).1)
  unique := List.pairwise_map.mpr
    ((s.primary.and s.unique).imp fun h => (apart_change hset h.1 h.2).2)

/-- A row beside the others. -/
def insert (task : A2ATask) (hid : ∀ row ∈ s.rows, ¬ row.Is task.tenantID task.taskID)
    (hkey : ∀ row ∈ s.rows, ¬ row.Has task.tenantID task.idempotencyKey) : A2ATaskStore where
  rows := s.rows ++ [task]
  primary := List.pairwise_append.mpr
    ⟨s.primary, List.pairwise_singleton .., fun row hrow other hother => by
      rw [List.mem_singleton.mp hother]
      exact hid row hrow⟩
  unique := List.pairwise_append.mpr
    ⟨s.unique, List.pairwise_singleton .., fun row hrow other hother => by
      rw [List.mem_singleton.mp hother]
      exact hkey row hrow⟩

/-! ### The methods -/

variable (tenantID : String)

/-- `TenantScope.Validate`. -/
def validate : Except TaskError Unit :=
  if tenantID = "" then .error .invalidScope else .ok ()

/-- Record a task.  One that has the key wins, and the insert does nothing. -/
def create (task : A2ATask) (now : Int) :
    Except TaskError A2ATaskStore := do
  validate tenantID
  if task.tenantID ≠ tenantID then throw .scopeMismatch
  let task := { task with result := "", updatedAt := seconds now }
  if hkey : ∀ row ∈ s.rows, ¬ row.Has task.tenantID task.idempotencyKey then
    if hid : ∀ row ∈ s.rows, ¬ row.Is task.tenantID task.taskID then return s.insert task hid hkey
    else throw .constraint
  else return s

variable (tenantID taskID : String)

def getByTask : Except TaskError (Option A2ATask) := do
  validate tenantID
  return s.rows.find? fun row => row.Is tenantID taskID

def getByIdempotency (tenantID key : String) :
    Except TaskError (Option A2ATask) := do
  validate tenantID
  return s.rows.find? fun row => row.Has tenantID key

/-- The row of a task, if it meets a condition. -/
def selects (cond : A2ATask → Bool) (row : A2ATask) : Bool :=
  row.Is tenantID taskID ∧ cond row

/-- Whether a row has room for so many hops and calls more. -/
def room (hops calls maxHops maxCalls : Int) (row : A2ATask) : Bool :=
  row.hops + hops ≤ maxHops ∧ row.calls + calls ≤ maxCalls

/-- Count an attempt with its hops and calls, unless that goes over a limit. -/
def advanceCounters (hops calls maxHops maxCalls : Int) (now : Int) :
    Except TaskError (Bool × A2ATaskStore) := do
  validate tenantID
  let select := selects tenantID taskID (room hops calls maxHops maxCalls)
  return (s.rows.any select, s.update select (A2ATask.advance hops calls now) fun _ => rfl)

/-- Claim a task that nobody has.  The cutoff is not looked at. -/
def tryStart (_staleBefore now : Int) :
    Except TaskError (Bool × A2ATaskStore) := do
  validate tenantID
  let select := selects tenantID taskID fun row => row.status.claimable
  return (s.rows.any select, s.update select (A2ATask.set .running "" now) fun _ => rfl)

/-- A row of the tenant that is running and was last touched before the cutoff. -/
def stale (staleBefore : Int) (row : A2ATask) : Bool :=
  row.tenantID = tenantID ∧ row.status = .running ∧ row.updatedAt < seconds staleBefore

/-- Give up the tasks that were left running. -/
def reapStaleRunning (staleBefore now : Int) :
    Except TaskError (Nat × A2ATaskStore) := do
  validate tenantID
  let select := stale tenantID staleBefore
  return (s.rows.countP select, s.update select (A2ATask.set .failed "" now) fun _ => rfl)

/-- Set a task's status and result, whatever they are. -/
def setStatusResult (status : Status) (result : String) (now : Int) :
    Except TaskError A2ATaskStore := do
  validate tenantID
  return s.update (selects tenantID taskID fun _ => true) (A2ATask.set status result now)
    fun _ => rfl

end A2ATaskStore

end LiteAIG.A2A
