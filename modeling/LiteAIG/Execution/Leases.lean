/-
Leases on a deployment's capacity: the in-process coordinator and the gate before it.

A scope has a map from lease ids to the times they expire.  An `Acquire` drops what
has expired, refuses if what is left fills the capacity, and otherwise stores a new id;
nothing but the clock and a `Release` takes an id out again.  Times are nanoseconds.
-/
import LiteAIG.Execution.Executor

namespace LiteAIG.Execution

open Lib

/-- What `rand.Read` fills in. -/
abbrev LeaseBytes := { bytes : List UInt8 // bytes.length = 16 }

def newLeaseID (random : Except String LeaseBytes) : Except String String :=
  random.map fun value => String.ofList (hexEncode value.1)

structure MemoryLeaseCoordinator where
  scopes : Assoc String (Assoc String Int)

namespace MemoryLeaseCoordinator

def new : MemoryLeaseCoordinator := ⟨.empty⟩

variable (m : MemoryLeaseCoordinator) (scope : String)

def leases : Assoc String Int :=
  (m.scopes.lookup scope).getD .empty

variable (leases : Assoc String Int)

/-- What is left of the leases of a scope. -/
def prune (now : Int) : Assoc String Int :=
  leases.filter fun expiry => decide (now < expiry)

/-- The maps of the scopes are changed in place. -/
def put : MemoryLeaseCoordinator :=
  ⟨m.scopes.insert scope leases⟩

def acquire (capacity ttl now : Int) (random : Except String LeaseBytes) :
    LeaseOutcome × MemoryLeaseCoordinator :=
  let leases := prune (m.leases scope) now
  if capacity ≤ leases.entries.length then (.busy, m.put scope leases)
  else
    match newLeaseID random with
    | .error error => (.failed error, m.put scope leases)
    | .ok id => (.leased id, m.put scope (leases.insert id (now + ttl)))

def release (scope leaseID : String) : MemoryLeaseCoordinator :=
  m.put scope ((m.leases scope).erase leaseID)

@[simp] theorem leases_put_self :
    (m.put scope leases).leases scope = leases := by
  simp [put, MemoryLeaseCoordinator.leases]

theorem leases_put_ne {scope scope' : String} (h : scope' ≠ scope) (leases : Assoc String Int) :
    (m.put scope leases).leases scope' = m.leases scope' := by
  simp [put, MemoryLeaseCoordinator.leases, h]

end MemoryLeaseCoordinator

/-- `Gate.Acquire`, with the answer of the circuit if the gate has one: a call that the circuit
refuses is not leased. -/
def gateAcquire (circuit : Option Bool) (m : MemoryLeaseCoordinator) (scope : String)
    (capacity ttl now : Int) (random : Except String LeaseBytes) :
    LeaseOutcome × MemoryLeaseCoordinator :=
  if circuit = some false then (.busy, m) else m.acquire scope capacity ttl now random

theorem newLeaseID_ne_empty {random : Except String LeaseBytes} {id : String}
    (h : newLeaseID random = .ok id) : id ≠ "" := by
  rintro rfl
  cases random with
  | error e => cases h
  | ok value =>
    have hnil : hexEncode value.1 = [] := by
      have := congrArg String.toList (Except.ok.inj h)
      simpa using this
    have hlen := congrArg List.length hnil
    rw [length_hexEncode, value.2] at hlen
    simp at hlen

/-- What an `Acquire` answers, and what it leaves stored. -/
theorem gateAcquire_cases (circuit : Option Bool) (m : MemoryLeaseCoordinator) (scope : String)
    (capacity ttl now : Int) (random : Except String LeaseBytes) :
    (∃ id, newLeaseID random = .ok id ∧
      (MemoryLeaseCoordinator.prune (m.leases scope) now).entries.length < capacity ∧
      gateAcquire circuit m scope capacity ttl now random = (.leased id, m.put scope
        ((MemoryLeaseCoordinator.prune (m.leases scope) now).insert id (now + ttl)))) ∨
    ∃ outcome m', (∀ id, outcome ≠ .leased id) ∧
      (m' = m ∨ m' = m.put scope (MemoryLeaseCoordinator.prune (m.leases scope) now)) ∧
      gateAcquire circuit m scope capacity ttl now random = (outcome, m') := by
  unfold gateAcquire
  by_cases hshut : circuit = some false
  · rw [if_pos hshut]
    exact .inr ⟨.busy, m, (fun _ hc => by cases hc), .inl rfl, rfl⟩
  · rw [if_neg hshut]
    unfold MemoryLeaseCoordinator.acquire
    dsimp only
    by_cases hfull : capacity ≤ (MemoryLeaseCoordinator.prune (m.leases scope) now).entries.length
    · rw [if_pos hfull]
      exact .inr ⟨.busy, _, (fun _ hc => by cases hc), .inr rfl, rfl⟩
    · rw [if_neg hfull]
      cases newLeaseID random with
      | error error => exact .inr ⟨.failed error, _, (fun _ hc => by cases hc), .inr rfl, rfl⟩
      | ok id => exact .inl ⟨id, rfl, not_le.mp hfull, rfl⟩

end LiteAIG.Execution
