/-
The executor: a route plan walked with bounded retries.

The circuit, the lease gate, the credential pickers, the providers and the sleeper
are outside.  `Outside` gives their answers, each as a function of all that happened
before, so it stands for any of them in any state.  What happens is kept as a list
of events in order.  Deadlines are part of the outside: a call that runs into one is
a call that fails.
-/
import LiteAIG.Runtime.Snapshot

namespace LiteAIG.Execution

open LiteAIG.Runtime

/-! ### The outside -/

/-- What goes wrong outside, as the text of the error. -/
structure Failure where
  error : String
  /-- What the invoker's `NormalizeError` makes of it. -/
  code : String
  retryable : Bool
  /-- No first byte within the first-token deadline. -/
  firstToken : Bool
  /-- A chunk of a stream was already written. -/
  committed : Bool

inductive CallOutcome (ρ : Type)
  | ok (response : Option ρ)
  | failed (failure : Failure)

inductive LeaseOutcome
  | leased (leaseID : String)
  | busy
  | failed (error : String)
  deriving DecidableEq

inductive Event (ρ : Type)
  | pick (deploymentID : String) (credentialID : Option String)
  | allow (deploymentID credentialID : String) (admitted : Bool)
  | acquire (scope deploymentID credentialID : String) (capacity ttl : Int) (outcome : LeaseOutcome)
  | resolve (deploymentID credentialID : String) (found : Bool)
  | incr (scope : String)
  | call (deploymentID credentialID : String) (outcome : CallOutcome ρ)
  | decr (scope : String)
  | release (scope leaseID : String)
  | record (deploymentID credentialID : String) (success : Bool)
  | sleep (backoff : Int) (error : Option String)

structure Outside (ρ : Type) where
  /-- `Resolver.Resolve` finds an invoker for the deployment. -/
  resolve : List (Event ρ) → Deployment → Bool
  /-- `pickerFor` gives a picker for the deployment. -/
  picker : List (Event ρ) → Deployment → Bool
  /-- `CredentialPicker.Next`. -/
  next : List (Event ρ) → Deployment → Option String
  allow : List (Event ρ) → String → String → Bool
  acquire : List (Event ρ) → String → String → String → LeaseOutcome
  /-- `CredentialResolver.ResolveCredential` finds an invoker. -/
  resolveCredential : List (Event ρ) → Deployment → String → Bool
  call : List (Event ρ) → Deployment → String → CallOutcome ρ
  jitter : List (Event ρ) → Int
  sleep : List (Event ρ) → Int → Option String

/-! ### The executor -/

structure RetryPolicy where
  (maxAttemptsPerDeployment maxTotalCalls baseBackoff maxBackoff : Int)

/-- Double the backoff once per retry after the first, up to the maximum. -/
def RetryPolicy.doubled (p : RetryPolicy) : Nat → Int → Int
  | 0, value => value
  | n + 1, value => if value * 2 ≥ p.maxBackoff then p.maxBackoff else p.doubled n (value * 2)

def RetryPolicy.backoff (p : RetryPolicy) (retryNumber : Nat) (jitter : Int) : Int :=
  min (p.doubled (retryNumber - 1) p.baseBackoff + jitter) p.maxBackoff

/-- The executor; the parts that may be missing are there or not. -/
structure Executor where
  policy : RetryPolicy
  (circuit leases inflight : Bool)
  /-- The resolver is a `CredentialResolver`. -/
  pooled : Bool

structure Attempt where
  (deploymentID credentialID : String)
  number : Nat
  outcome : String
  retryable : Bool

inductive ExecError
  | leaseBusy
  | exhausted
  /-- An error of the lease gate, a provider or the sleeper, passed on. -/
  | passed (error : String)
  deriving DecidableEq

/-- How far an execution has come. -/
structure Progress (ρ : Type) where
  events : List (Event ρ)
  attempts : List Attempt
  calls : Int
  last : Option ExecError
  leaseBlocked : Bool

variable {ρ : Type}

def Progress.start : Progress ρ := ⟨[], [], 0, none, false⟩

def Progress.emit (p : Progress ρ) (event : Event ρ) : Progress ρ :=
  { p with events := p.events ++ [event] }

def Progress.attempted (p : Progress ρ) (attempt : Attempt) : Progress ρ :=
  { p with attempts := p.attempts ++ [attempt] }

structure Result (ρ : Type) where
  response : Option ρ
  deploymentID : String
  error : Option ExecError

/-- How an attempt ends: with another one, with the next deployment, or for good. -/
inductive AttemptEnd (ρ : Type)
  | again
  | leave
  | done (result : Result ρ)

/-- An early return with an error. -/
def AttemptEnd.fail (error : ExecError) : AttemptEnd ρ := .done ⟨none, "", some error⟩

/-! ### The steps of an attempt -/

namespace Executor

variable (e : Executor) (out : Outside ρ) (snapshot : TenantRuntimeSnapshot)

/-- Ask the circuit, if there is one. -/
def allow (deploymentID credentialID : String) (p : Progress ρ) : Bool × Progress ρ :=
  if e.circuit then
    let admitted := out.allow p.events deploymentID credentialID
    (admitted, p.emit (.allow deploymentID credentialID admitted))
  else (true, p)

def record (deploymentID credentialID : String) (success : Bool) (p : Progress ρ) : Progress ρ :=
  if e.circuit then p.emit (.record deploymentID credentialID success) else p

variable (deployment : Deployment)

/-- A lease with its scope, both empty when none is needed. -/
def acquireLease (credentialID : String) (p : Progress ρ) :
    (LeaseOutcome × String) × Progress ρ :=
  match snapshot.lease deployment.id with
  | some lease =>
    if e.leases && 0 < lease.capacity && 0 < lease.ttlSeconds then
      let scope := "\x7btenant:" ++ snapshot.tenantID ++ "\x7d:deployment:" ++ deployment.id
      let outcome := out.acquire p.events scope deployment.id credentialID
      ((outcome, scope), p.emit (.acquire scope deployment.id credentialID lease.capacity
        (lease.ttlSeconds * 1000000000) outcome))
    else ((.leased "", ""), p)
  | none => ((.leased "", ""), p)

def releaseLease (scope leaseID : String) (p : Progress ρ) : Progress ρ :=
  if e.leases && scope ≠ "" && leaseID ≠ "" then p.emit (.release scope leaseID) else p

def inflightScope (tenantID deploymentID credentialID : String) : String :=
  "\x7btenant:" ++ tenantID ++ "\x7d:deployment:" ++ deploymentID ++ ":credential:" ++ credentialID

/-- One provider call, counted as in flight while it lasts. -/
def invoke (credentialID : String) (p : Progress ρ) :
    CallOutcome ρ × Progress ρ :=
  let scope := inflightScope snapshot.tenantID deployment.id credentialID
  let p := { p with calls := p.calls + 1 }
  let p := if e.inflight then p.emit (.incr scope) else p
  let outcome := out.call p.events deployment credentialID
  let p := p.emit (.call deployment.id credentialID outcome)
  (outcome, if e.inflight then p.emit (.decr scope) else p)

/-- Sleep before the next attempt. -/
def backoff (attempt : Nat) (p : Progress ρ) : Progress ρ × AttemptEnd ρ :=
  let duration := e.policy.backoff attempt (out.jitter p.events)
  let error := out.sleep p.events duration
  let p := p.emit (.sleep duration error)
  match error with
  | some error => (p, .fail (.passed error))
  | none => (p, .again)

/-- A call that went through: report it and return. -/
def succeed (deploymentID credentialID : String) (attempt : Nat) (response : Option ρ)
    (p : Progress ρ) : Progress ρ × AttemptEnd ρ :=
  let p := e.record deploymentID credentialID true p
  (p.attempted ⟨deploymentID, credentialID, attempt, "success", false⟩,
    .done ⟨response, deploymentID, none⟩)

/-- A call of `runPlan` that failed. -/
def planFailed (stopOnCommitted : Bool) (deployment : Deployment) (attempt : Nat) (f : Failure)
    (p : Progress ρ) : Progress ρ × AttemptEnd ρ :=
  let credentialID := deployment.credentialID
  let p := { p with last := some (.passed f.error) }
  let p := p.attempted
    (if f.firstToken then ⟨deployment.id, credentialID, attempt, "first_token_timeout", true⟩
    else ⟨deployment.id, credentialID, attempt, f.code, f.retryable⟩)
  -- the failure is recorded before any early return
  let p := e.record deployment.id credentialID false p
  if f.firstToken then (p, .leave)
  else if (stopOnCommitted && f.committed) || !f.retryable then (p, .fail (.passed f.error))
  else if attempt < e.policy.maxAttemptsPerDeployment ∧ p.calls < e.policy.maxTotalCalls then
    e.backoff out attempt p
  else (p, .again)

/-- A call of `ExecuteWithPool` that failed. -/
def poolFailed (credentialID : String) (attempt : Nat) (f : Failure) (p : Progress ρ) :
    Progress ρ × AttemptEnd ρ :=
  let p := { p with last := some (.passed f.error) }
  let p := p.attempted ⟨deployment.id, credentialID, attempt, f.code, f.retryable⟩
  let p := e.record deployment.id credentialID false p
  if !f.retryable then (p, .fail (.passed f.error))
  else if p.calls < e.policy.maxTotalCalls then e.backoff out attempt p
  else (p, .again)

/-- The provider call under a lease, and what follows from its outcome. -/
def callLeased (credentialID scope leaseID : String) (attempt : Nat)
    (failed : Failure → Progress ρ → Progress ρ × AttemptEnd ρ) (p : Progress ρ) :
    Progress ρ × AttemptEnd ρ :=
  let (outcome, p) := e.invoke out snapshot deployment credentialID p
  let p := e.releaseLease scope leaseID p
  match outcome with
  | .ok response => e.succeed deployment.id credentialID attempt response p
  | .failed f => failed f p

/-- The gates before a call: the circuit and the lease.  One that is shut ends the attempt as
`shut` says. -/
def gated (credentialID : String) (shut : AttemptEnd ρ)
    (leased : String → String → Progress ρ → Progress ρ × AttemptEnd ρ) (p : Progress ρ) :
    Progress ρ × AttemptEnd ρ :=
  match e.allow out deployment.id credentialID p with
  | (false, p) => (p, shut)
  | (true, p) =>
    match e.acquireLease out snapshot deployment credentialID p with
    | ((.failed error, _), p) => (p, .fail (.passed error))
    | ((.busy, _), p) => ({ p with leaseBlocked := true }, shut)
    | ((.leased leaseID, scope), p) => leased scope leaseID p

/-- One attempt of `runPlan` on a deployment; a shut gate leaves the deployment. -/
def planAttempt (stopOnCommitted : Bool) (deployment : Deployment) (attempt : Nat)
    (p : Progress ρ) : Progress ρ × AttemptEnd ρ :=
  e.gated out snapshot deployment deployment.credentialID .leave
    (fun scope leaseID p =>
      e.callLeased out snapshot deployment deployment.credentialID scope leaseID attempt
        (e.planFailed out stopOnCommitted deployment attempt) p)
    p

/-- The pool's attempt under a lease: the credential has to have an invoker. -/
def poolLeased (credentialID scope leaseID : String) (attempt : Nat) (p : Progress ρ) :
    Progress ρ × AttemptEnd ρ :=
  let found := out.resolveCredential p.events deployment credentialID
  let p := p.emit (.resolve deployment.id credentialID found)
  if found then
    e.callLeased out snapshot deployment credentialID scope leaseID attempt
      (e.poolFailed out deployment credentialID attempt) p
  else (e.releaseLease scope leaseID p, .again)

/-- One attempt of `ExecuteWithPool` on a deployment; a shut gate moves on to the next
credential. -/
def poolAttempt (attempt : Nat) (p : Progress ρ) :
    Progress ρ × AttemptEnd ρ :=
  let picked := out.next p.events deployment
  let p := p.emit (.pick deployment.id picked)
  match picked with
  | none => (p, .leave)
  | some credentialID =>
    e.gated out snapshot deployment credentialID .again
      (fun scope leaseID p =>
        e.poolLeased out snapshot deployment credentialID scope leaseID attempt p)
      p

/-! ### The loops -/

/-- Up to `n` more attempts on one deployment. -/
def attempts (body : Nat → Progress ρ → Progress ρ × AttemptEnd ρ) :
    Nat → Nat → Progress ρ → Progress ρ × Option (Result ρ)
  | 0, _, p => (p, none)
  | n + 1, attempt, p =>
    if p.calls < e.policy.maxTotalCalls then
      match body attempt p with
      | (p, .again) => attempts body n (attempt + 1) p
      | (p, .leave) => (p, none)
      | (p, .done result) => (p, some result)
    else (p, none)

/-- The deployments of the plan in order; one that is unknown or cannot be used is skipped. -/
def deployments (usable : List (Event ρ) → Deployment → Bool)
    (body : Deployment → Nat → Progress ρ → Progress ρ × AttemptEnd ρ) :
    List String → Progress ρ → Progress ρ × Option (Result ρ)
  | [], p => (p, none)
  | id :: rest, p =>
    match snapshot.deployment id with
    | none => deployments usable body rest p
    | some deployment =>
      if usable p.events deployment then
        match e.attempts (body deployment) e.policy.maxAttemptsPerDeployment.toNat 1 p with
        | (p, some result) => (p, some result)
        | (p, none) => deployments usable body rest p
      else deployments usable body rest p

/-- The end of a plan that gave no result. -/
def conclude : Progress ρ × Option (Result ρ) → Progress ρ × Result ρ
  | (p, some result) => (p, result)
  | (p, none) =>
    (p, ⟨none, "", some (p.last.getD (if p.leaseBlocked then .leaseBusy else .exhausted))⟩)

def runPlan (stopOnCommitted : Bool) (fallback : List String) : Progress ρ × Result ρ :=
  conclude (e.deployments snapshot out.resolve (e.planAttempt out snapshot stopOnCommitted)
    fallback .start)

def execute (fallback : List String) : Progress ρ × Result ρ :=
  e.runPlan out snapshot false fallback

def executeStream (fallback : List String) : List Attempt × Option ExecError :=
  let (p, result) := e.runPlan out snapshot true fallback
  (p.attempts, result.error)

def executeWithPool (fallback : List String) : Progress ρ × Result ρ :=
  if e.pooled then
    conclude (e.deployments snapshot out.picker (e.poolAttempt out snapshot) fallback .start)
  else e.execute out snapshot fallback

end Executor

end LiteAIG.Execution
