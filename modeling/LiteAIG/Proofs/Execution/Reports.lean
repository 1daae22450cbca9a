/-
When every admitted call is reported back to the circuit.

An attempt that the circuit admitted either comes to a provider call, whose result
is recorded, or is refused before it: by the lease gate, or in a pool because the
credential has no invoker.  A refusal records nothing.  So at every point of an
execution the admitted calls that were not reported are the refused ones and at most
the attempt under way, and a whole execution reports all it was admitted to exactly
if nothing was refused.

Composed with the breaker, a tuple that is half open with its probe out has a call
outstanding in some execution; a refused probe is outstanding for ever.
-/
import LiteAIG.Lib.Run
import LiteAIG.Execution.Circuit
import LiteAIG.Execution.Executor

namespace LiteAIG.Execution

open Lib LiteAIG.Runtime Executor List

variable {ρ : Type}

/-! ### Admitted, reported, refused -/

inductive CircuitOp
  | allow (deploymentID credentialID : String) (admitted : Bool)
  | record (deploymentID credentialID : String) (success : Bool)
  deriving DecidableEq

def Event.circuitOp : Event ρ → Option CircuitOp
  | .allow d c admitted => some (.allow d c admitted)
  | .record d c success => some (.record d c success)
  | _ => none

variable (d c : String) {outcome : LeaseOutcome} {dep : Deployment}

/-- What an operation does to the number of calls outstanding on a tuple. -/
def CircuitOp.delta : CircuitOp → Int
  | .allow d' c' true => if d' = d ∧ c' = c then 1 else 0
  | .allow _ _ false => 0
  | .record d' c' _ => if d' = d ∧ c' = c then -1 else 0

def outstanding (ops : List CircuitOp) : Int := (ops.map (CircuitOp.delta d c)).sum

/-- Every admitted call is followed by one report of its own. -/
def Reported (ops : List CircuitOp) : Prop :=
  ∀ d c, outstanding d c ops = 0 ∧ ∀ pre, pre <+: ops → 0 ≤ outstanding d c pre

/-- The lease gate had no lease or failed, or the credential had no invoker. -/
def Event.refusal : Event ρ → Option (String × String)
  | .acquire _ d c _ _ .busy | .acquire _ d c _ _ (.failed _) => some (d, c)
  | .resolve d c false => some (d, c)
  | _ => none

def circuitOps (events : List (Event ρ)) : List CircuitOp := events.filterMap Event.circuitOp

def refused (events : List (Event ρ)) : Nat :=
  events.countP fun event => event.refusal = some (d, c)

/-! ### The books of an execution -/

/-- With a circuit, what is outstanding was refused or is the attempt under way; without one,
nothing is. -/
structure Owes (circuit : Bool) (under : Option (String × String)) (events : List (Event ρ)) :
    Prop where
  now : ∀ d c, outstanding d c (circuitOps events)
    = if circuit then refused d c events + (if under = some (d, c) then 1 else 0) else 0
  before : ∀ d c pre, pre <+: circuitOps events → 0 ≤ outstanding d c pre

section

variable {circuit : Bool} {under : Option (String × String)} {events : List (Event ρ)}
  {d c : String}

theorem outstanding_append (xs ys : List CircuitOp) :
    outstanding d c (xs ++ ys) = outstanding d c xs + outstanding d c ys := by
  simp [outstanding]

theorem owes_nil : Owes circuit none ([] : List (Event ρ)) where
  now d c := by simp [circuitOps, outstanding, refused]
  before d c pre h := by simp [prefix_nil.mp h, outstanding]

variable {ev : Event ρ}

/-- One more event keeps the books if it keeps the balance. -/
theorem Owes.snoc (h : Owes circuit under events) {under' : Option (String × String)}
    (hn : ∀ d c, outstanding d c (circuitOps (events ++ [ev])) = if circuit then
      refused d c (events ++ [ev]) + (if under' = some (d, c) then 1 else 0) else 0) :
    Owes circuit under' (events ++ [ev]) := by
  refine ⟨hn, ?_⟩
  intro d c pre hp
  have hs : circuitOps (events ++ [ev]) = circuitOps events ++ ev.circuitOp.toList := by
    unfold circuitOps
    rw [filterMap_append]
    cases hop : ev.circuitOp <;> simp [hop]
  cases hop : ev.circuitOp with
  | none =>
    rw [hs, hop, Option.toList_none, append_nil] at hp
    exact h.before d c pre hp
  | some op =>
    rw [hs, hop, Option.toList_some, prefix_concat_iff] at hp
    rcases hp with rfl | hp
    · rw [← Option.toList_some, ← hop, ← hs, hn]
      split
      · positivity
      · exact le_rfl
    · exact h.before d c pre hp

theorem outstanding_snoc :
    outstanding d c (circuitOps (events ++ [ev])) = outstanding d c (circuitOps events)
      + (ev.circuitOp.map (CircuitOp.delta d c)).getD 0 := by
  unfold circuitOps
  rw [filterMap_append, outstanding_append]
  cases hop : ev.circuitOp <;> simp [hop, outstanding]

theorem refused_snoc :
    refused d c (events ++ [ev])
      = refused d c events + if ev.refusal = some (d, c) then 1 else 0 := by
  unfold refused
  rw [countP_append, countP_singleton]
  simp

/-- An event that neither the circuit nor a refusal has a part in. -/
theorem Owes.other (h : Owes circuit under events) (hop : ev.circuitOp = none)
    (hr : ev.refusal = none) : Owes circuit under (events ++ [ev]) := by
  refine h.snoc fun d c => ?_
  rw [outstanding_snoc, refused_snoc, h.now, hop, hr]
  simp

theorem Owes.denied (h : Owes circuit under events) (d c : String) :
    Owes circuit under (events ++ [.allow d c false]) := by
  refine h.snoc fun d' c' => ?_
  rw [outstanding_snoc, refused_snoc, h.now]
  simp [Event.circuitOp, Event.refusal, CircuitOp.delta]

theorem Owes.admitted (h : Owes true none events) (d c : String) :
    Owes true (some (d, c)) (events ++ [.allow d c true]) := by
  refine h.snoc fun d' c' => ?_
  rw [outstanding_snoc, refused_snoc, h.now]
  simp [Event.circuitOp, Event.refusal, CircuitOp.delta]

theorem Owes.reported (h : Owes true (some (d, c)) events) (success : Bool) :
    Owes true none (events ++ [.record d c success]) := by
  refine h.snoc fun d' c' => ?_
  rw [outstanding_snoc, refused_snoc, h.now]
  by_cases heq : d = d' ∧ c = c' <;> simp [Event.circuitOp, Event.refusal, CircuitOp.delta, heq]

theorem Owes.refuse (h : Owes circuit (some (d, c)) events) (hop : ev.circuitOp = none)
    (hr : ev.refusal = some (d, c)) : Owes circuit none (events ++ [ev]) := by
  refine h.snoc fun d' c' => ?_
  rw [outstanding_snoc, refused_snoc, h.now, hop, hr]
  by_cases heq : d = d' ∧ c = c' <;> simp [heq]

/-- The attempt under way does not matter where there is no circuit. -/
theorem Owes.uncircuited (h : Owes false under events) (under' : Option (String × String)) :
    Owes false under' events :=
  ⟨fun d c => by simpa using h.now d c, h.before⟩

end

/-! ### What the steps of an attempt keep -/

section

variable (e : Executor) (out : Outside ρ) (snap : TenantRuntimeSnapshot)

/-- What the events of an execution keep between attempts, while an attempt that the circuit
admitted is under way, and while it holds a lease, if every step keeps it. -/
structure Keeps (idle : List (Event ρ) → Prop) (under : String → String → List (Event ρ) → Prop)
    (held : String → String → String → String → List (Event ρ) → Prop) : Prop where
  allow {p : Progress ρ} {d c} : idle p.events → if (e.allow out d c p).1 then
    under d c (e.allow out d c p).2.events
    else idle (e.allow out d c p).2.events
  lease {p q : Progress ρ} {dep c outcome scope} : under dep.id c p.events →
    e.acquireLease out snap dep c p = ((outcome, scope), q) →
      (∀ lid, outcome = .leased lid → held scope lid dep.id c q.events) ∧
        ((∀ lid, outcome ≠ .leased lid) → idle q.events)
  call {p : Progress ρ} {dep c scope lid} : held scope lid dep.id c p.events →
    under dep.id c (e.releaseLease scope lid (e.invoke out snap dep c p).2).events
  resolve {p : Progress ρ} {d c scope lid} : held scope lid d c p.events →
    held scope lid d c (p.emit (.resolve d c true)).events ∧
      idle (e.releaseLease scope lid (p.emit (.resolve d c false))).events
  record {p : Progress ρ} {d c success} : under d c p.events → idle (e.record d c success p).events
  sleep {p : Progress ρ} {duration error} : idle p.events →
    idle (p.emit (.sleep duration error)).events
  pick {p : Progress ρ} {d picked} : idle p.events → idle (p.emit (.pick d picked)).events

theorem leaseScope_ne_empty (tid deploymentID : String) :
    "\x7btenant:" ++ tid ++ "\x7d:deployment:" ++ deploymentID ≠ "" := by
  intro hc
  have hl := congrArg String.length hc
  simp only [String.length_append] at hl
  have hp : "\x7btenant:".length = 8 := rfl
  have he : "".length = 0 := rfl
  omega

/-- Where no lease is needed, the one that is given has no id. -/
theorem acquireLease_cases {p q : Progress ρ} {c scope : String}
    (h : e.acquireLease out snap dep c p = ((outcome, scope), q)) :
    outcome = .leased "" ∧ q = p ∨ e.leases = true ∧ scope ≠ "" ∧
      ∃ capacity ttl, q = p.emit (.acquire scope dep.id c capacity ttl outcome) := by
  unfold acquireLease at h
  split at h
  · split at h
    · rename_i hl
      simp only [Bool.and_eq_true] at hl
      obtain ⟨ha, rfl⟩ := Prod.mk.inj h
      obtain ⟨rfl, rfl⟩ := Prod.mk.inj ha
      exact .inr ⟨hl.1.1, leaseScope_ne_empty _ _, _, _, rfl⟩
    · obtain ⟨ha, rfl⟩ := Prod.mk.inj h
      exact .inl ⟨(Prod.mk.inj ha).1.symm, rfl⟩
  · obtain ⟨ha, rfl⟩ := Prod.mk.inj h
    exact .inl ⟨(Prod.mk.inj ha).1.symm, rfl⟩

variable {e out snap} {idle : List (Event ρ) → Prop}
  {under : String → String → List (Event ρ) → Prop}
  {held : String → String → String → String → List (Event ρ) → Prop} {p : Progress ρ} {c : String}
  (k : Keeps e out snap idle under held)

include k

namespace Keeps

theorem backoff (h : idle p.events) (att : Nat) : idle (e.backoff out att p).1.events := by
  unfold Executor.backoff
  dsimp only
  split
  · exact k.sleep h
  · exact k.sleep h

theorem planFailed (stop : Bool) (dep : Deployment) (att : Nat) (f : Failure)
    (h : under dep.id dep.credentialID p.events) :
    idle (e.planFailed out stop dep att f p).1.events := by
  unfold Executor.planFailed
  dsimp only
  split
  · exact k.record h
  · split
    · exact k.record h
    · split
      · refine k.backoff ?_ att
        exact k.record h
      · exact k.record h

theorem poolFailed (dep : Deployment) (att : Nat) (f : Failure) (h : under dep.id c p.events) :
    idle (e.poolFailed out dep c att f p).1.events := by
  unfold Executor.poolFailed
  dsimp only
  split
  · exact k.record h
  · split
    · refine k.backoff ?_ att
      exact k.record h
    · exact k.record h

variable {dep : Deployment} {scope lid : String}

theorem callLeased (att : Nat) {failed : Failure → Progress ρ → Progress ρ × AttemptEnd ρ}
    (hf : ∀ f q, under dep.id c q.events → idle (failed f q).1.events)
    (h : held scope lid dep.id c p.events) :
    idle (e.callLeased out snap dep c scope lid att failed p).1.events := by
  have hc := k.call h
  unfold Executor.callLeased
  dsimp only
  split
  · exact k.record hc
  · exact hf _ _ hc

theorem poolLeased (att : Nat) (h : held scope lid dep.id c p.events) :
    idle (e.poolLeased out snap dep c scope lid att p).1.events := by
  unfold Executor.poolLeased
  dsimp only
  cases out.resolveCredential p.events dep c with
  | true => exact k.callLeased att (fun f _ hq => k.poolFailed dep att f hq) (k.resolve h).1
  | false => exact (k.resolve h).2

theorem gated (shut : AttemptEnd ρ)
    {leased : String → String → Progress ρ → Progress ρ × AttemptEnd ρ}
    (hle : ∀ scope lid q, held scope lid dep.id c q.events → idle (leased scope lid q).1.events)
    (h : idle p.events) : idle (e.gated out snap dep c shut leased p).1.events := by
  have ha := k.allow (d := dep.id) (c := c) h
  cases has : e.allow out dep.id c p with
  | mk admitted p₁ =>
    rw [has] at ha
    cases admitted with
    | false =>
      simp only [Executor.gated, has]
      exact ha
    | true =>
      cases hac : e.acquireLease out snap dep c p₁ with
      | mk answer p₂ =>
        obtain ⟨outcome, scope⟩ := answer
        obtain ⟨hl, hn⟩ := k.lease ha hac
        simp only [Executor.gated, has, hac]
        cases outcome with
        | leased lid => exact hle scope lid p₂ (hl lid rfl)
        | busy => exact hn fun _ hc => by cases hc
        | failed error => exact hn fun _ hc => by cases hc

theorem planAttempt (stop : Bool) (dep : Deployment) (att : Nat) (h : idle p.events) :
    idle (e.planAttempt out snap stop dep att p).1.events :=
  k.gated .leave (fun _ _ _ hq => k.callLeased att
    (fun f _ hr => k.planFailed stop dep att f hr) hq) h

theorem poolAttempt (dep : Deployment) (att : Nat) (h : idle p.events) :
    idle (e.poolAttempt out snap dep att p).1.events := by
  unfold Executor.poolAttempt
  dsimp only
  split
  · exact k.pick h
  · exact k.gated .again (fun _ _ _ hq => k.poolLeased att hq) (k.pick h)

end Keeps

end

/-! ### What each step owes -/

section

variable (e : Executor) (out : Outside ρ) (snap : TenantRuntimeSnapshot) {p : Progress ρ}
  {under : Option (String × String)} {d c : String}

theorem owes_allow (h : Owes e.circuit none p.events) (d c : String) :
    if (e.allow out d c p).1 then Owes e.circuit (some (d, c)) (e.allow out d c p).2.events
    else Owes e.circuit none (e.allow out d c p).2.events := by
  unfold allow
  cases hc : e.circuit with
  | false =>
    rw [hc] at h
    exact h.uncircuited _
  | true =>
    rw [hc] at h
    simp only [if_true]
    cases out.allow p.events d c with
    | true => exact h.admitted d c
    | false => exact h.denied d c

theorem owes_record (h : Owes e.circuit (some (d, c)) p.events) (success : Bool) :
    Owes e.circuit none (e.record d c success p).events := by
  unfold record
  cases hc : e.circuit with
  | false =>
    rw [hc] at h
    exact h.uncircuited none
  | true =>
    rw [hc] at h
    exact h.reported success

/-- A lease leaves the attempt under way; a refusal ends it. -/
theorem owes_acquireLease {scope : String}
    {q : Progress ρ} (h : Owes e.circuit (some (dep.id, c)) p.events)
    (ha : e.acquireLease out snap dep c p = ((outcome, scope), q)) :
    (∀ lid, outcome = .leased lid → Owes e.circuit (some (dep.id, c)) q.events) ∧
      ((∀ lid, outcome ≠ .leased lid) → Owes e.circuit none q.events) := by
  rcases acquireLease_cases e out snap ha with ⟨rfl, rfl⟩ | ⟨-, -, capacity, ttl, rfl⟩
  · exact ⟨fun _ _ => h, fun hn => absurd rfl (hn _)⟩
  · cases outcome with
    | leased lid => exact ⟨fun _ _ => h.other rfl rfl, fun hn => absurd rfl (hn lid)⟩
    | busy => exact ⟨fun _ hl => (by cases hl), fun _ => h.refuse rfl rfl⟩
    | failed error => exact ⟨fun _ hl => (by cases hl), fun _ => h.refuse rfl rfl⟩

theorem owes_releaseLease (h : Owes e.circuit under p.events) (scope lid : String) :
    Owes e.circuit under (e.releaseLease scope lid p).events := by
  unfold releaseLease
  split
  · exact h.other rfl rfl
  · exact h

theorem owes_invoke (h : Owes e.circuit under p.events) (dep : Deployment)
    (cid : String) :
    Owes e.circuit under (e.invoke out snap dep cid p).2.events := by
  unfold invoke
  cases e.inflight with
  | false => exact h.other rfl rfl
  | true => exact ((h.other rfl rfl).other rfl rfl).other rfl rfl

theorem owes_keeps : Keeps e out snap (Owes e.circuit none)
    (fun d c => Owes e.circuit (some (d, c))) (fun _ _ d c => Owes e.circuit (some (d, c))) where
  allow h := owes_allow e out h _ _
  lease h ha := owes_acquireLease e out snap h ha
  call h := owes_releaseLease e (owes_invoke e out snap h _ _) _ _
  resolve h := ⟨h.other rfl rfl, owes_releaseLease e (h.refuse rfl rfl) _ _⟩
  record h := owes_record e h _
  sleep h := h.other rfl rfl
  pick h := h.other rfl rfl

end

/-! ### The loops -/

section

variable (e : Executor) (snap : TenantRuntimeSnapshot) {I : Progress ρ → Prop}

/-- What every attempt keeps, the attempts on a deployment keep. -/
theorem attempts_invariant {body : Nat → Progress ρ → Progress ρ × AttemptEnd ρ}
    (hbo : ∀ att p, I p → I (body att p).1) :
    ∀ (n att : Nat) (p : Progress ρ), I p → I (e.attempts body n att p).1 := by
  intro n
  induction n with
  | zero => intro att p h; exact h
  | succ n ih =>
    intro att p h
    have hs := hbo att p h
    unfold attempts
    by_cases hc : p.calls < e.policy.maxTotalCalls
    · rw [if_pos hc]
      cases hb : body att p with
      | mk q ending =>
        rw [hb] at hs
        cases ending with
        | again => exact ih (att + 1) q hs
        | leave => exact hs
        | done result => exact hs
    · rw [if_neg hc]
      exact h

/-- What every attempt keeps, a plan keeps. -/
theorem deployments_invariant {usable : List (Event ρ) → Deployment → Bool}
    {body : Deployment → Nat → Progress ρ → Progress ρ × AttemptEnd ρ}
    (hb : ∀ dep att p, I p → I (body dep att p).1) :
    ∀ (fb : List String) (p : Progress ρ), I p →
      I (e.deployments snap usable body fb p).1 := by
  intro fb
  induction fb with
  | nil => intro p h; exact h
  | cons id rest ih =>
    intro p h
    unfold deployments
    cases snap.deployment id with
    | none => exact ih p h
    | some dep =>
      by_cases hu : usable p.events dep = true
      · simp only [if_pos hu]
        have ho := attempts_invariant e (hb dep)
          e.policy.maxAttemptsPerDeployment.toNat 1 p h
        cases ha : e.attempts (body dep) e.policy.maxAttemptsPerDeployment.toNat 1 p with
        | mk q found =>
          rw [ha] at ho
          cases found with
          | none => exact ih q ho
          | some result => exact ho
      · simp only [if_neg hu]
        exact ih p h

theorem conclude_events (found : Progress ρ × Option (Result ρ)) :
    (conclude found).1.events = found.1.events := by
  obtain ⟨p, result⟩ := found
  cases result <;> rfl

end

/-- The events of an execution, of either kind. -/
inductive Ran (e : Executor) : List (Event ρ) → Prop
  | plan (out : Outside ρ) (snapshot : TenantRuntimeSnapshot) (stopOnCommitted : Bool)
    (fallback : List String) :
      Ran e (e.runPlan out snapshot stopOnCommitted fallback).1.events
  | pool (out : Outside ρ) (snapshot : TenantRuntimeSnapshot) (fallback : List String) :
      Ran e (e.executeWithPool out snapshot fallback).1.events

section

variable {e : Executor} {events : List (Event ρ)}

/-- What every step of an attempt keeps, an execution of either kind keeps. -/
theorem Keeps.ran {idle : List (Event ρ) → Prop} {under : String → String → List (Event ρ) → Prop}
    {held : String → String → String → String → List (Event ρ) → Prop}
    (k : ∀ out snap, Keeps e out snap idle under held) (h₀ : idle []) (h : Ran e events) :
    idle events := by
  have hpl : ∀ out snap stop fb, idle (e.runPlan out snap stop fb).1.events := by
    intro out snap stop fb
    unfold runPlan
    rw [conclude_events]
    exact deployments_invariant e snap (I := fun p => idle p.events)
      (fun dep att _ h => (k out snap).planAttempt stop dep att h) fb .start h₀
  cases h with
  | plan out snap stop fb => exact hpl out snap stop fb
  | pool out snap fb =>
    unfold executeWithPool
    split
    · rw [conclude_events]
      exact deployments_invariant e snap (I := fun p => idle p.events)
        (fun dep att _ h => (k out snap).poolAttempt dep att h) fb .start h₀
    · exact hpl out snap false fb

theorem owes_of_ran (h : Ran e events) : Owes e.circuit none events :=
  Keeps.ran (owes_keeps e) owes_nil h

/-- Nothing was refused. -/
def Unrefused (events : List (Event ρ)) : Prop := ∀ event ∈ events, event.refusal = none
  deriving Decidable

theorem refused_eq_zero_iff : (∀ d c, refused d c events = 0) ↔ Unrefused events := by
  unfold refused Unrefused
  constructor
  · intro h ev he
    cases hr : ev.refusal with
    | none => rfl
    | some dc =>
      have := countP_eq_zero.mp (h dc.1 dc.2) ev he
      simp [hr] at this
  · intro h d c
    rw [countP_eq_zero]
    intro ev he
    simp [h ev he]

theorem Owes.reported_iff (h : Owes e.circuit none events) :
    Reported (circuitOps events) ↔ (e.circuit = true → Unrefused events) := by
  rw [← refused_eq_zero_iff]
  constructor
  · intro hr hc d c
    have hn := h.now d c
    rw [(hr d c).1, if_pos hc] at hn
    simpa using hn.symm
  · intro hun d c
    refine ⟨?_, h.before d c⟩
    rw [h.now]
    split
    · rename_i hc
      simp [hun hc d c]
    · rfl

end

end LiteAIG.Execution
