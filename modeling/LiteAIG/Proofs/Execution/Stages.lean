/-
What an execution has on loan at each of its events.

An execution holds at most one lease and counts at most one call as in flight.  It
takes the lease before the call, makes one call under it at most, and gives it back
after, on every path, so its events are a walk of a small automaton that begins and
ends with nothing on loan.  What a lease or an in-flight count comes to over the whole
execution, and what is held while a call is under way, is read off that walk.
-/
import LiteAIG.Lib.Walk
import LiteAIG.Proofs.Execution.Reports

namespace LiteAIG.Execution

open Lib LiteAIG.Runtime Event

variable {ρ : Type}

/-! ### The walk -/

/-- The lease an execution holds, by scope and id, the in-flight count it has raised, and whether
a call was made under the lease. -/
@[ext] structure Stage where
  lease : Option (String × String)
  inflight : Option String
  called : Bool
  deriving DecidableEq

def Stage.idle : Stage := ⟨none, none, false⟩

variable (scope leaseID : String) (called : Bool)

/-- A lease without an id is none. -/
def Stage.held : Stage :=
  if leaseID ≠ "" then ⟨some (scope, leaseID), none, called⟩ else .idle

/-- The stage after an event, if the event may happen there. -/
def Stage.take (s : Stage) : Event ρ → Option Stage
  | .acquire scope _ _ _ _ (.leased leaseID) =>
    if s = .idle then some (.held scope leaseID false) else none
  | .release scope leaseID =>
    if s.lease = some (scope, leaseID) ∧ s.inflight = none then some .idle else none
  | .incr scope => if s.inflight = none then some { s with inflight := some scope } else none
  | .decr scope => if s.inflight = some scope then some { s with inflight := none } else none
  | .call .. => if s.called = false then some { s with called := s.lease.isSome } else none
  | .acquire .. | .pick .. | .allow .. | .resolve .. | .record .. | .sleep .. => some s

/-- Where a list of events leads from a stage. -/
def Stage.walk (s : Stage) (events : List (Event ρ)) : Option Stage := Lib.walk Stage.take s events

@[simp] theorem held_lease :
    (Stage.held scope leaseID called).lease = if leaseID ≠ "" then some (scope, leaseID)
      else none := by
  unfold Stage.held
  split <;> rfl

@[simp] theorem held_inflight :
    (Stage.held scope leaseID called).inflight = none := by
  unfold Stage.held
  split <;> rfl

/-- An event that has no part in what is on loan. -/
def Event.passing : Event ρ → Bool
  | .acquire _ _ _ _ _ (.leased _) | .release .. | .incr .. | .decr .. | .call .. => false
  | .acquire .. | .pick .. | .allow .. | .resolve .. | .record .. | .sleep .. => true

theorem eq_of_ite_some {α : Type*} {P : Prop} [Decidable P] {a b : α}
    (h : (if P then some a else none) = some b) : P ∧ b = a := by
  rw [Option.ite_none_right_eq_some, Option.some.injEq] at h
  exact ⟨h.1, h.2.symm⟩

/-- What each event does, and what it needs. -/
theorem take_cases {s s' : Stage} {ev : Event ρ} (h : s.take ev = some s') :
    (∃ scope d c capacity ttl leaseID, ev = .acquire scope d c capacity ttl (.leased leaseID) ∧
      s = .idle ∧ s' = .held scope leaseID false) ∨
    (∃ scope leaseID, ev = .release scope leaseID ∧ s.lease = some (scope, leaseID) ∧
      s.inflight = none ∧ s' = .idle) ∨
    (∃ scope, ev = .incr scope ∧ s.inflight = none ∧ s' = { s with inflight := some scope }) ∨
    (∃ scope, ev = .decr scope ∧ s.inflight = some scope ∧ s' = { s with inflight := none }) ∨
    (∃ d c outcome, ev = .call d c outcome ∧ s.called = false ∧
      s' = { s with called := s.lease.isSome }) ∨
    (ev.passing = true ∧ s' = s) := by
  cases ev with
  | acquire scope d c capacity ttl outcome =>
    cases outcome with
    | leased leaseID => exact .inl ⟨scope, d, c, capacity, ttl, leaseID, rfl, eq_of_ite_some h⟩
    | busy | failed error =>
      exact .inr (.inr (.inr (.inr (.inr ⟨rfl, (Option.some.inj h).symm⟩))))
  | release scope leaseID =>
    obtain ⟨⟨hl, hi⟩, he⟩ := eq_of_ite_some h
    exact .inr (.inl ⟨scope, leaseID, rfl, hl, hi, he⟩)
  | incr scope => exact .inr (.inr (.inl ⟨scope, rfl, eq_of_ite_some h⟩))
  | decr scope => exact .inr (.inr (.inr (.inl ⟨scope, rfl, eq_of_ite_some h⟩)))
  | call d c outcome =>
    exact .inr (.inr (.inr (.inr (.inl ⟨d, c, outcome, rfl, eq_of_ite_some h⟩))))
  | pick | allow | resolve | record | sleep =>
    exact .inr (.inr (.inr (.inr (.inr ⟨rfl, (Option.some.inj h).symm⟩))))

/-- The execution is at a stage. -/
def Progress.At (s : Stage) (p : Progress ρ) : Prop := Stage.idle.walk p.events = some s

section

variable {s s' : Stage} {p : Progress ρ} {ev : Event ρ}

theorem Progress.At.emit (h : p.At s) (ht : s.take ev = some s') : (p.emit ev).At s' := by
  unfold Progress.At Progress.emit
  rw [Stage.walk, walk_append, show walk Stage.take .idle p.events = some s from h]
  simp [walk, ht]

end

/-! ### The steps of an attempt -/

section

variable (e : Executor) (out : Outside ρ) (snap : TenantRuntimeSnapshot) {s : Stage}
  {p : Progress ρ} {scope leaseID : String}

theorem at_allow (h : p.At s) (d c : String) : (e.allow out d c p).2.At s := by
  unfold Executor.allow
  split
  · exact h.emit rfl
  · exact h

theorem at_record (h : p.At s) (d c : String) (success : Bool) : (e.record d c success p).At s := by
  unfold Executor.record
  split
  · exact h.emit rfl
  · exact h

/-- A lease that is granted is held, and can be given back; one that is refused leaves nothing on
loan. -/
theorem at_acquireLease (h : p.At .idle) {dep : Deployment} {cid scope : String}
    {outcome : LeaseOutcome} {q : Progress ρ}
    (hac : e.acquireLease out snap dep cid p = ((outcome, scope), q)) :
    (∀ leaseID, outcome = .leased leaseID →
      q.At (.held scope leaseID false) ∧ (leaseID ≠ "" → scope ≠ "" ∧ e.leases = true)) ∧
      ((∀ leaseID, outcome ≠ .leased leaseID) → q.At .idle) := by
  rcases acquireLease_cases e out snap hac with ⟨rfl, rfl⟩ | ⟨hl, hs, capacity, ttl, rfl⟩
  · refine ⟨?_, fun _ => h⟩
    intro leaseID hle
    obtain rfl := LeaseOutcome.leased.inj hle
    exact ⟨h, fun hc => absurd rfl hc⟩
  · cases outcome with
    | leased leaseID =>
      refine ⟨?_, fun hn => absurd rfl (hn leaseID)⟩
      intro _ hle
      obtain rfl := LeaseOutcome.leased.inj hle
      exact ⟨h.emit rfl, fun _ => ⟨hs, hl⟩⟩
    | busy => exact ⟨fun _ hl => (by cases hl), fun _ => h.emit rfl⟩
    | failed error => exact ⟨fun _ hl => (by cases hl), fun _ => h.emit rfl⟩

theorem at_releaseLease {called : Bool} (h : p.At (.held scope leaseID called))
    (hl : leaseID ≠ "" → scope ≠ "" ∧ e.leases = true) :
    (e.releaseLease scope leaseID p).At .idle := by
  unfold Executor.releaseLease
  by_cases hh : leaseID ≠ ""
  · have hco : (e.leases && scope ≠ "" && leaseID ≠ "") = true := by
      simp [(hl hh).1, (hl hh).2, hh]
    rw [if_pos hco]
    exact h.emit (by simp [Stage.take, Stage.held, hh])
  · have hco : ¬ (e.leases && scope ≠ "" && leaseID ≠ "") = true := by
      intro hc
      simp only [Bool.and_eq_true, decide_eq_true_eq] at hc
      exact hh hc.2
    rw [if_neg hco]
    rwa [Stage.held, if_neg hh] at h

/-- A call raises the in-flight count and takes it back, and uses the lease. -/
theorem at_invoke (h : p.At (.held scope leaseID false)) (dep : Deployment) (cid : String) :
    (e.invoke out snap dep cid p).2.At (.held scope leaseID true) := by
  have hc : ({ p with calls := p.calls + 1 } : Progress ρ).At (.held scope leaseID false) := h
  unfold Executor.invoke
  by_cases hid : leaseID ≠ ""
  · rw [Stage.held, if_pos hid] at hc ⊢
    cases e.inflight with
    | false => exact hc.emit rfl
    | true =>
      refine ((hc.emit rfl).emit rfl).emit ?_
      simp [Stage.take]
  · rw [Stage.held, if_neg hid] at hc ⊢
    cases e.inflight with
    | false => exact hc.emit rfl
    | true =>
      refine ((hc.emit rfl).emit rfl).emit ?_
      simp [Stage.take, Stage.idle]

theorem at_keeps : Keeps e out snap (fun events => Stage.idle.walk events = some .idle)
    (fun _ _ events => Stage.idle.walk events = some .idle)
    (fun scope leaseID _ _ events => Stage.idle.walk events = some (.held scope leaseID false) ∧
      (leaseID ≠ "" → scope ≠ "" ∧ e.leases = true)) where
  allow h := by
    split
    · exact at_allow e out h _ _
    · exact at_allow e out h _ _
  lease h ha := at_acquireLease e out snap h ha
  call h := at_releaseLease e (at_invoke e out snap h.1 _ _) h.2
  resolve h := ⟨⟨Progress.At.emit h.1 rfl, h.2⟩, at_releaseLease e (Progress.At.emit h.1 rfl) h.2⟩
  record h := at_record e h _ _ _
  sleep h := Progress.At.emit h rfl
  pick h := Progress.At.emit h rfl

/-- An execution of either kind ends with nothing on loan. -/
theorem walk_of_ran {evs : List (Event ρ)} (h : Ran e evs) : Stage.idle.walk evs = some .idle :=
  Keeps.ran (at_keeps e) rfl h

end

/-! ### What the walk counts -/

def Event.grants : Event ρ → Bool
  | .acquire scope' _ _ _ _ (.leased leaseID') => scope' = scope && leaseID' = leaseID
  | _ => false

def Event.gives : Event ρ → Bool
  | .release scope' leaseID' => scope' = scope && leaseID' = leaseID
  | _ => false

def Event.raises (scope : String) : Event ρ → Bool
  | .incr scope' => scope' = scope
  | _ => false

def Event.lowers (scope : String) : Event ρ → Bool
  | .decr scope' => scope' = scope
  | _ => false

section

variable {ev : Event ρ} (h : ev.passing = true) (scope leaseID : String)

include h

theorem grants_of_passing : ev.grants scope leaseID = false := by
  cases ev with
  | acquire _ _ _ _ _ out => cases out <;> first | rfl | cases h
  | _ => rfl

theorem gives_of_passing : ev.gives scope leaseID = false := by
  cases ev <;> first | rfl | cases h

theorem raises_of_passing : ev.raises scope = false := by
  cases ev <;> first | rfl | cases h

theorem lowers_of_passing : ev.lowers scope = false := by
  cases ev <;> first | rfl | cases h

end

section

variable {s s' : Stage} {evs : List (Event ρ)} (scope : String) {leaseID : String}

/-- The lease is held once for each grant that was not yet given back. -/
theorem walk_leases (hid : leaseID ≠ "") (h : s.walk evs = some s') :
    (if s.lease = some (scope, leaseID) then 1 else 0) + evs.countP (grants scope leaseID) =
      (if s'.lease = some (scope, leaseID) then 1 else 0) +
        evs.countP (gives scope leaseID) := by
  refine walk_count (fun s => if s.lease = some (scope, leaseID) then 1 else 0) ?_ h
  intro s s' ev ht
  rcases take_cases ht with ⟨scope', d, c, capacity, ttl, leaseID', rfl, rfl, rfl⟩ |
    ⟨scope', leaseID', rfl, hl, -, rfl⟩ | ⟨scope', rfl, -, rfl⟩ | ⟨scope', rfl, -, rfl⟩ |
    ⟨d, c, outcome, rfl, -, rfl⟩ | ⟨hp, rfl⟩
  · by_cases hs : scope' = scope ∧ leaseID' = leaseID
    · simp [grants, gives, Stage.idle, hs, hid]
    · simp [grants, gives, Stage.idle, hs]
  · simp [grants, gives, Stage.idle, hl]
  · rfl
  · rfl
  · rfl
  · rw [grants_of_passing hp, gives_of_passing hp]

/-- The count is up once for each increment that was not yet taken back. -/
theorem walk_inflight (h : s.walk evs = some s') :
    (if s.inflight = some scope then 1 else 0) + evs.countP (raises scope) =
      (if s'.inflight = some scope then 1 else 0) + evs.countP (lowers scope) := by
  refine walk_count (fun s => if s.inflight = some scope then 1 else 0) ?_ h
  intro s s' ev ht
  rcases take_cases ht with ⟨scope', d, c, capacity, ttl, leaseID', rfl, rfl, rfl⟩ |
    ⟨scope', leaseID', rfl, -, hn, rfl⟩ | ⟨scope', rfl, hn, rfl⟩ | ⟨scope', rfl, hs, rfl⟩ |
    ⟨d, c, outcome, rfl, -, rfl⟩ | ⟨hp, rfl⟩
  · simp [raises, lowers, Stage.idle]
  · simp [raises, lowers, Stage.idle, hn]
  · simp [raises, lowers, hn]
  · simp [raises, lowers, hs]
  · rfl
  · rw [raises_of_passing hp, lowers_of_passing hp]

end

end LiteAIG.Execution
