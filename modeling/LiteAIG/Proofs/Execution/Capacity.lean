/-
How many provider calls are in progress under the leases of one deployment.

Executions run side by side on one lease coordinator.  A step of the whole is one
`Acquire` or `Release` of one of them, or the start or the end of a provider call, so an
interleaving is a list of such steps in which each execution does its own in order.  A
lease has an expiry of its own: the next `Acquire` after it drops the lease, whether or
not the call it was taken for has returned, and nobody renews it meanwhile.  As long as
no `Acquire` comes that late, what is in progress is stored, and the capacity bounds it.
-/
import LiteAIG.Execution.Leases
import LiteAIG.Proofs.Execution.Probe
import LiteAIG.Proofs.Execution.Stages

namespace LiteAIG.Execution

open Lib LiteAIG.Runtime MemoryLeaseCoordinator Function Option

variable {ρ : Type} {source target : Phase}

/-! ### What an execution does to its lease -/

/-- A part of an event: a call is in progress from its start to its end. -/
inductive Part
  | acquire (scope : String) (capacity ttl : Int) (outcome : LeaseOutcome)
  | starts
  | ends
  | release (scope leaseID : String)
  deriving DecidableEq

def Event.parts : Event ρ → List Part
  | .acquire scope _ _ capacity ttl outcome => [.acquire scope capacity ttl outcome]
  | .call .. => [.starts, .ends]
  | .release scope leaseID => [.release scope leaseID]
  | .pick .. | .allow .. | .resolve .. | .incr .. | .decr .. | .record .. | .sleep .. => []

inductive Phase
  | granted | calling | called
  deriving DecidableEq

/-- A lease in the hands of an execution. -/
structure Loan where
  (scope leaseID : String)
  phase : Phase
  deriving DecidableEq

/-- The lease after its call has come from one phase to the next; a call without a lease changes
nothing. -/
def Loan.advance (source target : Phase) : Option Loan → Option (Option Loan)
  | none => some none
  | some l => if l.phase = source then some (some { l with phase := target }) else none

/-- What an execution holds after a part, if the part may happen there. -/
def Loan.take (l : Option Loan) : Part → Option (Option Loan)
  | .acquire scope _ _ (.leased leaseID) =>
    if l = none then some (if leaseID ≠ "" then some ⟨scope, leaseID, .granted⟩ else none) else none
  | .acquire .. => some l
  | .starts => Loan.advance .granted .calling l
  | .ends => Loan.advance .calling .called l
  | .release scope leaseID =>
    if l = some ⟨scope, leaseID, .granted⟩ ∨ l = some ⟨scope, leaseID, .called⟩ then some none
    else none

/-- The lease at a stage between two events. -/
def Stage.loan (s : Stage) : Option Loan :=
  s.lease.map fun (scope, leaseID) => ⟨scope, leaseID, if s.called then .called else .granted⟩

theorem take_parts {s s' : Stage} {ev : Event ρ} (h : s.take ev = some s') :
    walk Loan.take s.loan ev.parts = some s'.loan := by
  rcases take_cases h with ⟨scope, d, c, capacity, ttl, leaseID, rfl, rfl, rfl⟩ |
    ⟨scope, leaseID, rfl, hl, -, rfl⟩ | ⟨scope, rfl, -, rfl⟩ | ⟨scope, rfl, -, rfl⟩ |
    ⟨d, c, outcome, rfl, hc, rfl⟩ | ⟨hp, rfl⟩
  · by_cases hid : leaseID = ""
    · simp [Event.parts, walk, Loan.take, Stage.loan, Stage.held, Stage.idle, hid]
    · simp [Event.parts, walk, Loan.take, Stage.loan, Stage.held, Stage.idle, hid]
  · cases hc : s.called <;>
      simp [Event.parts, walk, Loan.take, Stage.loan, Stage.idle, hl, hc]
  · rfl
  · rfl
  · cases hl : s.lease <;>
      simp [Event.parts, walk, Loan.take, Loan.advance, Stage.loan, hl, hc]
  · cases ev with
    | acquire scope d c capacity ttl outcome =>
      cases outcome with
      | leased leaseID => cases hp
      | busy | failed error => rfl
    | release | incr | decr | call => cases hp
    | pick | allow | resolve | record | sleep => rfl

theorem parts_of_ran {e : Executor} {evs : List (Event ρ)} (h : Ran e evs) :
    walk Loan.take none (evs.flatMap Event.parts) = some none :=
  walk_flatMap Stage.loan (fun _ _ _ ht => take_parts ht) (walk_of_ran e h)

/-! ### Executions side by side -/

/-- A lease that was granted, with the capacity it was asked for and its expiry. -/
structure Hold extends Loan where
  (capacity expiry : Int)
  deriving DecidableEq

/-- The coordinator, and the lease each execution has. -/
structure LeaseWorld where
  coordinator : MemoryLeaseCoordinator
  holds : Nat → Option Hold

/-- One part of one of the executions, with the time, what the gate's circuit answers and what the
random source gives. -/
structure LeaseStep where
  execution : Nat
  now : Int
  circuit : Option Bool
  random : Except String LeaseBytes
  part : Part

namespace LeaseWorld

def new : LeaseWorld := ⟨.new, fun _ => none⟩

variable (w : LeaseWorld) (s : LeaseStep)

variable (scope : String)

/-- What the gate does with an `Acquire`. -/
def asked (capacity ttl : Int) : LeaseOutcome × MemoryLeaseCoordinator :=
  gateAcquire s.circuit w.coordinator scope capacity ttl s.now s.random

def enter (i : Nat) (phase : Phase) : LeaseWorld :=
  { w with holds := Function.update w.holds i ((w.holds i).map fun h => { h with phase }) }

def step : LeaseWorld :=
  match s.part with
  | .acquire scope capacity ttl _ =>
    match w.asked s scope capacity ttl with
    | (.leased leaseID, coordinator) =>
      ⟨coordinator, Function.update w.holds s.execution
        (some ⟨⟨scope, leaseID, .granted⟩, capacity, s.now + ttl⟩)⟩
    | (_, coordinator) => { w with coordinator }
  | .starts => w.enter s.execution .calling
  | .ends => w.enter s.execution .called
  | .release scope leaseID =>
    ⟨w.coordinator.release scope leaseID, Function.update w.holds s.execution none⟩

/-- What the execution was told is what the gate answers. -/
def Answers : Prop :=
  match s.part with
  | .acquire scope capacity ttl outcome => (w.asked s scope capacity ttl).1 = outcome
  | .starts | .ends | .release .. => True

instance Answers.decidable (w : LeaseWorld) (s : LeaseStep) : Decidable (w.Answers s) :=
  match s with
  | ⟨_, _, _, _, .acquire _ _ _ outcome⟩ => inferInstanceAs (Decidable (_ = outcome))
  | ⟨_, _, _, _, .starts⟩ | ⟨_, _, _, _, .ends⟩ | ⟨_, _, _, _, .release ..⟩ => isTrue trivial

/-- A lease id that is drawn is not one that somebody has. -/
def Fresh : Prop :=
  match s.part with
  | .acquire .. =>
    ∀ leaseID, newLeaseID s.random = .ok leaseID → ∀ i h, w.holds i = some h → h.leaseID ≠ leaseID
  | .starts | .ends | .release .. => True

/-- The execution has a lease of the scope, and its call has not returned. -/
def Unfinished (i : Nat) (h : Hold) : Prop :=
  w.holds i = some h ∧ h.scope = scope ∧ h.phase ≠ .called

/-- No `Acquire` on the scope comes after the expiry of a lease whose call has not returned. -/
def InTime (w : LeaseWorld) (s : LeaseStep) : Prop :=
  match s.part with
  | .acquire scope' _ _ _ => scope' = scope → ∀ i h, w.Unfinished scope i h → s.now < h.expiry
  | .starts | .ends | .release .. => True

/-- The execution has a call in progress under a lease of the scope, which was asked for with at
most this capacity. -/
def Calling (capacity : Nat) (i : Nat) : Prop :=
  ∃ h, w.holds i = some h ∧ h.scope = scope ∧ h.capacity ≤ capacity ∧ h.phase = .calling

end LeaseWorld

/-- An interleaving of executions on one coordinator: everyone is told what the gate answers and
has done a part of what it does in all. -/
structure Leasing (executions : Nat → Completed ρ) (steps : List LeaseStep) : Prop where
  answers : Allowed LeaseWorld.step LeaseWorld.Answers .new steps
  fresh : Allowed LeaseWorld.step LeaseWorld.Fresh .new steps
  part : ∀ i, doneBy LeaseStep.execution LeaseStep.part i steps <+:
    (executions i).events.flatMap Event.parts

/-! ### One step -/

section

variable {w : LeaseWorld} {s : LeaseStep} {t : Option Loan}

def LeaseWorld.loan (w : LeaseWorld) (i : Nat) : Option Loan := (w.holds i).map Hold.toLoan

theorem Loan.advance_some {l t : Option Loan} (h : Loan.advance source target l = some t) :
    (∀ x, l = some x → x.phase = source) ∧ t = l.map fun x => { x with phase := target } := by
  cases l with
  | none => exact ⟨(fun _ hc => by cases hc), (Option.some.inj h).symm⟩
  | some x =>
    simp only [Loan.advance, ite_none_right_eq_some, Option.some.injEq] at h
    refine ⟨fun y hy => ?_, h.2.symm⟩
    obtain rfl := Option.some.inj hy
    exact h.1

/-- The ways a step of an interleaving can go: the loan it leaves with its execution, and the
world. -/
inductive Went (w : LeaseWorld) (s : LeaseStep) : Option Loan → LeaseWorld → Prop
  | granted (scope : String) (capacity ttl : Int) (leaseID : String)
      (hpart : s.part = .acquire scope capacity ttl (.leased leaseID))
      (hdrawn : newLeaseID s.random = .ok leaseID)
      (hroom : (MemoryLeaseCoordinator.prune (w.coordinator.leases scope) s.now).entries.length
        < capacity) :
      Went w s (some ⟨scope, leaseID, .granted⟩)
        ⟨w.coordinator.put scope ((MemoryLeaseCoordinator.prune
            (w.coordinator.leases scope) s.now).insert leaseID (s.now + ttl)),
          Function.update w.holds s.execution
            (some ⟨⟨scope, leaseID, .granted⟩, capacity, s.now + ttl⟩)⟩
  | refused (scope : String) (capacity ttl : Int) (outcome : LeaseOutcome)
    (m : MemoryLeaseCoordinator)
      (hpart : s.part = .acquire scope capacity ttl outcome)
      (hm : m = w.coordinator ∨ m = w.coordinator.put scope
        (MemoryLeaseCoordinator.prune (w.coordinator.leases scope) s.now)) :
      Went w s (w.loan s.execution) ⟨m, w.holds⟩
  | entered (source target : Phase)
      (hphases : source = .granted ∧ target = .calling ∨ source = .calling ∧ target = .called)
      (hphase : ∀ h, w.holds s.execution = some h → h.phase = source) :
      Went w s ((w.loan s.execution).map (fun x => { x with phase := target }))
        (w.enter s.execution target)
  | returned (h : Hold) (hheld : w.holds s.execution = some h) :
      Went w s none
        ⟨w.coordinator.release h.scope h.leaseID, Function.update w.holds s.execution none⟩

theorem went_acquire {scope : String} {capacity ttl : Int} {outcome : LeaseOutcome}
    (hp : s.part = .acquire scope capacity ttl outcome) (han : w.Answers s)
    (ht : Loan.take (w.loan s.execution) s.part = some t) : Went w s t (w.step s) := by
  rcases gateAcquire_cases s.circuit w.coordinator scope capacity ttl s.now s.random with
    ⟨id, hid, hro, ha⟩ | ⟨answer, m, hr, hm, ha⟩
  · obtain rfl : .leased id = outcome := by
      simpa [LeaseWorld.Answers, hp, LeaseWorld.asked, ha] using han
    simp only [hp, Loan.take, newLeaseID_ne_empty hid, ne_eq, not_false_eq_true, if_true,
      ite_none_right_eq_some, Option.some.injEq] at ht
    simp only [LeaseWorld.step, hp, LeaseWorld.asked, ha]
    exact ht.2 ▸ .granted scope capacity ttl id hp hid hro
  · obtain rfl : answer = outcome := by
      simpa [LeaseWorld.Answers, hp, LeaseWorld.asked, ha] using han
    cases answer with
    | leased id => exact absurd rfl (hr id)
    | busy | failed error =>
      rw [hp] at ht
      obtain rfl := Option.some.inj ht
      simp only [LeaseWorld.step, hp, LeaseWorld.asked, ha]
      exact .refused scope capacity ttl _ m hp hm

theorem went_release {scope leaseID : String} (hp : s.part = .release scope leaseID)
    (ht : Loan.take (w.loan s.execution) s.part = some t) : Went w s t (w.step s) := by
  rw [hp] at ht
  simp only [Loan.take, ite_none_right_eq_some, Option.some.injEq] at ht
  obtain ⟨hl, rfl⟩ := ht
  obtain ⟨h, hh, hs, hid⟩ : ∃ h, w.holds s.execution = some h ∧ h.scope = scope ∧
      h.leaseID = leaseID := by
    rcases hl with hl | hl <;>
    · obtain ⟨h, hh, heq⟩ := map_eq_some_iff.mp hl
      exact ⟨h, hh, by rw [heq], by rw [heq]⟩
  subst hs hid
  simp only [LeaseWorld.step, hp]
  exact .returned h hh

theorem went_step (han : w.Answers s) (ht : Loan.take (w.loan s.execution) s.part = some t) :
    Went w s t (w.step s) := by
  have hph : ∀ {source target : Phase}, Loan.advance source target (w.loan s.execution) = some t →
      (∀ h, w.holds s.execution = some h → h.phase = source) ∧
        t = (w.loan s.execution).map fun x => { x with phase := target } := by
    intro source target ha
    obtain ⟨hph, hl⟩ := Loan.advance_some ha
    exact ⟨fun h hh => hph h.toLoan (by simp [LeaseWorld.loan, hh]), hl⟩
  cases hp : s.part with
  | acquire scope capacity ttl outcome => exact went_acquire hp han ht
  | starts =>
    rw [hp] at ht
    obtain ⟨hs, rfl⟩ := hph ht
    simp only [LeaseWorld.step, hp]
    exact .entered .granted .calling (.inl ⟨rfl, rfl⟩) hs
  | ends =>
    rw [hp] at ht
    obtain ⟨hs, rfl⟩ := hph ht
    simp only [LeaseWorld.step, hp]
    exact .entered .calling .called (.inr ⟨rfl, rfl⟩) hs
  | release scope lid => exact went_release hp ht

theorem loan_step (ha : w.Answers s) (ht : Loan.take (w.loan s.execution) s.part = some t) :
    (w.step s).loan = update w.loan s.execution t := by
  have hu : ∀ {m : MemoryLeaseCoordinator} {x : Option Hold}, x.map Hold.toLoan = t →
      (LeaseWorld.mk m (update w.holds s.execution x)).loan = update w.loan s.execution t := by
    rintro m x rfl
    funext i
    by_cases hi : i = s.execution
    · simp [LeaseWorld.loan, hi]
    · simp [LeaseWorld.loan, hi]
  have hw := went_step ha ht
  generalize w.step s = w' at hw ⊢
  cases hw with
  | granted => exact hu rfl
  | refused =>
    rw [update_eq_self]
    rfl
  | entered =>
    refine hu ?_
    simp only [LeaseWorld.loan, map_map]
    rfl
  | returned => exact hu rfl

end

/-! ### What is in progress is stored -/

/-- Every lease of the scope whose call has not returned is stored, no two executions have the
same, and no more of them are unfinished than the capacity they were asked for. -/
structure LeaseWorld.Covered (scope : String) (w : LeaseWorld) : Prop where
  stored : ∀ i h, w.Unfinished scope i h →
    (w.coordinator.leases scope).lookup h.leaseID = some h.expiry
  apart : ∀ i j h h', w.holds i = some h → w.holds j = some h' → h.leaseID = h'.leaseID → i = j
  bounded : ∀ (capacity : Nat) (list : List Nat), list.Nodup →
    (∀ i ∈ list, ∃ h, w.Unfinished scope i h ∧ h.capacity ≤ capacity) → list.length ≤ capacity

section

variable {w w' : LeaseWorld} {s : LeaseStep} {scope : String}

theorem covered_new : LeaseWorld.new.Covered scope where
  stored := by
    rintro i h ⟨hh, -⟩
    cases hh
  apart := by
    intro i j h h' hh
    cases hh
  bounded := by
    intro capacity list _ ha
    cases list with
    | nil => exact Nat.zero_le _
    | cons i rest =>
      obtain ⟨h, ⟨hh, -⟩, -⟩ := ha i List.mem_cons_self
      cases hh

/-- Leases may be given back and calls may return. -/
theorem LeaseWorld.Covered.mono (hw : w.Covered scope)
    (hho : ∀ i h', w'.holds i = some h' → ∃ h, w.holds i = some h ∧ h.leaseID = h'.leaseID ∧
      h.scope = h'.scope ∧ h.capacity = h'.capacity ∧ h.expiry = h'.expiry ∧
      (h.phase = .called → h'.phase = .called))
    (hs : ∀ i h, w'.Unfinished scope i h →
      (w.coordinator.leases scope).lookup h.leaseID = some h.expiry →
      (w'.coordinator.leases scope).lookup h.leaseID = some h.expiry) : w'.Covered scope := by
  have hb : ∀ {i h'}, w'.Unfinished scope i h' → ∃ h, w.Unfinished scope i h ∧
      h.leaseID = h'.leaseID ∧ h.capacity = h'.capacity ∧ h.expiry = h'.expiry := by
    rintro i h' ⟨hh', hsc, hp⟩
    obtain ⟨h, hh, hid, hsco, hcap, he, hph⟩ := hho i h' hh'
    exact ⟨h, ⟨hh, hsco.trans hsc, fun hc => hp (hph hc)⟩, hid, hcap, he⟩
  constructor
  case stored =>
    intro i h' hun
    obtain ⟨h, hu, hid, -, he⟩ := hb hun
    have := hw.stored i h hu
    rw [hid, he] at this
    exact hs i h' hun this
  case apart =>
    intro i j h h' hh hh' hsa
    obtain ⟨h₀, hh₀, hid, -⟩ := hho i h hh
    obtain ⟨h₀', hh₀', hid', -⟩ := hho j h' hh'
    exact hw.apart i j h₀ h₀' hh₀ hh₀' (hid.trans (hsa.trans hid'.symm))
  case bounded =>
    intro capacity list hnd hal
    refine hw.bounded capacity list hnd fun i hi => ?_
    obtain ⟨h', hun, hcap⟩ := hal i hi
    obtain ⟨h, hu, -, hca, -⟩ := hb hun
    exact ⟨h, hu, hca ▸ hcap⟩

variable {capacity ttl : Int} {outcome : LeaseOutcome} {scope' : String}

section

variable (hw : w.Covered scope)

include hw

section

variable (hp : s.part = .acquire scope capacity ttl outcome) (ht : w.InTime scope s)
include hp ht

/-- In time, an unfinished lease survives the pruning. -/
theorem LeaseWorld.Covered.pruned {i : Nat} {h : Hold} (hun : w.Unfinished scope i h) :
    (prune (w.coordinator.leases scope) s.now).lookup h.leaseID = some h.expiry := by
  rw [LeaseWorld.InTime, hp] at ht
  rw [prune, Assoc.lookup_filter, hw.stored i h hun]
  simp [ht rfl i h hun]

/-- The unfinished leases of distinct executions are distinct entries of what is left. -/
theorem LeaseWorld.Covered.length_le_pruned {list : List Nat} (hnd : list.Nodup)
    (ha : ∀ i ∈ list, ∃ h, w.Unfinished scope i h) :
    list.length ≤ (prune (w.coordinator.leases scope) s.now).entries.length := by
  let idOf : Nat → String := fun i => ((w.holds i).map fun h => h.leaseID).getD ""
  have hid : ∀ {i h}, w.Unfinished scope i h → idOf i = h.leaseID := by
    rintro i h ⟨hh, -⟩
    simp [idOf, hh]
  have hk : (list.map idOf).Nodup := by
    refine hnd.map_on fun i hi j hj hs => ?_
    obtain ⟨h, hun⟩ := ha i hi
    obtain ⟨h', hu⟩ := ha j hj
    rw [hid hun, hid hu] at hs
    exact hw.apart i j h h' hun.1 hu.1 hs
  rw [← List.length_map (f := idOf)]
  refine Assoc.length_le_of_lookup hk fun key hke => ?_
  obtain ⟨i, hi, rfl⟩ := List.mem_map.mp hke
  obtain ⟨h, hun⟩ := ha i hi
  exact ⟨h.expiry, by rw [hid hun]; exact hw.pruned hp ht hun⟩

end

/-- A lease is granted while there is room for it. -/
theorem LeaseWorld.Covered.grant (ht : w.InTime scope s) {leaseID : String}
    (hpa : s.part = .acquire scope' capacity ttl (.leased leaseID))
    (hf : ∀ i h, w.holds i = some h → h.leaseID ≠ leaseID)
    (hro : (prune (w.coordinator.leases scope') s.now).entries.length < capacity) :
    (LeaseWorld.mk (w.coordinator.put scope' ((prune
        (w.coordinator.leases scope') s.now).insert leaseID (s.now + ttl)))
      (update w.holds s.execution
        (some ⟨⟨scope', leaseID, .granted⟩, capacity, s.now + ttl⟩))).Covered scope := by
  have hho : ∀ {i h}, update w.holds s.execution
      (some ⟨⟨scope', leaseID, .granted⟩, capacity, s.now + ttl⟩) i = some h →
      i = s.execution ∧ h = ⟨⟨scope', leaseID, .granted⟩, capacity, s.now + ttl⟩ ∨
        i ≠ s.execution ∧ w.holds i = some h := by
    intro i h hh
    by_cases hi : i = s.execution
    · rw [hi, update_self, Option.some.injEq] at hh
      exact .inl ⟨hi, hh.symm⟩
    · rw [update_of_ne hi] at hh
      exact .inr ⟨hi, hh⟩
  constructor
  case stored =>
    rintro i h ⟨hh, hs, hp⟩
    rcases hho hh with ⟨-, rfl⟩ | ⟨-, hh⟩
    · subst hs
      simp
    · by_cases hsa : scope' = scope
      · subst hsa
        rw [leases_put_self, Assoc.lookup_insert_ne (hf i h hh)]
        exact hw.pruned hpa ht ⟨hh, hs, hp⟩
      · rw [leases_put_ne _ (Ne.symm hsa)]
        exact hw.stored i h ⟨hh, hs, hp⟩
  case apart =>
    intro i j h h' hh hh' hsa
    rcases hho hh with ⟨hi, rfl⟩ | ⟨-, hh⟩ <;> rcases hho hh' with ⟨hj, rfl⟩ | ⟨-, hh'⟩
    · rw [hi, hj]
    · exact absurd hsa.symm (hf j h' hh')
    · exact absurd hsa (hf i h hh)
    · exact hw.apart i j h h' hh hh' hsa
  case bounded =>
    intro bound list hnd hal
    -- everyone but the execution that was granted its lease was unfinished before
    have ho : ∀ i ∈ list, i ≠ s.execution → ∃ h, w.Unfinished scope i h ∧ h.capacity ≤ bound := by
      intro i hi hne
      obtain ⟨h, ⟨hh, hun⟩, hcap⟩ := hal i hi
      rcases hho hh with ⟨hc, -⟩ | ⟨-, hh⟩
      · exact absurd hc hne
      · exact ⟨h, ⟨hh, hun⟩, hcap⟩
    by_cases hm : s.execution ∈ list
    · obtain ⟨h, ⟨hh, hs, -⟩, hcap⟩ := hal s.execution hm
      rcases hho hh with ⟨-, rfl⟩ | ⟨hc, -⟩
      · subst hs
        have hr := hw.length_le_pruned hpa ht (hnd.erase s.execution) fun i hi => by
          obtain ⟨hne, hi⟩ := (hnd.mem_erase_iff).mp hi
          obtain ⟨h, hun, -⟩ := ho i hi hne
          exact ⟨h, hun⟩
        rw [List.length_erase_of_mem hm] at hr
        have hca : capacity ≤ bound := hcap
        dsimp only at hr
        omega
      · exact absurd rfl hc
    · exact hw.bounded bound list hnd fun i hi => ho i hi fun hc => hm (hc ▸ hi)

theorem LeaseWorld.Covered.refused (ht : w.InTime scope s) {m : MemoryLeaseCoordinator}
    (hp : s.part = .acquire scope' capacity ttl outcome)
    (hm : m = w.coordinator ∨ m = w.coordinator.put scope'
      (prune (w.coordinator.leases scope') s.now)) :
    (LeaseWorld.mk m w.holds).Covered scope := by
  refine hw.mono (fun i h hh => ⟨h, hh, rfl, rfl, rfl, rfl, id⟩) fun i h hun hs => ?_
  rcases hm with rfl | rfl
  · exact hs
  · show ((w.coordinator.put _ _).leases _).lookup _ = _
    by_cases hsa : scope' = scope
    · subst hsa
      rw [leases_put_self]
      exact hw.pruned hp ht hun
    · rw [leases_put_ne _ (Ne.symm hsa)]
      exact hs

theorem LeaseWorld.Covered.entered
    (hp : source = .granted ∧ target = .calling ∨ source = .calling ∧ target = .called)
    (hph : ∀ h, w.holds s.execution = some h → h.phase = source) :
    (w.enter s.execution target).Covered scope := by
  refine hw.mono (fun i h' hh' => ?_) fun i h hun hs => hs
  by_cases hi : i = s.execution
  · subst hi
    simp only [LeaseWorld.enter, update_self, map_eq_some_iff] at hh'
    obtain ⟨h, hh, rfl⟩ := hh'
    refine ⟨h, hh, rfl, rfl, rfl, rfl, fun hc => ?_⟩
    -- a call that has returned is not made again under the same lease
    rw [hph h hh] at hc
    rcases hp with ⟨rfl, -⟩ | ⟨rfl, -⟩ <;> cases hc
  · simp only [LeaseWorld.enter, update_of_ne hi] at hh'
    exact ⟨h', hh', rfl, rfl, rfl, rfl, id⟩

theorem LeaseWorld.Covered.returned {given : Hold} (hg : w.holds s.execution = some given) :
    (LeaseWorld.mk (w.coordinator.release given.scope given.leaseID)
      (update w.holds s.execution none)).Covered scope := by
  have hho : ∀ {i h}, update w.holds s.execution none i = some h →
      i ≠ s.execution ∧ w.holds i = some h := by
    intro i h hh
    by_cases hi : i = s.execution
    · simp [hi] at hh
    · rw [update_of_ne hi] at hh
      exact ⟨hi, hh⟩
  refine hw.mono (fun i h hh => ⟨h, (hho hh).2, rfl, rfl, rfl, rfl, id⟩) ?_
  rintro i h ⟨hh, hsc, -⟩ hs
  obtain ⟨hne, hh⟩ := hho hh
  have hid : h.leaseID ≠ given.leaseID := fun hc => hne (hw.apart i _ h given hh hg hc)
  show ((w.coordinator.put _ _).leases _).lookup _ = _
  by_cases hsa : given.scope = scope
  · rw [hsa, leases_put_self, Assoc.lookup_erase_ne hid]
    exact hs
  · rw [leases_put_ne _ (Ne.symm hsa)]
    exact hs

theorem LeaseWorld.Covered.step (ha : w.Answers s) (hf : w.Fresh s) (hti : w.InTime scope s)
    (hta : ∃ t, Loan.take (w.loan s.execution) s.part = some t) :
    (w.step s).Covered scope := by
  obtain ⟨t, ht⟩ := hta
  have hwe := went_step ha ht
  generalize w.step s = w' at hwe ⊢
  cases hwe with
  | granted scope' capacity ttl lid hp hd hr =>
    rw [LeaseWorld.Fresh, hp] at hf
    exact hw.grant hti hp (hf lid hd) hr
  | refused scope' capacity ttl outcome m hp hm => exact hw.refused hti hp hm
  | entered source target hph hpha => exact hw.entered hph hpha
  | returned given hg => exact hw.returned hg

end

end

/-- In an interleaving each part is one that its execution may do next. -/
theorem Leasing.enabled {executions : Nat → Completed ρ} {steps : List LeaseStep}
    (h : Leasing executions steps) :
    Allowed LeaseWorld.step (fun w s => ∃ t, Loan.take (w.loan s.execution) s.part = some t)
      .new steps := by
  have hs : ∀ (w : LeaseWorld) (s : LeaseStep) (t : Option Loan), w.Answers s →
      Loan.take (w.loan s.execution) s.part = some t →
        (w.step s).loan = update w.loan s.execution t :=
    fun _ _ _ ha ht => loan_step ha ht
  exact allowed_of_walks hs steps .new h.answers
    fun i => walk_of_prefix (parts_of_ran (executions i).ran) (h.part i)

/--
**The capacity bounds the calls in progress, as long as no lease runs out under a call.**
Of any executions on one coordinator, no more than the capacity are in a provider call
under a lease of one deployment, at every moment of every interleaving in which no
`Acquire` for the deployment comes after the expiry of a lease whose call has not returned.
-/
theorem calls_within_capacity {executions : Nat → Completed ρ} {steps : List LeaseStep}
    {scope : String} (h : Leasing executions steps)
    (htime : Allowed LeaseWorld.step (LeaseWorld.InTime scope) .new steps) {capacity : Nat}
    {calls : List Nat} (hnd : calls.Nodup)
    (hcalls : ∀ i ∈ calls, (run LeaseWorld.step .new steps).Calling scope capacity i) :
    calls.length ≤ capacity := by
  have hal := allowed_and.mpr ⟨allowed_and.mpr ⟨h.answers, h.fresh⟩,
    allowed_and.mpr ⟨htime, h.enabled⟩⟩
  have hc := hal.invariant (I := LeaseWorld.Covered scope)
    (fun _ _ hw hok => hw.step hok.1.1 hok.1.2 hok.2.1 hok.2.2) steps .new covered_new
  refine hc.bounded capacity calls hnd fun i hi => ?_
  obtain ⟨hold, hh, hs, hca, hp⟩ := hcalls i hi
  exact ⟨hold, ⟨hh, hs, by rw [hp]; decide⟩, hca⟩

section

/-- Sixteen bytes from the random source, and the lease id they make. -/
def leaseBytes (b : UInt8) : LeaseBytes := ⟨List.replicate 16 b, List.length_replicate⟩

def leaseName (b : UInt8) : String := String.ofList (hexEncode (List.replicate 16 b))

/-- The scope of the deployment's leases. -/
def leaseScope : String := "\x7btenant:t\x7d:deployment:d"

/-- Two streams on a deployment with room for one, the second with a lease as given. -/
def streams (second : LeaseOutcome) : Nat → Completed Unit
  | 0 => ⟨oneCall, _, .plan (answering (.leased (leaseName 0)) (.ok none)) oneDeployment true ["d"]⟩
  | 1 => ⟨oneCall, _, .plan (answering second (.ok none)) oneDeployment true ["d"]⟩
  | _ + 2 => ⟨oneCall, _, .plan (answering second (.ok none)) oneDeployment true []⟩

/-- The first stream has its lease for a minute and makes its call. -/
def firstStream : List LeaseStep :=
  [⟨0, 0, none, .ok (leaseBytes 0),
      .acquire leaseScope 1 60000000000 (.leased (leaseName 0))⟩,
    ⟨0, 0, none, .error "", .starts⟩]

/-- The second asks for a lease at the given time. -/
def secondAsks (now : Int) (second : LeaseOutcome) : LeaseStep :=
  ⟨1, now, none, .ok (leaseBytes 1), .acquire leaseScope 1 60000000000 second⟩

theorem firstStream_holds {i : Nat} {h : Hold}
    (hh : (run LeaseWorld.step .new firstStream).holds i = some h) :
    i = 0 ∧ h = ⟨⟨leaseScope, leaseName 0, .calling⟩, 1, 60000000000⟩ := by
  match i with
  | 0 =>
    have hz : (run LeaseWorld.step .new firstStream).holds 0 =
        some ⟨⟨leaseScope, leaseName 0, .calling⟩, 1, 60000000000⟩ := by decide +kernel
    exact ⟨rfl, (Option.some.inj (hz.symm.trans hh)).symm⟩
  | n + 1 => cases hh

/-- The first steps are drawn and taken as they may be. -/
theorem firstStream_fresh (now : Int) (second : LeaseOutcome) :
    Allowed LeaseWorld.step LeaseWorld.Fresh .new (firstStream ++ [secondAsks now second]) := by
  rw [allowed_append]
  refine ⟨⟨(fun _ _ _ _ hh => by cases hh), trivial, trivial⟩, ?_, trivial⟩
  intro lid hd i h hh
  obtain ⟨-, rfl⟩ := firstStream_holds hh
  obtain rfl := Except.ok.inj hd
  decide +kernel

/-- Asked for a second before the first lease expires, the gate is busy and one call is in
progress. -/
theorem in_time_one_stream :
    (run LeaseWorld.step .new
      (firstStream ++ [secondAsks 59000000000 .busy])).Calling leaseScope 1 0 ∧
      [0].length ≤ 1 := by
  have hr : Leasing (streams .busy) (firstStream ++ [secondAsks 59000000000 .busy]) := by
    refine ⟨by decide +kernel, firstStream_fresh _ _, fun i => ?_⟩
    match i with
    | 0 => exact ⟨[.ends, .release leaseScope (leaseName 0)], by decide +kernel⟩
    | 1 => exact ⟨[], by decide +kernel⟩
    | _ + 2 => exact ⟨[], rfl⟩
  have ht : Allowed LeaseWorld.step (LeaseWorld.InTime leaseScope) .new
      (firstStream ++ [secondAsks 59000000000 .busy]) := by
    rw [allowed_append]
    refine ⟨⟨(fun _ _ _ hun => by cases hun.1), trivial, trivial⟩, ?_, trivial⟩
    intro _ i h hun
    obtain ⟨-, rfl⟩ := firstStream_holds hun.1
    decide
  have hc : (run LeaseWorld.step .new (firstStream ++ [secondAsks 59000000000 .busy])).Calling
      leaseScope 1 0 :=
    ⟨⟨⟨leaseScope, leaseName 0, .calling⟩, 1, 60000000000⟩, by decide +kernel, rfl, le_rfl, rfl⟩
  refine ⟨hc, calls_within_capacity hr ht (List.nodup_singleton 0) fun i hi => ?_⟩
  obtain rfl := List.mem_singleton.mp hi
  exact hc

/-- Asked when the first lease has expired, the gate grants a second one, and two streams are in
progress on a deployment with room for one. -/
theorem expired_lease_second_stream :
    Leasing (streams (.leased (leaseName 1))) (firstStream ++
        [secondAsks 60000000000 (.leased (leaseName 1)),
          ⟨1, 60000000000, none, .error "", .starts⟩]) ∧
      ∀ i ∈ [0, 1], (run LeaseWorld.step .new (firstStream ++
        [secondAsks 60000000000 (.leased (leaseName 1)),
          ⟨1, 60000000000, none, .error "", .starts⟩])).Calling leaseScope 1 i := by
  refine ⟨⟨by decide +kernel, ?_, ?_⟩, ?_⟩
  · have hf := firstStream_fresh 60000000000 (.leased (leaseName 1))
    rw [allowed_append] at hf ⊢
    exact ⟨hf.1, hf.2.1, trivial, trivial⟩
  · intro i
    match i with
    | 0 => exact ⟨[.ends, .release leaseScope (leaseName 0)], by decide +kernel⟩
    | 1 => exact ⟨[.ends, .release leaseScope (leaseName 1)], by decide +kernel⟩
    | _ + 2 => exact ⟨[], rfl⟩
  · intro i hi
    simp only [List.mem_cons, List.not_mem_nil, or_false] at hi
    rcases hi with rfl | rfl
    · exact ⟨⟨⟨leaseScope, leaseName 0, .calling⟩, 1, 60000000000⟩,
        by decide +kernel, rfl, le_rfl, rfl⟩
    · exact ⟨⟨⟨leaseScope, leaseName 1, .calling⟩, 1, 120000000000⟩,
        by decide +kernel, rfl, le_rfl, rfl⟩

end

end LiteAIG.Execution
