/-
The load signal of the routing metrics.

A request that got an answer begins on its deployment when the call is over, and observes
in the accounting stage; one whose execution failed only observes.  A snapshot drops the
deployments without a recent observation, with their counts.
-/
import LiteAIG.Lib.Run

namespace LiteAIG.App

open Lib Function

/-- What the load depends on; `last` is none for the zero time. -/
structure DeploymentStats where
  inflight : Nat
  last : Option Int

abbrev RoutingMetrics := String → Option DeploymentStats

namespace RoutingMetrics

def metricsWindow : Int := 60000000000

variable (m : RoutingMetrics) (id : String)

def stateLocked : DeploymentStats := (m id).getD ⟨0, none⟩

def begin : RoutingMetrics :=
  update m id (some { m.stateLocked id with inflight := (m.stateLocked id).inflight + 1 })

/-- A count of zero stays. -/
def observe (now : Int) : RoutingMetrics :=
  update m id (some ⟨(m.stateLocked id).inflight - 1, some now⟩)

/-- What a snapshot at `now` leaves. -/
def snapshot (now : Int) : RoutingMetrics := fun id =>
  (m id).filter fun s => s.last.any fun last => now - last ≤ metricsWindow

theorem stateLocked_update (s : DeploymentStats) (id' : String) :
    stateLocked (update m id (some s)) id' = if id' = id then s else m.stateLocked id' := by
  unfold stateLocked
  by_cases h : id' = id <;> simp [h]

end RoutingMetrics

inductive LoadAct
  | begin (request : Nat) (id : String)
  | observe (request : Nat) (id : String) (now : Int)
  | snapshot (now : Int)

/-- The metrics, and the requests that began and have not yet observed. -/
structure Load where
  metrics : RoutingMetrics
  running : List (Nat × String)

namespace Load

def new : Load := ⟨fun _ => none, []⟩

variable (w : Load)

def step : LoadAct → Load
  | .begin k id => ⟨w.metrics.begin id, (k, id) :: w.running⟩
  | .observe k id now => ⟨w.metrics.observe id now, w.running.erase (k, id)⟩
  | .snapshot now => { w with metrics := w.metrics.snapshot now }

def Exact : Prop :=
  ∀ id, (w.metrics.stateLocked id).inflight = w.running.countP (·.2 = id)

/-- A request takes from a count only what it added, and a snapshot drops no count. -/
def Paired : LoadAct → Prop
  | .begin .. => True
  | .observe k id _ => 0 < (w.metrics.stateLocked id).inflight → (k, id) ∈ w.running
  | .snapshot now => ∀ id, 0 < (w.metrics.stateLocked id).inflight →
      w.metrics.snapshot now id = w.metrics id

theorem Exact.step_iff {w : Load} (h : w.Exact) (a : LoadAct) : (w.step a).Exact ↔ w.Paired a := by
  cases a with
  | begin k id =>
    refine iff_of_true (fun id' => ?_) trivial
    have hid := h id'
    simp only [step, RoutingMetrics.begin, RoutingMetrics.stateLocked_update, List.countP_cons,
      decide_eq_true_eq]
    split <;> grind
  | observe k id now =>
    simp only [Exact, step, Paired, RoutingMetrics.observe, RoutingMetrics.stateLocked_update,
      List.countP_erase, decide_eq_true_eq, h id]
    constructor
    · intro he hpos
      have hc := he id
      by_contra hn
      simp [hn] at hc
      omega
    · intro hr id'
      have hid := h id'
      by_cases he : id' = id
      · subst he
        by_cases hm : (k, id') ∈ w.running
        · simp [hm]
        · simp [hm]
          by_contra hc
          exact hm (hr (by omega))
      · simp [he, Ne.symm he, hid]
  | snapshot now =>
    simp only [Exact, step, Paired, ← h _]
    refine forall_congr' fun id => ?_
    simp only [RoutingMetrics.snapshot, RoutingMetrics.stateLocked]
    cases w.metrics id with
    | none => simp
    | some s =>
      rw [Option.filter_some]
      split
      · simp
      · simp
        omega

end Load

/-! ### Requests in turns -/

/-- How a request's execution ends. -/
inductive Ending
  /-- The provider answered. -/
  | answered (id : String)
  /-- The plan had selected a deployment. -/
  | failed (id : String)
  | unselected

inductive RequestAct
  | tick (elapsed : Nat)
  /-- The execution of a request ends. -/
  | ends (request : Nat) (ending : Ending)
  /-- The accounting stage of a request that was answered. -/
  | account (request : Nat)
  | snapshot

/-- The load, the time, and when a deployment was last observed. -/
structure Requests where
  load : Load
  clock : Int
  observed : String → Option Int

namespace Requests

def new : Requests := ⟨.new, 0, fun _ => none⟩

variable (w : Requests)

def observe (k : Nat) (id : String) : Requests :=
  { w with load := w.load.step (.observe k id w.clock), observed := update w.observed id w.clock }

/-- A request ends once, and has nothing to account for before. -/
def step : RequestAct → Requests
  | .tick elapsed => { w with clock := w.clock + elapsed }
  | .ends k ending =>
    if k ∈ w.load.running.map (·.1) then w
    else
      match ending with
      | .answered id => { w with load := w.load.step (.begin k id) }
      | .failed id => w.observe k id
      | .unselected => w
  | .account k =>
    match w.load.running.find? (·.1 = k) with
    | none => w
    | some (_, id) => w.observe k id
  | .snapshot => { w with load := w.load.step (.snapshot w.clock) }

/-- No request fails on a deployment on which another one runs, and at a snapshot every
deployment on which one runs was observed within the window. -/
def Undisturbed : RequestAct → Prop
  | .ends k (.failed id) =>
    k ∉ w.load.running.map (·.1) → id ∉ w.load.running.map (·.2)
  | .snapshot => ∀ id ∈ w.load.running.map (·.2),
      ∃ last ∈ w.observed id, w.clock - last ≤ RoutingMetrics.metricsWindow
  | _ => True

/-- The counts are right, and what was observed last is kept unless it was too long ago. -/
structure Kept : Prop where
  exact : w.load.Exact
  last : ∀ id, (w.load.metrics.stateLocked id).last = w.observed id ∨
    (w.load.metrics.stateLocked id).last = none ∧
      ∀ last ∈ w.observed id, RoutingMetrics.metricsWindow < w.clock - last

variable {w}

theorem Kept.running_iff (h : w.Kept) (id : String) :
    0 < (w.load.metrics.stateLocked id).inflight ↔ id ∈ w.load.running.map (·.2) := by
  rw [h.exact id, List.countP_pos_iff]
  simp

theorem Kept.snapshot_keeps_iff (h : w.Kept) {id : String} (hrun : id ∈ w.load.running.map (·.2)) :
    w.load.metrics.snapshot w.clock id = w.load.metrics id ↔
      ∃ last ∈ w.observed id, w.clock - last ≤ RoutingMetrics.metricsWindow := by
  rw [← h.running_iff] at hrun
  have hlast := h.last id
  simp only [RoutingMetrics.snapshot, RoutingMetrics.stateLocked] at hrun hlast ⊢
  cases hm : w.load.metrics id with
  | none => simp [hm] at hrun
  | some s =>
    simp only [hm, Option.getD_some] at hlast
    rw [Option.filter_eq_some_iff, Option.any_eq_true]
    simp only [true_and, decide_eq_true_eq]
    rcases hlast with heq | ⟨hnone, hold⟩
    · rw [heq]
      rfl
    · rw [hnone]
      refine iff_of_false (by simp) ?_
      rintro ⟨last, hl, hle⟩
      exact absurd (hold last hl) (not_lt.mpr hle)

theorem Kept.exact_step_iff (h : w.Kept) (a : RequestAct) :
    (w.step a).load.Exact ↔ w.Undisturbed a := by
  cases a with
  | tick elapsed => exact iff_of_true h.exact trivial
  | ends k ending =>
    simp only [step]
    split_ifs with hk
    · refine iff_of_true h.exact ?_
      cases ending with
      | failed id => exact fun hn => absurd hk hn
      | answered | unselected => trivial
    · cases ending with
      | answered id => exact h.exact.step_iff _
      | failed id =>
        have hpair : (k, id) ∉ w.load.running :=
          fun hm => hk (List.mem_map.mpr ⟨_, hm, rfl⟩)
        refine (h.exact.step_iff _).trans ?_
        simp only [Load.Paired, Undisturbed, hk, hpair, not_false_eq_true, true_imp_iff,
          h.running_iff, imp_false]
      | unselected => exact iff_of_true h.exact trivial
  | account k =>
    simp only [step]
    cases hf : w.load.running.find? (·.1 = k) with
    | none => exact iff_of_true h.exact trivial
    | some r =>
      obtain rfl : r.1 = k := by simpa using List.find?_some hf
      have hpair : Load.Paired w.load (.observe r.1 r.2 w.clock) :=
        fun _ => List.mem_of_find?_eq_some hf
      exact iff_of_true ((h.exact.step_iff _).mpr hpair) trivial
  | snapshot =>
    refine (h.exact.step_iff _).trans (forall_congr' fun id => ?_)
    rw [h.running_iff]
    exact imp_congr_right h.snapshot_keeps_iff

theorem Kept.observe (h : w.Kept) {k : Nat} {id : String} (he : (w.observe k id).load.Exact) :
    (w.observe k id).Kept := by
  refine ⟨he, fun id' => ?_⟩
  have hlast := h.last id'
  simp only [Requests.observe, Load.step, RoutingMetrics.observe,
    RoutingMetrics.stateLocked_update] at hlast ⊢
  by_cases hid : id' = id
  · subst hid
    simp
  · simpa [hid] using hlast

theorem Kept.step (h : w.Kept) (a : RequestAct) (he : (w.step a).load.Exact) : (w.step a).Kept := by
  cases a with
  | tick elapsed =>
    refine ⟨he, fun id => (h.last id).imp_right fun hold => ⟨hold.1, fun last hl => ?_⟩⟩
    have hlt := hold.2 last hl
    simp only [Requests.step]
    omega
  | ends k ending =>
    simp only [Requests.step] at he ⊢
    split_ifs at he ⊢ with hk
    · exact h
    · cases ending with
      | answered id =>
        refine ⟨he, fun id' => ?_⟩
        have hlast := h.last id'
        simp only [Load.step, RoutingMetrics.begin, RoutingMetrics.stateLocked_update]
        split_ifs with hid
        · exact hid ▸ hlast
        · exact hlast
      | failed id => exact h.observe he
      | unselected => exact h
  | account k =>
    simp only [Requests.step] at he ⊢
    split at he
    · exact h
    · exact h.observe he
  | snapshot =>
    refine ⟨he, fun id => ?_⟩
    have hlast := h.last id
    simp only [Requests.step, Load.step, RoutingMetrics.snapshot, RoutingMetrics.stateLocked]
      at hlast ⊢
    cases hm : w.load.metrics id with
    | none => simpa [hm] using hlast
    | some s =>
      rw [hm, Option.getD_some] at hlast
      rw [Option.filter_some]
      split_ifs with hkeep
      · exact hlast
      · -- it is dropped because what was observed is too old
        refine .inr ⟨rfl, fun last hl => ?_⟩
        rcases hlast with heq | ⟨-, hold⟩
        · by_contra hle
          exact hkeep ((Option.any_eq_true ..).mpr ⟨last, heq.trans hl, by simpa using hle⟩)
        · exact hold last hl

end Requests

/-- **The counts are those of the requests that were answered and not yet accounted for if and
only if no request fails on a deployment on which another one runs and no snapshot is taken
more than the window after the last observation of one that is in use.** -/
theorem load_exact_iff (acts : List RequestAct) :
    Allowed Requests.step (fun w a => (w.step a).load.Exact) .new acts ↔
      Allowed Requests.step Requests.Undisturbed .new acts :=
  allowed_congr_of_invariant (I := Requests.Kept) (fun _ a h => h.exact_step_iff a)
    (fun _ a h ha => h.step a ((h.exact_step_iff a).mpr ha)) acts _
    ⟨fun _ => rfl, fun _ => .inl rfl⟩

open RoutingMetrics in
/-- **A count is never above the number of requests that run on its deployment.** -/
theorem load_not_overstated (acts : List LoadAct) : ∀ id,
    ((run Load.step .new acts).metrics.stateLocked id).inflight
      ≤ (run Load.step .new acts).running.countP (·.2 = id) := by
  refine run_invariant (I := fun w : Load => ∀ id,
    (w.metrics.stateLocked id).inflight ≤ w.running.countP (·.2 = id)) (fun w a h id => ?_) acts
    fun _ => Nat.le_refl 0
  have hid := h id
  cases a with
  | begin k id' | observe k id' now =>
    simp only [Load.step, begin, observe, stateLocked_update, List.countP_cons, List.countP_erase,
      decide_eq_true_eq]
    grind
  | snapshot now =>
    simp only [Load.step, snapshot, stateLocked] at hid ⊢
    cases hm : w.metrics id <;> grind

/-- A request that failed takes the count of one that runs. -/
theorem failure_uncounts : ¬ (run Requests.step .new
    [.ends 0 (.answered "d"), .ends 1 (.failed "d")]).load.Exact :=
  fun h => absurd (h "d") (by decide +kernel)

end LiteAIG.App
