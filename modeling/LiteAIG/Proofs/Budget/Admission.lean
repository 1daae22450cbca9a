/-
When admission keeps a hard budget.

Requests interleave.  A caller builds its policy from the clock, checks the clock
against the policy's window, and only then takes the manager's lock; other callers,
settlements and the clock itself may move in between.

As long as requests for one policy take the lock in the order of their windows, the
ledger in place agrees with the log of admitted reservations.  A request that was
delayed past a rollover breaks that: its window start differs from the ledger's, so
the newer ledger is retired with all it had counted, and the next request opens that
window again at zero.
-/
import LiteAIG.Lib.Run
import LiteAIG.Proofs.Budget.Books

namespace LiteAIG.Budget

open Lib

/-! ### The machine -/

/-- A caller between building its policy and taking the lock. -/
structure Pending where
  policy : Policy
  id : String
  estimate : Int
  /-- The time `Reserve` read when its check passed. -/
  checkedAt : Option Int
  deriving DecidableEq

structure World where
  clock : Int
  manager : Manager
  pending : Nat → Option Pending
  log : List Entry

def World.new (clock : Int) : World := ⟨clock, .new clock, fun _ => none, []⟩

inductive Act
  | tick (d : Nat)
  | build (caller : Nat) (items : List PolicyItem) (who : Caller) (id : String) (estimate : Int)
  | check (caller : Nat)
  | lock (caller : Nat)
  | reconcile (policyID id : String) (actual : Int)
  | release (policyID id : String)
  | sweep

/-- What a request adds to the log under the lock.  A request that finds its id in the ledger
is answered from there and reserves nothing. -/
def admitted (m : Manager) (p : Pending) (now : Int) : List Entry :=
  match ((m.sweepLocked now).ledger p.policy now).1.reservations.lookup p.id,
      (m.reserveLocked p.policy p.id p.estimate now).1 with
  | none, .ok _ => [⟨p.policy.id, p.policy.windowStart, p.id, p.estimate, .held⟩]
  | _, _ => []

def World.step (w : World) : Act → World
  | .tick d => { w with clock := w.clock + d }
  | .build caller items who id estimate =>
    match budgetPolicyFor items who w.clock with
    | none => w
    | some policy =>
      { w with pending := Function.update w.pending caller (some ⟨policy, id, estimate, none⟩) }
  | .check caller =>
    match w.pending caller with
    | none => w
    | some p =>
      if p.policy.admissible p.id p.estimate w.clock then
        { w with
          pending := Function.update w.pending caller
            (some { p with checkedAt := some w.clock }) }
      else { w with pending := Function.update w.pending caller none }
  | .lock caller =>
    match w.pending caller with
    | none => w
    | some p =>
      match p.checkedAt with
      | none => w
      | some now =>
        { w with
          manager := (w.manager.reserveLocked p.policy p.id p.estimate now).2
          pending := Function.update w.pending caller none
          log := w.log ++ admitted w.manager p now }
  | .reconcile policyID id actual =>
    let (result, manager) := w.manager.reconcile policyID id actual
    { w with
      manager
      log := match result with
        | .error _ => w.log
        | .ok () => settleLog w.manager policyID id (.reconciled actual) w.log }
  | .release policyID id =>
    { w with
      manager := w.manager.release policyID id
      log := settleLog w.manager policyID id .released w.log }
  | .sweep => { w with manager := w.manager.sweep w.clock }

/-- The request's window is newer than the ledger in place, or it is the ledger's own and the
ledger does not have the id. -/
def Manager.Accepts (m : Manager) (p : Pending) : Prop :=
  ∀ state, m.windows.lookup p.policy.id = some state →
    state.start < p.policy.windowStart ∨
      state.start = p.policy.windowStart ∧ state.reservations.lookup p.id = none
  deriving Decidable

/-- Requests take the lock in the order of their windows, each with an id of its own. -/
def InOrder (w : World) : Act → Prop
  | .lock caller => ∀ p, w.pending caller = some p → w.manager.Accepts p
  | _ => True

instance (w : World) : (a : Act) → Decidable (InOrder w a)
  | .lock caller => inferInstanceAs (Decidable (∀ _ ∈ w.pending caller, _))
  | .tick _ | .build .. | .check _ | .reconcile .. | .release .. | .sweep => isTrue trivial

/-- A hard-mode request that succeeds leaves its window within the limit. -/
def WithinLimit (w : World) : Act → Prop
  | .lock caller =>
    ∀ p now r, w.pending caller = some p → p.checkedAt = some now → p.policy.mode = .hard →
      (w.manager.reserveLocked p.policy p.id p.estimate now).1 = .ok r →
      total (w.step (.lock caller)).log p.policy.id p.policy.windowStart ≤ p.policy.tokenLimit
  | _ => True

/-! ### Under the lock -/

variable {m : Manager} {log : List Entry} {p : Pending} {w : World}

theorem Manager.Accepts.sweepLocked (h : m.Accepts p) (now : Int) :
    (m.sweepLocked now).Accepts p := by
  unfold Manager.sweepLocked
  by_cases hd : now - m.lastSweep < sweepInterval
  · rw [if_pos hd]
    exact h
  · rw [if_neg hd]
    intro state hs
    rw [Assoc.lookup_map, Option.map_eq_some_iff] at hs
    obtain ⟨w, hw, rfl⟩ := hs
    refine (h w hw).imp_right fun hin => ⟨hin.1, ?_⟩
    show (w.reservations.filter _).lookup p.id = none
    rw [Assoc.lookup_filter, hin.2]
    rfl

theorem Manager.Accepts.start_le (h : m.Accepts p) {state : Window}
    (hs : m.windows.lookup p.policy.id = some state) : state.start ≤ p.policy.windowStart := by
  rcases h state hs with hlt | heq
  · exact hlt.le
  · exact heq.1.le

theorem Manager.Accepts.ledger (h : m.Accepts p) (now : Int) :
    (m.ledger p.policy now).1.reservations.lookup p.id = none := by
  unfold Manager.ledger
  cases hw : m.windows.lookup p.policy.id with
  | none => rfl
  | some state =>
    by_cases hs : state.start = p.policy.windowStart
    · simp only [if_pos hs]
      rcases h state hw with hlt | heq
      · omega
      · exact heq.2
    · simp only [if_neg hs]
      rfl

/-- What an accepted request does under the lock, in both books. -/
theorem Balanced.reserveLocked (hb : Balanced m log) (hin : m.Accepts p) (now : Int) :
    Balanced (m.reserveLocked p.policy p.id p.estimate now).2 (log ++ admitted m p now) ∧
      ∀ r, p.policy.mode = .hard → (m.reserveLocked p.policy p.id p.estimate now).1 = .ok r →
        total (log ++ admitted m p now) p.policy.id p.policy.windowStart ≤ p.policy.tokenLimit := by
  have hi := hin.sweepLocked now
  obtain ⟨hb', hw, hs⟩ := (hb.sweepLocked now).ledger p.policy now fun _ => hi.start_le
  have hid := hi.ledger now
  unfold admitted Manager.reserveLocked
  generalize (m.sweepLocked now).ledger p.policy now = found at *
  obtain ⟨w, m'⟩ := found
  simp only at hid hw hs hb'
  simp only [hid]
  have hc := hb'.counts _ w hw
  by_cases hf : (p.policy.mode = .hard && p.policy.tokenLimit < w.reserved +
    w.consumed + p.estimate)
      = true
  · simp only [if_pos hf, List.append_nil]
    exact ⟨hb', fun r _ hr => by cases hr⟩
  · simp only [if_neg hf]
    rw [← hs]
    refine ⟨Balanced.admits hb' hw hid p.estimate, ?_⟩
    intro r hm _
    rw [total_append, if_pos ⟨rfl, rfl⟩, ← hc]
    show w.reserved + w.consumed + p.estimate ≤ p.policy.tokenLimit
    simp only [hm, decide_true, Bool.true_and, decide_eq_true_eq] at hf
    omega

theorem Balanced.sweep (hb : Balanced m log) (now : Int) : Balanced (m.sweep now) log := by
  have hr : Balanced { m with lastSweep := 0 } log :=
    ⟨hb.distinct, hb.counts, hb.current, hb.retired, hb.older, hb.newest⟩
  exact hr.sweepLocked now

theorem Balanced.reconcile (hb : Balanced m log) (p id : String) (actual : Int) :
    Balanced (m.reconcile p id actual).2 (match (m.reconcile p id actual).1 with
      | .error _ => log
      | .ok () => Budget.settleLog m p id (.reconciled actual) log) := by
  have hs := hb.settleLog p id (Or.inl rfl : (EntryState.reconciled actual).settles actual)
  unfold Manager.reconcile
  by_cases hn : actual < 0
  · simp only [if_pos hn]
    exact hb
  · simp only [if_neg hn]
    cases hf : m.ledgerFor p id with
    | none => exact hb
    | some found => exact hs

/-! ### Whole runs -/

/-- What taking the lock does, for a caller whose check has passed. -/
theorem step_lock {caller : Nat} (hp : w.pending caller = some p) {now : Int}
    (hn : p.checkedAt = some now) :
    w.step (.lock caller) = { w with
        manager := (w.manager.reserveLocked p.policy p.id p.estimate now).2
        pending := Function.update w.pending caller none
        log := w.log ++ admitted w.manager p now } := by
  simp only [World.step, hp, hn]

theorem balanced_step (hb : Balanced w.manager w.log) {a : Act} (hin : InOrder w a) :
    Balanced (w.step a).manager (w.step a).log := by
  cases a with
  | tick d => exact hb
  | build caller items who id est =>
    unfold World.step
    dsimp only
    split <;> exact hb
  | check caller =>
    unfold World.step
    dsimp only
    split
    · exact hb
    · split <;> exact hb
  | lock caller =>
    cases hp : w.pending caller with
    | none =>
      simp only [World.step, hp]
      exact hb
    | some p =>
      cases hn : p.checkedAt with
      | none =>
        simp only [World.step, hp, hn]
        exact hb
      | some now =>
        rw [step_lock hp hn]
        exact (hb.reserveLocked (hin p hp) now).1
  | reconcile p id actual => exact hb.reconcile p id actual
  | release p id => exact hb.settleLog p id (.inr ⟨rfl, rfl⟩)
  | sweep => exact hb.sweep w.clock

theorem withinLimit_of_balanced (hb : Balanced w.manager w.log) {a : Act} (hin : InOrder w a) :
    WithinLimit w a := by
  cases a with
  | lock caller =>
    intro p now r hp hn hm hok
    rw [step_lock hp hn]
    exact (hb.reserveLocked (hin p hp) now).2 r hm hok
  | _ => trivial

/-- **Hard budgets.** In every run whose requests take the lock in the order of their windows,
whatever else happens in between, every hard-mode request that succeeds leaves the total of its
policy and window within the limit. -/
theorem hard_budget_kept (clock : Int) (acts : List Act)
    (hin : Allowed World.step InOrder (World.new clock) acts) :
    Allowed World.step WithinLimit (World.new clock) acts :=
  Allowed.mono (I := fun w => Balanced w.manager w.log) (fun _ _ hb hok => balanced_step hb hok)
    (fun _ _ hb hok => withinLimit_of_balanced hb hok) acts _ (balanced_new clock) hin

/-! ### A request delayed past a rollover -/

def hour : Int := 3600 * 1000000000

def hourlyTen : PolicyItem := ⟨"tokens", "", "", "", 1, 10, .hard, .none⟩

def anyone : Caller := ⟨"t", "p", "k"⟩

/-- The first caller passes its check in the old hour and gets the lock in the new one, after
the second caller. -/
def delayedRun : List Act :=
  [.build 0 [hourlyTen] anyone "a" 1, .check 0, .tick 1,
   .build 1 [hourlyTen] anyone "b" 10, .check 1, .lock 1, .lock 0,
   .build 2 [hourlyTen] anyone "c" 10, .check 2]

/-- The third caller finds the new hour opened again at zero: twenty tokens are admitted in it
against a limit of ten. -/
theorem delayed_request_resets_window :
    ¬ Allowed World.step WithinLimit (World.new (hour - 1)) (delayedRun ++ [.lock 2]) := by
  intro h
  rw [allowed_append] at h
  have hl := h.2.1 ⟨⟨"tokens", "", "", "", .hard, .none, 10, hour, 2 * hour⟩, "c", 10, some hour⟩
    hour ⟨"c", "tokens", 10, false⟩ (by decide +kernel) rfl rfl (by decide +kernel)
  revert hl
  decide +kernel

theorem hard_budget_kept_two_hours :
    Allowed World.step WithinLimit (World.new (hour - 1))
      [.build 0 [hourlyTen] anyone "a" 4, .check 0, .lock 0, .tick 1,
       .build 1 [hourlyTen] anyone "b" 10, .check 1, .lock 1, .reconcile "tokens" "a" 6] := by
  refine hard_budget_kept _ _ ?_
  decide +kernel

end LiteAIG.Budget
