/-
A completed task keeps its result.

A call that has claimed a task is the only one to write it, as long as the row stays
`running`: nobody claims a running row.  The one statement that takes a row away from
its call is the reaper's, and it goes by the age of the row alone.  So the result is
safe in every run in which no call is still at work on a row that has become stale,
and it is not when the remote agent takes longer than that.
-/
import LiteAIG.Proofs.A2A.Steps

namespace LiteAIG.A2A

open Lib Budget Ledger Pipeline

theorem seconds_mono {a b : Int} (h : a ≤ b) : seconds a ≤ seconds b :=
  Int.ediv_le_ediv (by norm_num) h

/-! ### One step -/

section

variable {σ τ κ : Type} {w w' : World σ τ} {a : Action} {t t' : Progress} {row : A2ATask}

theorem Stepped.keeps (h : Stepped w a w' t t') (hro : row ∈ w.tasks.rows)
    (hc : ¬ row.status.claimable)
    (hre : ∀ call request, t = .relaying call request .reap →
      ¬ A2ATaskStore.stale call.tenantID call.staleBefore row)
    (hw : ∀ call request point task, t = .relaying call request point → point.writes = some task →
      ¬ row.Is call.tenantID task.taskID) :
    ∃ row' ∈ w'.tasks.rows, row'.fixed = row.fixed ∧ row'.status = row.status ∧
      row'.result = row.result := by
  obtain ⟨row', hr, rfl | ⟨call, request, point, rfl, ht⟩⟩ := h.persists hro
  · exact ⟨row', hr, rfl, rfl, rfl⟩
  · refine ⟨row', hr, ht.fixed, ht.keeps hc ?_ ?_⟩
    · rintro rfl
      exact hre call request rfl
    · exact fun task => hw call request point task rfl

/-- No call is at work on a row that would by now be taken for abandoned. -/
def Prompt (w : Threads (World σ τ) κ Progress) (a : κ × Action) : Prop :=
  ∀ k claim, (w.own k).claims = some claim → ∀ row ∈ w.shared.tasks.rows,
    row.Is claim.1 claim.2 →
      seconds (w.shared.clock + a.2.elapsed - taskRunningTTL) ≤ row.updatedAt

instance Prompt.decidable [Fintype κ] (w : Threads (World σ τ) κ Progress) (a : κ × Action) :
    Decidable (Prompt w a) :=
  inferInstanceAs (Decidable (∀ k, ∀ _ ∈ (w.own k).claims, ∀ _ ∈ w.shared.tasks.rows, _ → _))

/-- What a call may rely on: the row it has claimed is running. -/
structure Claims (w : World σ τ) (t : Progress) : Prop where
  running : ∀ claim, t.claims = some claim →
    ∃ row ∈ w.tasks.rows, row.Is claim.1 claim.2 ∧ row.status = .running
  past : ∀ call request point, t = .relaying call request point → call.now ≤ w.clock

/-- Two calls do not claim the same task. -/
def ClaimApart (t t' : Progress) : Prop := ∀ claim, t.claims = some claim → t'.claims ≠ some claim

theorem ClaimApart.symm (t t' : Progress) (h : ClaimApart t t') : ClaimApart t' t :=
  fun claim ht' ht => h claim ht ht'

/-- The step of a call leaves the rows to the others that they have claimed. -/
theorem Stepped.others (h : Stepped w a w' t t') (hcl : w'.clock = w.clock + a.elapsed)
    (ht : Claims w t) {other : Progress} (ho : Claims w other) (ha : ClaimApart t other)
    (hpr : ∀ claim, other.claims = some claim → ∀ row ∈ w.tasks.rows,
      row.Is claim.1 claim.2 → seconds (w.clock + a.elapsed - taskRunningTTL) ≤ row.updatedAt) :
    Claims w' other := by
  refine ⟨fun claim hc => ?_, fun call req point hp => ?_⟩
  · obtain ⟨row, hrow, his, hru⟩ := ho.running claim hc
    -- the reaper's cutoff is no later than the age that is allowed
    have hr : ∀ call req, t = .relaying call req .reap →
        ¬ A2ATaskStore.stale call.tenantID call.staleBefore row := by
      intro call req hp hst
      have hn := ht.past call req .reap hp
      have hcu : seconds call.staleBefore ≤ row.updatedAt :=
        (seconds_mono (by simp only [Relay.staleBefore]; omega)).trans (hpr claim hc row hrow his)
      have hlt := (of_decide_eq_true hst).2.2
      omega
    have hw : ∀ call req point task, t = .relaying call req point →
        point.writes = some task → ¬ row.Is call.tenantID task.taskID := by
      intro call req point task hp hw hi
      have hm : t.claims = some (call.tenantID, task.taskID) := by
        rw [hp, Progress.claims, Point.claimed_of_writes hw]
        rfl
      refine ha _ hm ?_
      rw [hc, ← hi.1, ← hi.2, his.1, his.2]
    obtain ⟨row', hro, hf, hs, -⟩ :=
      h.keeps hrow (by simp [hru, Status.claimable]) hr hw
    exact ⟨row', hro, (A2ATask.is_congr hf).mpr his, hs.trans hru⟩
  · have := ho.past call req point hp
    omega

theorem Stepped.past (h : Stepped w a w' t t') (hc : w'.clock = w.clock + a.elapsed)
    (ht : ∀ call req point, t = .relaying call req point → call.now ≤ w.clock)
    (call : Relay) (req : RequestContext) (point : Point)
    (hp : t' = .relaying call req point) : call.now ≤ w'.clock := by
  cases h with
  | waits _ _ =>
    have := ht call req point hp
    omega
  | begins => cases hp; exact hc.ge
  | crashes => cases hp
  | works | states =>
    cases hp
    have := ht call _ _ rfl
    omega

/-- A claim survives the call's own step, unless that writes the outcome; a new one is the only one
on its row. -/
theorem Stepped.self (h : Stepped w a w' t t') (hclo : w'.clock = w.clock + a.elapsed)
    (ht : Claims w t) : Claims w' t' ∧ ∀ other, Claims w other → ClaimApart t other →
      ClaimApart t' other := by
  have hp := h.past hclo ht.past
  cases h.claiming with
  | none hn =>
    exact ⟨⟨by simp [hn], hp⟩, fun other _ _ => by simp [ClaimApart, hn]⟩
  | kept hclai hro =>
    refine ⟨⟨fun claim hc => ?_, hp⟩, fun other _ ha => ?_⟩
    · rw [hclai] at hc
      obtain ⟨row, hrow, his, hrun⟩ := ht.running claim hc
      obtain ⟨row', hr, hf, hru⟩ := hro claim hc row hrow his hrun
      exact ⟨row', hr, (A2ATask.is_congr hf).mpr his, hru⟩
    · intro claim hc
      exact ha claim (hclai ▸ hc)
  | first claim row row' hc hrow his hcl hr hf hrun =>
    refine ⟨⟨fun claim' hcla => ?_, hp⟩, fun other hot _ claim' hcla ho => ?_⟩
    · obtain rfl : claim = claim' := Option.some.inj (hc.symm.trans hcla)
      exact ⟨row', hr, (A2ATask.is_congr hf).mpr his, hrun⟩
    · obtain rfl : claim = claim' := Option.some.inj (hc.symm.trans hcla)
      obtain ⟨row₂, hrow₂, hi, hrun₂⟩ := hot.running claim ho
      rw [A2ATaskStore.eq_of_is hrow hrow₂ his hi, hrun₂] at hcl
      cases hcl

variable [DecidableEq κ] [BudgetLedger σ] (tok : UnifiedRequest → Int)
  {w : Threads (World σ τ) κ Progress}

/-- The claims of all calls together. -/
abbrev Claimed (w : Threads (World σ τ) κ Progress) : Prop :=
  w.Apart (fun _ => True) Claims ClaimApart

theorem Claimed.step (h : Claimed w) {a : κ × Action} (hp : Prompt w a) :
    Claimed (w.step (act tok) a) := by
  obtain ⟨k, a⟩ := a
  have hs := act_stepped tok w.shared (w.own k) a
  have hc := clock_act tok w.shared (w.own k) a
  obtain ⟨hse, ha⟩ := hs.self hc (h.own k)
  refine Threads.Apart.step ClaimApart.symm h trivial hse fun k' hk => ?_
  have hne := h.apart k k' (Ne.symm hk)
  exact ⟨hs.others hc (h.own k) (h.own k') hne (hp k'), ha _ (h.own k') hne⟩

theorem completed_step (h : Claimed w) (a : κ × Action) (hrow : row ∈ w.shared.tasks.rows)
    (hc : row.status = .completed) :
    ∃ row' ∈ (w.step (act tok) a).shared.tasks.rows, row'.fixed = row.fixed ∧
      row'.status = row.status ∧ row'.result = row.result := by
  obtain ⟨k, a⟩ := a
  refine (act_stepped tok w.shared (w.own k) a).keeps hrow
    (by simp [hc, Status.claimable]) (fun call req _ hs => ?_)
    fun call req point task hp hw his => ?_
  · have hr := (of_decide_eq_true hs).2.1
    rw [hc] at hr
    cases hr
  · -- a call that writes an outcome has the row running
    have hm : (w.own k).claims = some (call.tenantID, task.taskID) := by
      rw [hp, Progress.claims, Point.claimed_of_writes hw]
      rfl
    obtain ⟨row', hro, hi, hru⟩ := (h.own k).running _ hm
    rw [A2ATaskStore.eq_of_is hrow hro his hi, hru] at hc
    cases hc

/-! ### Whole runs -/

variable {tok}

omit [DecidableEq κ] [BudgetLedger σ] in
theorem Claimed.new (hi : ∀ k, w.own k = .idle) :
    Claimed w where
  shared := trivial
  own k := ⟨by simp [hi k, Progress.claims], by simp [hi k]⟩
  apart k k' _ := by simp [ClaimApart, hi k, Progress.claims]

/-- The row as it was, as far as the result of the task goes. -/
def Keeps (row : A2ATask) (w : Threads (World σ τ) κ Progress) : Prop :=
  ∃ row' ∈ w.shared.tasks.rows, row'.fixed = row.fixed ∧ row'.status = .completed ∧
    row'.result = row.result

theorem Keeps.step (h : Keeps row w) (hw : Claimed w) (a : κ × Action) :
    Keeps row (w.step (act tok) a) := by
  obtain ⟨row₁, hro, hf, hs, hr⟩ := h
  obtain ⟨row₂, hrow, hfi, hst, hre⟩ :=
    completed_step tok hw a hro hs
  exact ⟨row₂, hrow, hfi.trans hf, hst.trans hs, hre.trans hr⟩

/-- **In every run in which no call is at work on a row that has gone stale, a task that is
completed stays completed, with the same result.** -/
theorem completed_task_keeps_result (w : Threads (World σ τ) κ Progress)
    (hidle : ∀ k, w.own k = .idle) (before after : List (κ × Action))
    (hprompt : Allowed (Threads.step (act estimateTokens)) Prompt w (before ++ after))
    (row : A2ATask) (hrow : row ∈
      (run (Threads.step (act estimateTokens)) w before).shared.tasks.rows)
    (hcompleted : row.status = .completed) :
    ∃ row' ∈ (run (Threads.step (act estimateTokens)) w (before ++ after)).shared.tasks.rows,
      row'.fixed = row.fixed ∧ row'.status = .completed ∧ row'.result = row.result := by
  rw [allowed_append] at hprompt
  have hs : ∀ (w : Threads (World σ τ) κ Progress) a, Claimed w → Prompt w a →
      Claimed (w.step (act estimateTokens) a) := fun w a h hp => h.step estimateTokens hp
  have hm := Allowed.invariant hs before w (.new hidle) hprompt.1
  rw [run_append]
  exact (Allowed.invariant (I := fun w => Claimed w ∧ Keeps row w)
    (fun w a h hp => ⟨hs w a h.1 hp, h.2.step h.1 a⟩) after _
    ⟨hm, row, hrow, rfl, hcompleted, rfl⟩ hprompt.2).2

end

/-! ### Two calls under one key -/

/-- What the table has of each task. -/
def outcomes (w : Threads (World MemoryBudgetLedger Unit) Bool Progress) : List (Status × String) :=
  w.shared.tasks.rows.map fun row => (row.status, row.result)

/-- One call from its beginning to its answer. -/
def answeredOnce : List (Bool × Action) :=
  turns false (askedFirst.admission ++ completion "first")

theorem answered_task_keeps_result :
    ∃ row' ∈ (run relayStep twoCalls
        (answeredOnce ++ turns true
          [.begin askedAgain none none, .statement none])).shared.tasks.rows,
      row'.fixed = (askedFirst.row 0).fixed ∧ row'.status = .completed ∧ row'.result = "first" :=
  completed_task_keeps_result twoCalls (fun _ => rfl) answeredOnce
    (turns true [.begin askedAgain none none, .statement none]) (by decide +kernel)
    { askedFirst.row 0 with
      status := .completed, result := "first", hops := 1, calls := 1, attempts := 1 }
    (by decide +kernel) rfl

/-- The stream to the first client does not move for more than five minutes, and a retry takes the
task over and completes it. -/
def overtaken : List (Bool × Action) :=
  turns false askedFirst.admission ++
    [(true, ⟨302 * 1000000000, .begin askedAgain none none⟩)] ++
    turns true ([.statement none, .statement none, .reserve true ⟨.ok "r", 0, 0⟩, .approve none,
      .statement none, .statement none, .connect none] ++ completion "second")

/-- When the first stream ends, its text replaces the result, and its failure removes it. -/
theorem slow_call_overwrites_result :
    outcomes (run relayStep twoCalls overtaken) = [(.completed, "second")] ∧
      outcomes (run relayStep twoCalls (overtaken ++ turns false
          [.invoke (.streaming ["fir", "st"] none), .statement none]))
        = [(.completed, "first")] ∧
      outcomes (run relayStep twoCalls (overtaken ++ turns false
          [.invoke (.streaming ["fir"] (some (.deadline, .deadline))), .statement none]))
        = [(.failed, "")] := by
  decide +kernel

end LiteAIG.A2A
