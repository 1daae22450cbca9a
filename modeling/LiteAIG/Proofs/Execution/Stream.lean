/-
Whose chunks reach the client, and until when.

A process that was left behind keeps its writer.  Where the plan waits for the process
of an attempt before it goes on, all processes but that of the attempt under way have
returned, so nothing is written after `ExecuteStream` has; and an attempt that wrote
anything was committed when it ended, after which the plan makes no other.  The one way
to go on without waiting is the branch for a context that is done.
-/
import LiteAIG.Execution.Stream
import LiteAIG.Proofs.Execution.Bounds
import LiteAIG.Proofs.Execution.Probe

namespace LiteAIG.Execution

open Lib LiteAIG.Runtime StreamState Function PlanState List

variable {γ ρ : Type} {more : List (Delivery γ)} {a : StreamStep γ} {t : Tracking γ}

/-! ### What is asked of a stream -/

/-- The chunks that reached the writer are of one attempt, and none came after the return. -/
structure StreamState.Clean (s : StreamState γ) : Prop where
  single : ∀ x ∈ s.reached, ∀ y ∈ s.reached, x.attempt = y.attempt
  punctual : ∀ x ∈ s.reached, x.late = false

def PlanState.selects : PlanState → Bool
  | .selecting .. => true
  | .between | .draining _ | .returned => false

/-- A wait that is left because the context is done is one for a process that has returned. -/
def StreamState.Settled (s : StreamState γ) : StreamStep γ → Prop
  | .ctxDone => s.plan.selects = true → s.done ≠ none → ∃ error, s.current.process = .finished error
  | _ => True

/-! ### One step -/

/-- An attempt is under way. -/
def PlanState.attempting : PlanState → Bool
  | .selecting .. | .draining _ => true
  | .between | .returned => false

section

variable {print : Int → String} {p : StreamPolicy} {outs : List (CallOutcome ρ)}
  {s s' : StreamState γ}

/-- Nothing happens but to the timer, the activity and the context. -/
structure StreamState.Same (s s' : StreamState γ) : Prop where
  attempting : s'.plan.attempting = s.plan.attempting
  returned : s'.plan = .returned ↔ s.plan = .returned
  ended : s'.ended = s.ended
  process : ∀ k, (s'.tracking k).process = (s.tracking k).process
  committed : ∀ k, (s'.tracking k).committed = (s.tracking k).committed
  reached : s'.reached = s.reached

theorem StreamState.Same.refl (s : StreamState γ) : s.Same s :=
  ⟨rfl, Iff.rfl, rfl, fun _ => rfl, fun _ => rfl, rfl⟩

/-- An attempt that ends, or does not end so. -/
theorem close_cases (s : StreamState γ) (r : StreamEnd) :
    s.close print outs r = s ∨
      ∃ out, outs[s.ended]? = some out ∧ r.gives print out = true ∧
        s.close print outs r = { s with plan := .between, ended := s.ended + 1 } := by
  unfold close
  cases ho : outs[s.ended]? with
  | none => exact .inl rfl
  | some out =>
    by_cases hg : r.gives print out = true
    · exact .inr ⟨out, rfl, hg, by simp [hg]⟩
    · exact .inl (by simp [hg])

/-- The attempt under way ends, as the plan is told. -/
structure StreamState.Closes (print : Int → String) (outcomes : List (CallOutcome ρ))
    (s : StreamState γ) (a : StreamStep γ) (s' : StreamState γ) : Prop where
  attempting : s.plan.attempting = true
  finished : s.Settled a → ∃ error, s.current.process = .finished error
  told : ∃ (r : StreamEnd) (outcome : CallOutcome ρ), r.committed = s.current.committed ∧
    outcomes[s.ended]? = some outcome ∧ r.gives print outcome = true
  next : s' = { s with plan := .between, ended := s.ended + 1 }

theorem close_same_or_closes {r : StreamEnd} (ha : s.plan.attempting)
    (hf : s.Settled a → ∃ error, s.current.process = .finished error)
    (hc : r.committed = s.current.committed) :
    s.Same (s.close print outs r) ∨ s.Closes print outs a (s.close print outs r) := by
  rcases close_cases s r with hs | ⟨outcome, ho, hg, heq⟩
  · rw [hs]
    exact .inl (.refl s)
  · exact .inr ⟨ha, hf, ⟨r, outcome, hc, ho, hg⟩, heq⟩

/-- What a step of an execution does, and what it needs. -/
theorem streamStep_cases (print : Int → String) (p : StreamPolicy)
    (outs : List (CallOutcome ρ)) (s : StreamState γ) (a : StreamStep γ) :
    s.Same (s.step print p outs a) ∨
    s.Closes print outs a (s.step print p outs a) ∨
    (s.plan = .between ∧ s.ended < outs.length ∧ s.step print p outs a = { s with
        plan := .selecting true p.timed
        tracking := update s.tracking s.ended ⟨.running, false, false⟩ }) ∨
    (s.plan = .between ∧ s.step print p outs a = { s with plan := .returned }) ∨
    (∃ k b, s.step print p outs a = { s with
      tracking := update s.tracking k ((s.tracking k).step b)
      reached := s.reached ++ ((s.tracking k).delivers b).toList.map fun chunk =>
        ⟨k, chunk, s.plan = .returned⟩ }) := by
  cases a with
  | start =>
    by_cases hs : s.plan = .between ∧ s.ended < outs.length
    · exact .inr (.inr (.inl ⟨hs.1, hs.2, if_pos hs⟩))
    · rw [step, if_neg hs]
      exact .inl (.refl s)
  | takeResult =>
    rw [step]
    split
    · rename_i hp hpr
      exact (close_same_or_closes (by simp [hp, attempting]) (fun _ => ⟨_, hpr⟩) rfl).imp_right .inl
    · exact .inl (.refl s)
  | takeActivity =>
    rw [step]
    split
    · rename_i hp _
      refine .inl ⟨by simp [hp, attempting], by simp [hp], rfl, fun k => ?_, fun k => ?_, rfl⟩ <;>
      · by_cases hk : k = s.ended
        · subst hk
          simp [current]
        · simp [hk]
    · exact .inl (.refl s)
  | timerFires =>
    rw [step]
    split
    · rename_i hp
      exact .inl ⟨by simp [hp, attempting], by simp [hp], rfl, fun _ => rfl, fun _ => rfl, rfl⟩
    · exact .inl (.refl s)
  | drained =>
    rw [step]
    split
    · rename_i hp hpr
      exact (close_same_or_closes (by simp [hp, attempting]) (fun _ => ⟨_, hpr⟩) rfl).imp_right .inl
    · exact .inl (.refl s)
  | ctxDone =>
    rw [step]
    split
    · rename_i hp hd
      refine (close_same_or_closes (by simp [hp, attempting]) (fun hse => ?_) rfl).imp_right .inl
      exact hse (by simp [hp, selects]) (by simp [hd])
    · exact .inl (.refl s)
  | leave =>
    by_cases hl : s.plan = .between ∧ s.ended = outs.length
    · exact .inr (.inr (.inr (.inl ⟨hl.1, if_pos hl⟩)))
    · rw [step, if_neg hl]
      exact .inl (.refl s)
  | process k b => exact .inr (.inr (.inr (.inr ⟨k, b, rfl⟩)))
  | cancel error =>
    rw [step]
    split
    · exact .inl ⟨rfl, Iff.rfl, rfl, fun _ => rfl, fun _ => rfl, rfl⟩
    · exact .inl (.refl s)

/-- What a step of a process does to it. -/
theorem trackingStep_cases (t : Tracking γ) (a : ProcessStep γ) :
    (t.step a = t ∧ t.delivers a = none) ∨
    (∃ chunk, t.process = .running ∧ t.delivers a = none ∧
      t.step a = { t with process := .storing chunk, committed := true }) ∨
    (∃ chunk, t.process = .storing chunk ∧ t.delivers a = some chunk ∧
      t.step a = { t with process := .wrote }) ∨
    (∃ taken, t.process = .wrote ∧ t.delivers a = none ∧
      t.step a = { t with process := .running, activity := t.activity || taken }) ∨
    (∃ error, t.process = .running ∧ t.delivers a = none ∧
      t.step a = { t with process := .finished error }) := by
  obtain ⟨process, committed, activity⟩ := t
  cases process <;> cases a <;> simp [Tracking.step, Tracking.delivers]

end

/-! ### One attempt at a time -/

/-- How many attempts have begun. -/
def StreamState.begun (s : StreamState γ) : Nat := s.ended + if s.plan.attempting then 1 else 0

/-- The processes of all attempts but the one under way have not started or have returned, and an
attempt that ended committed was a final call of the plan. -/
structure StreamState.Orderly (calls : List (CallMade ρ)) (s : StreamState γ) : Prop where
  begun_le : s.begun ≤ calls.length
  later : ∀ k, s.begun ≤ k → (s.tracking k).process = .waiting ∧ (s.tracking k).committed = false
  earlier : ∀ k < s.ended, ∃ error, (s.tracking k).process = .finished error
  final : ∀ k < s.ended, (s.tracking k).committed = true →
    ∀ call, calls[k]? = some call → call.Final false true
  writing : ∀ k, (∃ chunk, (s.tracking k).process = .storing chunk) ∨
    (s.tracking k).process = .wrote →
    (s.tracking k).committed = true
  reached : ∀ x ∈ s.reached, (s.tracking x.attempt).committed = true ∧ x.late = false

section

variable {print : Int → String} {p : StreamPolicy} {calls : List (CallMade ρ)}
  {s s' : StreamState γ}

theorem orderly_new : (new : StreamState γ).Orderly calls where
  begun_le := Nat.zero_le _
  later _ _ := ⟨rfl, rfl⟩
  earlier k hk := absurd hk (Nat.not_lt_zero k)
  final k hk := absurd hk (Nat.not_lt_zero k)
  writing k hk := by rcases hk with ⟨_, hk⟩ | hk <;> cases hk
  reached x hx := by cases hx

/-- A process that is neither waiting nor finished is that of the attempt under way. -/
theorem StreamState.Orderly.active (h : s.Orderly calls) {k : Nat}
    (hw : (s.tracking k).process ≠ .waiting)
    (hf : ∀ error, (s.tracking k).process ≠ .finished error) :
    k = s.ended ∧ s.plan.attempting = true := by
  have hb : k < s.begun := by
    by_contra hle
    exact hw (h.later k (not_lt.mp hle)).1
  have he : ¬ k < s.ended := by
    intro hlt
    obtain ⟨error, her⟩ := h.earlier k hlt
    exact hf error her
  unfold begun at hb
  cases hp : s.plan.attempting with
  | false =>
    rw [hp] at hb
    exact absurd (by simpa using hb) he
  | true =>
    rw [hp, if_pos rfl] at hb
    exact ⟨by omega, rfl⟩

theorem StreamState.Orderly.same (h : s.Orderly calls) (hs : s.Same s') : s'.Orderly calls := by
  have hb : s'.begun = s.begun := by
    unfold begun
    rw [hs.ended, hs.attempting]
  constructor
  case begun_le => rw [hb]; exact h.begun_le
  case later =>
    intro k hk
    rw [hs.process, hs.committed]
    exact h.later k (hb ▸ hk)
  case earlier =>
    intro k hk
    rw [hs.process]
    exact h.earlier k (hs.ended ▸ hk)
  case final =>
    intro k hk hc
    rw [hs.committed] at hc
    exact h.final k (hs.ended ▸ hk) hc
  case writing =>
    intro k hk
    rw [hs.process] at hk
    rw [hs.committed]
    exact h.writing k hk
  case reached =>
    intro x hx
    rw [hs.committed]
    exact h.reached x (hs.reached ▸ hx)

/-- A call that ends committed is the last of its plan. -/
theorem final_of_gives {r : StreamEnd} {call : CallMade ρ} (hco : r.committed)
    (hg : r.gives print call.outcome) : call.Final false true := by
  unfold CallMade.Final
  cases ho : call.outcome with
  | ok resp => trivial
  | failed f =>
    rw [ho] at hg
    simp only [StreamEnd.gives, Bool.and_eq_true, decide_eq_true_eq] at hg
    have hf : r.error.any StreamError.isFirstToken = false := by
      by_contra hc
      have := r.uncommitted (by simpa using hc)
      simp [hco] at this
    exact ⟨.inr (hg.1.2.trans hf), .inr ⟨rfl, hg.2.trans hco⟩⟩

section

variable (h : s.Orderly calls)

include h

theorem StreamState.Orderly.closes (hs : s.Settled a)
    (hc : s.Closes print (calls.map CallMade.outcome) a s') : s'.Orderly calls := by
  obtain ⟨ha, hf, ⟨r, outcome, hco, ho, hg⟩, rfl⟩ := hc
  have hb : s.begun = s.ended + 1 := by rw [begun, if_pos ha]
  constructor
  case begun_le => exact hb ▸ h.begun_le
  case later => exact fun k hk => h.later k (hb ▸ hk)
  case earlier =>
    intro k hk
    rcases Nat.lt_succ_iff_lt_or_eq.mp hk with hlt | rfl
    · exact h.earlier k hlt
    · exact hf hs
  case final =>
    intro k hk hkc call hca
    rcases Nat.lt_succ_iff_lt_or_eq.mp hk with hlt | rfl
    · exact h.final k hlt hkc call hca
    · rw [List.getElem?_map, hca, Option.map_some, Option.some.injEq] at ho
      rw [← ho] at hg
      exact final_of_gives (hco.trans hkc) hg
  case writing => exact h.writing
  case reached => exact h.reached

theorem StreamState.Orderly.touch {plan : PlanState}
    (ha : plan.attempting) (hle : s.ended + 1 ≤ calls.length)
    (hke : (s.tracking s.ended).committed = true → t.committed = true)
    (hwr : (∃ chunk, t.process = .storing chunk) ∨ t.process = .wrote → t.committed = true)
    (hm : ∀ x ∈ more, x.attempt = s.ended ∧ t.committed = true ∧ x.late = false) :
    ({ s with
        plan := plan
        tracking := update s.tracking s.ended t
        reached := s.reached ++ more } : StreamState γ).Orderly calls := by
  constructor
  case begun_le => simpa [begun, ha] using hle
  case later =>
    intro k hk
    have hk : s.ended + 1 ≤ k := by simpa [begun, ha] using hk
    have hb : s.begun ≤ s.ended + 1 := by
      unfold begun
      split <;> omega
    simp only [update_of_ne (show k ≠ s.ended by omega)]
    exact h.later k (hb.trans hk)
  case earlier =>
    intro k hk
    simp only [update_of_ne (show k ≠ s.ended from Nat.ne_of_lt hk)]
    exact h.earlier k hk
  case final =>
    intro k hk
    simp only [update_of_ne (show k ≠ s.ended from Nat.ne_of_lt hk)]
    exact h.final k hk
  case writing =>
    intro k hk
    by_cases heq : k = s.ended
    · subst heq
      simp only [update_self] at hk ⊢
      exact hwr hk
    · simp only [update_of_ne heq] at hk ⊢
      exact h.writing k hk
  case reached =>
    intro x hx
    rcases mem_append.mp hx with hx | hx
    · have hx := h.reached x hx
      by_cases heq : x.attempt = s.ended
      · rw [heq] at hx ⊢
        simp only [update_self]
        exact ⟨hke hx.1, hx.2⟩
      · simpa only [update_of_ne heq] using hx
    · obtain ⟨hat, hc, hl⟩ := hm x hx
      rw [hat]
      simp only [update_self]
      exact ⟨hc, hl⟩

theorem StreamState.Orderly.start (hp : s.plan = .between) (hr : s.ended < calls.length) :
    ({ s with
        plan := .selecting true p.timed
        tracking := update s.tracking s.ended ⟨.running, false, false⟩ } :
      StreamState γ).Orderly calls := by
  have hf := h.later s.ended (by simp [begun, hp, attempting])
  rw [← append_nil s.reached]
  exact h.touch rfl hr (by simp [hf.2]) (by simp) (by simp)

theorem StreamState.Orderly.moves {k : Nat} (hw : (s.tracking k).process ≠ .waiting)
    (hf : ∀ error, (s.tracking k).process ≠ .finished error)
    (hke : (s.tracking k).committed = true → t.committed = true)
    (hwr : (∃ chunk, t.process = .storing chunk) ∨ t.process = .wrote → t.committed = true)
    (hm : ∀ x ∈ more, x.attempt = k ∧ t.committed = true ∧ x.late = false) :
    ({ s with tracking := update s.tracking k t, reached := s.reached ++ more } :
      StreamState γ).Orderly calls := by
  obtain ⟨rfl, ha⟩ := h.active hw hf
  have hb : s.begun = s.ended + 1 := by rw [begun, if_pos ha]
  exact h.touch ha (hb ▸ h.begun_le) hke hwr hm

theorem StreamState.Orderly.process (k : Nat) (a : ProcessStep γ) :
    ({ s with
        tracking := update s.tracking k ((s.tracking k).step a)
        reached := s.reached ++ ((s.tracking k).delivers a).toList.map fun chunk =>
          ⟨k, chunk, s.plan = .returned⟩ } : StreamState γ).Orderly calls := by
  rcases trackingStep_cases (s.tracking k) a with ⟨hs, hn⟩ | ⟨chunk, hp, hn, hs⟩ |
    ⟨chunk, hp, hso, hs⟩ | ⟨taken, hp, hn, hs⟩ |
    ⟨error, hp, hn, hs⟩
  · rw [hs, hn, update_eq_self]
    simpa using h
  · rw [hs, hn]
    refine h.moves ?_ ?_ ?_ ?_ ?_ <;> simp [hp]
  · have hco := h.writing k (.inl ⟨chunk, hp⟩)
    obtain ⟨-, ha⟩ := h.active (k := k) (by simp [hp]) (by simp [hp])
    have hr : s.plan ≠ .returned := by
      intro hc
      rw [hc] at ha
      cases ha
    rw [hs, hso]
    refine h.moves ?_ ?_ ?_ ?_ ?_ <;> simp [hp, hco, hr]
  · rw [hs, hn]
    refine h.moves ?_ ?_ ?_ ?_ ?_ <;> simp [hp]
  · rw [hs, hn]
    refine h.moves ?_ ?_ ?_ ?_ ?_ <;> simp [hp]

theorem StreamState.Orderly.step (a : StreamStep γ) (hse : s.Settled a) :
    (s.step print p (calls.map CallMade.outcome) a).Orderly calls := by
  rcases streamStep_cases print p (calls.map CallMade.outcome) s a with hsa | hc |
    ⟨hp, hr, hs⟩ | ⟨hp, hs⟩ | ⟨k, b, hs⟩
  · exact h.same hsa
  · exact h.closes hse hc
  · rw [hs]
    exact h.start hp (by simpa using hr)
  · rw [hs]
    have hb : s.begun = s.ended := by simp [begun, hp, attempting]
    exact ⟨hb ▸ h.begun_le, fun k hk => h.later k (hb ▸ hk), h.earlier, h.final, h.writing,
      h.reached⟩
  · rw [hs]
    exact h.process k b

/-- Two attempts that wrote something are one. -/
theorem StreamState.Orderly.clean (hs : ∀ call ∈ calls.dropLast, ¬ call.Final false true) :
    s.Clean := by
  have hl : ∀ {i j}, (s.tracking i).committed = true → (s.tracking j).committed = true →
      ¬ i < j := by
    intro i j hi hj hlt
    have hb : j < s.begun := by
      by_contra hle
      rw [(h.later j (not_lt.mp hle)).2] at hj
      cases hj
    have hle := h.begun_le
    have he : i < s.ended := by
      unfold begun at hb
      split at hb <;> omega
    have hlen : i < calls.length := by omega
    have hm : calls[i] ∈ calls.dropLast := by
      rw [mem_iff_getElem]
      refine ⟨i, ?_, ?_⟩
      · rw [length_dropLast]
        omega
      · rw [getElem_dropLast]
    exact hs _ hm (h.final i he hi _ (List.getElem?_eq_getElem _))
  constructor
  · intro x hx y hy
    have hxy := hl (h.reached x hx).1 (h.reached y hy).1
    have hyx := hl (h.reached y hy).1 (h.reached x hx).1
    omega
  · exact fun x hx => (h.reached x hx).2

end

end

/--
**What reaches the client is of one attempt, and nothing comes after the return.**  This holds
along every interleaving of the plan, its timers, its context and the provider processes in which
the plan leaves no wait for a process that has not returned.
-/
theorem stream_clean (e : Executor) (out : Outside ρ) (snapshot : TenantRuntimeSnapshot)
    (fallback : List String) (print : Int → String) (policy : StreamPolicy)
    (steps : List (StreamStep γ))
    (h : Allowed (StreamState.step print policy
        ((callsOf (e.runPlan out snapshot true fallback).1.events).map CallMade.outcome))
      StreamState.Settled .new steps) :
    (run (StreamState.step print policy
      ((callsOf (e.runPlan out snapshot true fallback).1.events).map CallMade.outcome))
      .new steps).Clean := by
  have ho := h.invariant (I := Orderly _) (fun _ a hs hse => hs.step a hse)
    steps .new orderly_new
  exact ho.clean (within_runPlan e out snapshot true fallback).stops

section

/-- One attempt on each deployment, two at most. -/
def onePass : Executor := ⟨⟨1, 2, 0, 0⟩, false, false, false, false⟩

def twoDeployments : TenantRuntimeSnapshot :=
  newTenantSnapshot { TenantSnapshotData.zero with
    tenantID := "t"
    deployments := [⟨"d", "p", "c", "m", "eu", "active", "", [], 8192, 1⟩,
      ⟨"e", "p", "c", "m", "eu", "active", "", [], 8192, 1⟩] }

/-- A stream that is cut off, before or after its first chunk. -/
def cutOff (retryable committed : Bool) : Outside Unit :=
  answering .busy
    (.failed ⟨"context deadline exceeded", "upstream_transport_error", retryable, false, committed⟩)

def outcomesOf (out : Outside Unit) : List (CallOutcome Unit) :=
  (callsOf (onePass.runPlan out twoDeployments true ["d", "e"]).1.events).map CallMade.outcome

def noDeadlines : StreamPolicy := ⟨0, 0⟩

/-- The deadline passes when the process has returned. -/
def settledSteps : List (StreamStep String) :=
  [.start, .process 0 (.store "a"), .process 0 .write, .process 0 (.signal true),
    .process 0 (.finish (some "context deadline exceeded")), .cancel "context deadline exceeded",
    .ctxDone, .leave]

theorem settled_stream_clean :
    (run (StreamState.step toString noDeadlines
      (outcomesOf (cutOff true true))) .new settledSteps).reached
        = [⟨0, "a", false⟩] ∧
      (run (StreamState.step toString noDeadlines (outcomesOf (cutOff true true))) .new
        settledSteps).Clean := by
  refine ⟨by decide +kernel, stream_clean onePass (cutOff true true) twoDeployments ["d", "e"]
    toString noDeadlines settledSteps ?_⟩
  exact ⟨trivial, trivial, trivial, trivial, trivial, trivial,
    fun _ _ => ⟨some "context deadline exceeded", by decide +kernel⟩, trivial, trivial⟩

/-- The deadline passes before the first chunk, twice. -/
def abandonedSteps : List (StreamStep String) :=
  [.start, .cancel "context deadline exceeded", .ctxDone, .start, .process 0 (.store "a"),
    .process 0 .write, .ctxDone, .leave, .process 1 (.store "b"), .process 1 .write]

/-- The process of the first attempt writes during the second, and that of the second after
`ExecuteStream` has returned. -/
theorem abandoned_processes_write :
    (run (StreamState.step toString noDeadlines (outcomesOf (cutOff true false))) .new
      abandonedSteps).reached = [⟨0, "a", false⟩, ⟨1, "b", true⟩] ∧
      ¬ (run (StreamState.step toString noDeadlines (outcomesOf (cutOff true false))) .new
        abandonedSteps).Clean := by
  refine ⟨by decide +kernel, fun hclean => ?_⟩
  exact absurd (hclean.punctual ⟨1, "b", true⟩ (by decide +kernel)) (by decide)

end

end LiteAIG.Execution
