/-
A probe that is out has a call behind it.

Executions run side by side and share one breaker.  A step of the whole is one
`Allow` or `Record` of one of them, taken under the entry's lock, so an interleaving
is a list of such steps.  An entry comes to be half open with its probe taken only in
an `Allow` that admits a call, and the next `Record` on its key takes it out of that
state again, whoever calls it.  What this leaves open, whether the admitted call is
ever reported, is what `Proofs/Execution/Reports.lean` settles.
-/
import LiteAIG.Proofs.Execution.Reports

namespace LiteAIG.Execution

open Lib LiteAIG.Runtime

variable {ρ : Type}

/-! ### One step of the breaker -/

/-- Half open with its probe taken: nothing is admitted until something is recorded. -/
def CircuitEntry.Stuck (item : CircuitEntry) : Prop :=
  item.state = .halfOpen ∧ item.probeTaken = true

def Breaker.Stuck (b : Breaker) (key : String) : Prop :=
  ∃ item, b.entries.lookup key = some item ∧ item.Stuck

section

variable {b : Breaker} {d c key : String} {item : CircuitEntry} {now : Int}

@[simp] theorem notifyLocked_stuck {source target : CircuitState} {reason : String} :
    (b.notifyLocked d c source target reason now).Stuck key ↔ b.Stuck key := Iff.rfl

theorem put_stuck (h : (b.put d c item).Stuck key) :
    key = circuitKey d c ∧ item.Stuck ∨ key ≠ circuitKey d c ∧ b.Stuck key := by
  obtain ⟨found, hf, hs⟩ := h
  by_cases hk : key = circuitKey d c
  · left
    subst hk
    rw [Breaker.put, Assoc.lookup_insert_self] at hf
    obtain rfl := Option.some.inj hf
    exact ⟨rfl, hs⟩
  · right
    rw [Breaker.put, Assoc.lookup_insert_ne hk] at hf
    exact ⟨hk, found, hf, hs⟩

theorem get_of_stuck (h : b.Stuck (circuitKey d c)) : (b.get d c).Stuck := by
  obtain ⟨item, hi, hs⟩ := h
  rw [Breaker.get, hi]
  exact hs

/-- `Allow` makes an entry stuck only by admitting a call. -/
theorem allow_stuck (h : (b.allow d c now).2.Stuck key) :
    b.Stuck key ∨ key = circuitKey d c ∧ (b.allow d c now).1 = true := by
  -- a branch that writes the entry admits a call
  have hpu : ∀ {b' : Breaker} {item : CircuitEntry}, (b'.put d c item).Stuck key →
      b'.Stuck key ∨ key = circuitKey d c := by
    intro b' item ho
    rcases put_stuck ho with ⟨hk, -⟩ | ⟨-, ho⟩
    · exact .inr hk
    · exact .inl ho
  -- a half-open entry and one in an unknown state are treated alike
  have hp : (if (b.get d c).probeTaken then (false, b)
        else (true, b.put d c ((b.get d c).takeProbe now))).2.Stuck key →
      b.Stuck key ∨ key = circuitKey d c ∧ (if (b.get d c).probeTaken then (false, b)
        else (true, b.put d c ((b.get d c).takeProbe now))).1 = true := by
    intro ho
    by_cases hpr : (b.get d c).probeTaken = true
    · rw [if_pos hpr] at ho
      exact .inl ho
    · rw [if_neg hpr] at ho ⊢
      exact (hpu ho).imp_right fun hk => ⟨hk, rfl⟩
  unfold Breaker.allow at h ⊢
  cases hs : (b.get d c).state with
  | closed =>
    simp only [hs] at h
    exact .inl h
  | «open» =>
    simp only [hs] at h ⊢
    by_cases hc : b.cooling (b.get d c) now = true
    · rw [if_pos hc] at h
      exact .inl h
    · rw [if_neg hc] at h ⊢
      rcases hpu h with ho | hk
      · exact (hpu (notifyLocked_stuck.mp ho)).imp_right fun hk => ⟨hk, rfl⟩
      · exact .inr ⟨hk, rfl⟩
  | halfOpen =>
    simp only [hs] at h ⊢
    exact hp h
  | other =>
    simp only [hs] at h ⊢
    exact hp h

/-- What `Record` leaves in its own entry is not stuck, and it touches no other. -/
theorem record_stuck {success : Bool} (h : (b.record d c success now).Stuck key) :
    key ≠ circuitKey d c ∧ b.Stuck key := by
  -- in each branch that writes, the state written is not half open
  have hp : ∀ {item : CircuitEntry}, item.state ≠ .halfOpen → (b.put d c item).Stuck key →
      key ≠ circuitKey d c ∧ b.Stuck key := by
    intro item hs ho
    rcases put_stuck ho with ⟨-, hst⟩ | ho
    · exact absurd hst.1 hs
    · exact ho
  have hsa : (b.get d c).state ≠ .halfOpen →
      (if ((b.get d c).sampled success).samples ≥ b.config.minSamples ∧
          toFloat64 (toFloat64 ((b.get d c).sampled success).failures /
            toFloat64 ((b.get d c).sampled success).samples) > b.config.errorRate then
        (b.put d c { (b.get d c).sampled success with
          openCount := 1, openedAt := now, probeTaken := false, state := .open }).notifyLocked d c
            .closed .open "" now
      else b.put d c ((b.get d c).sampled success)).Stuck key →
      key ≠ circuitKey d c ∧ b.Stuck key := by
    intro hs ho
    split at ho
    · exact hp (by simp) (notifyLocked_stuck.mp ho)
    · exact hp (show ((b.get d c).sampled success).state ≠ .halfOpen from hs) ho
  unfold Breaker.record at h
  cases hs : (b.get d c).state with
  | halfOpen =>
    simp only [hs] at h
    cases success with
    | true => exact hp (by simp) (notifyLocked_stuck.mp h)
    | false => exact hp (by simp) (notifyLocked_stuck.mp h)
  | «open» =>
    simp only [hs] at h
    refine ⟨?_, h⟩
    rintro rfl
    have := (get_of_stuck h).1
    simp [hs] at this
  | closed =>
    simp only [hs] at h
    exact hsa (by simp [hs]) h
  | other =>
    simp only [hs] at h
    exact hsa (by simp [hs]) h

end

/-! ### Executions side by side -/

/-- An execution that took place. -/
structure Completed (ρ : Type) where
  executor : Executor
  events : List (Event ρ)
  ran : Ran executor events

/-- One `Allow` or `Record` of one of the executions. -/
structure CircuitStep where
  execution : Nat
  now : Int
  op : CircuitOp

def Breaker.take (b : Breaker) (s : CircuitStep) : Breaker :=
  match s.op with
  | .allow d c _ => (b.allow d c s.now).2
  | .record d c success => b.record d c success s.now

/-- What the execution was told is what the breaker answers. -/
def Breaker.Answers (b : Breaker) (s : CircuitStep) : Prop :=
  match s.op with
  | .allow d c admitted => (b.allow d c s.now).1 = admitted
  | .record .. => True

instance (b : Breaker) (s : CircuitStep) : Decidable (b.Answers s) :=
  match s with
  | ⟨_, _, .allow _ _ admitted⟩ => inferInstanceAs (Decidable (_ = admitted))
  | ⟨_, _, .record ..⟩ => isTrue trivial

/-- What an execution did so far. -/
def opsOf (i : Nat) (steps : List CircuitStep) : List CircuitOp :=
  (steps.filter fun s => s.execution = i).map CircuitStep.op

theorem opsOf_snoc (i : Nat) (steps : List CircuitStep) (s : CircuitStep) :
    opsOf i (steps ++ [s]) = opsOf i steps ++ if s.execution = i then [s.op] else [] := by
  unfold opsOf
  rw [List.filter_append, List.map_append]
  by_cases h : s.execution = i <;> simp [h]

/-- An interleaving of executions on one breaker: everyone is told what the breaker answers and
has done a part of what it does in all. -/
structure Interleaved (executions : Nat → Completed ρ) (b : Breaker) (steps : List CircuitStep) :
    Prop where
  answers : Allowed Breaker.take Breaker.Answers b steps
  part : ∀ i, opsOf i steps <+: circuitOps (executions i).events

section

variable {executions : Nat → Completed ρ} {b : Breaker} {steps : List CircuitStep}

theorem Interleaved.before {s : CircuitStep} (h : Interleaved executions b (steps ++ [s])) :
    Interleaved executions b steps := by
  refine ⟨((allowed_append _ _ _).mp h.answers).1, fun i => ?_⟩
  have hp := h.part i
  rw [opsOf_snoc] at hp
  exact (List.prefix_append _ _).trans hp

theorem Interleaved.nonneg (h : Interleaved executions b steps) (i : Nat) (d c : String) :
    0 ≤ outstanding d c (opsOf i steps) :=
  (owes_of_ran (executions i).ran).before d c _ (h.part i)

/-- A step leaves the calls outstanding on another key alone, and admitting a call adds one. -/
theorem outstanding_step (i : Nat) (d c : String) (s : CircuitStep) :
    outstanding d c (opsOf i (steps ++ [s]))
      = outstanding d c (opsOf i steps) + if s.execution = i then s.op.delta d c else 0 := by
  rw [opsOf_snoc, outstanding_append]
  by_cases h : s.execution = i <;> simp [h, outstanding]

/-- Along every interleaving, a stuck entry has a call outstanding. -/
theorem Interleaved.probe_out (h : Interleaved executions b steps) (hb : ∀ key, ¬ b.Stuck key) :
    ∀ key, (run Breaker.take b steps).Stuck key →
      ∃ i d c, circuitKey d c = key ∧ 0 < outstanding d c (opsOf i steps) := by
  induction steps using List.reverseRecOn with
  | nil => intro key hs; exact absurd hs (hb key)
  | append_singleton steps s ih =>
    intro key hs
    have han := ((allowed_append _ _ _).mp h.answers).2.1
    rw [run_append, run_cons, run_nil] at hs
    obtain ⟨i', now, op⟩ := s
    cases op with
    | allow d' c' admitted =>
      rcases allow_stuck hs with hold | ⟨hk, had⟩
      · obtain ⟨i, d, c, hk, hp⟩ := ih h.before key hold
        refine ⟨i, d, c, hk, ?_⟩
        have hd : 0 ≤ (CircuitOp.allow d' c' admitted).delta d c := by
          cases admitted
          · exact le_rfl
          · simp only [CircuitOp.delta]
            split <;> decide
        rw [outstanding_step]
        show 0 < _ + if i' = i then (CircuitOp.allow d' c' admitted).delta d c else 0
        split <;> omega
      · have hp := h.before.nonneg i' d' c'
        refine ⟨i', d', c', hk.symm, ?_⟩
        obtain rfl : true = admitted := had.symm.trans han
        rw [outstanding_step]
        simp only [CircuitOp.delta, and_self, if_true]
        omega
    | record d' c' success =>
      obtain ⟨hne, hold⟩ := record_stuck hs
      obtain ⟨i, d, c, hk, hp⟩ := ih h.before key hold
      refine ⟨i, d, c, hk, ?_⟩
      have ho : ¬ (d' = d ∧ c' = c) := by
        rintro ⟨rfl, rfl⟩
        exact hne hk.symm
      rw [outstanding_step]
      simpa [CircuitOp.delta, ho] using hp

end

/-! ### Every admitted call is reported -/

/--
**An execution reports every call it was admitted to exactly if the lease gate and the
credential resolver refused it nothing.**  Where no execution on a breaker is refused anything,
an entry that is half open with its probe taken has a call outstanding, in an execution that
is still under way.
-/
theorem admitted_reported_iff_unrefused :
    (∀ x : Completed ρ, Reported (circuitOps x.events) ↔
      (x.executor.circuit = true → Unrefused x.events)) ∧
    (∀ (executions : Nat → Completed ρ) (b : Breaker) (steps : List CircuitStep),
      (∀ key, ¬ b.Stuck key) → Interleaved executions b steps →
      (∀ i, (executions i).executor.circuit = true → Unrefused (executions i).events) →
      ∀ key, (run Breaker.take b steps).Stuck key →
        ∃ i d c, circuitKey d c = key ∧ 0 < outstanding d c (opsOf i steps) ∧
          opsOf i steps ≠ circuitOps (executions i).events) := by
  have hi : ∀ x : Completed ρ, Reported (circuitOps x.events) ↔
      (x.executor.circuit = true → Unrefused x.events) := fun x => (owes_of_ran x.ran).reported_iff
  refine ⟨hi, ?_⟩
  intro executions b steps hb hs hun key hst
  obtain ⟨i, d, c, hk, hp⟩ := hs.probe_out hb key hst
  refine ⟨i, d, c, hk, hp, ?_⟩
  -- a finished execution has nothing outstanding
  intro ha
  rw [ha, (((hi (executions i)).mpr (hun i)) d c).1] at hp
  exact absurd hp (lt_irrefl 0)

section

/-- One call per plan, behind a circuit and a lease gate. -/
def oneCall : Executor := ⟨⟨1, 1, 0, 0⟩, true, true, false, false⟩

/-- A tenant with one deployment, under a lease. -/
def oneDeployment : TenantRuntimeSnapshot :=
  newTenantSnapshot { TenantSnapshotData.zero with
    tenantID := "t"
    deployments := [⟨"d", "p", "c", "m", "eu", "active", "", [], 8192, 1⟩]
    leases := [⟨"d", 1, 60⟩] }

/-- An outside that admits every call and gives fixed answers otherwise. -/
def answering (lease : LeaseOutcome) (call : CallOutcome Unit) : Outside Unit where
  resolve _ _ := true
  picker _ _ := true
  next _ _ := some "c"
  allow _ _ _ := true
  acquire _ _ _ _ := lease
  resolveCredential _ _ _ := true
  call _ _ _ := call
  jitter _ := 0
  sleep _ _ := none

/-- A call that fails, a second execution whose lease is as given, and nothing else. -/
def probing (lease : LeaseOutcome) : Nat → Completed Unit
  | 0 => ⟨oneCall, _, .plan (answering (.leased "l")
      (.failed ⟨"overloaded", "OVERLOADED", false, false, false⟩)) oneDeployment false ["d"]⟩
  | 1 => ⟨oneCall, _, .plan (answering lease (.ok none)) oneDeployment false ["d"]⟩
  | _ + 2 => ⟨oneCall, _, .plan (answering lease (.ok none)) oneDeployment false []⟩

/-- A breaker that the first failure opens, for one time unit. -/
def quickBreaker : Breaker := Breaker.new ⟨1, 0, 1, 1, 0, false⟩

/-- The first call fails and opens the circuit; the second is the probe. -/
def probeSteps : List CircuitStep :=
  [⟨0, 0, .allow "d" "c" true⟩, ⟨0, 0, .record "d" "c" false⟩, ⟨1, 1, .allow "d" "c" true⟩]

/-- The lease of the probe is busy: everything has returned and the probe is never reported. -/
theorem busy_lease_keeps_probe :
    ¬ Reported (circuitOps (probing .busy 1).events) ∧
      Interleaved (probing .busy) quickBreaker probeSteps ∧
      (∀ i, opsOf i probeSteps = circuitOps (probing .busy i).events) ∧
      (run Breaker.take quickBreaker probeSteps).Stuck "d:c" := by
  have ha : ∀ i, opsOf i probeSteps = circuitOps (probing .busy i).events
    | 0 => by decide +kernel
    | 1 => by decide +kernel
    | _ + 2 => rfl
  refine ⟨?_, ⟨?_, ?_⟩, ha, ?_⟩
  · intro h
    have : outstanding "d" "c" (circuitOps (probing .busy 1).events) = 1 := by decide +kernel
    rw [(h "d" "c").1] at this
    exact absurd this (by decide)
  · decide +kernel
  · intro i
    rw [ha i]
  · exact ⟨⟨.halfOpen, 1, 1, 0, 1, true, 1⟩, by decide +kernel, rfl, rfl⟩

/-- With a lease for the probe the same steps leave its call under way. -/
theorem leased_probe_under_way :
    Reported (circuitOps (probing (.leased "l") 1).events) ∧
      ∃ i d c, circuitKey d c = "d:c" ∧ 0 < outstanding d c (opsOf i probeSteps) ∧
        opsOf i probeSteps ≠ circuitOps (probing (.leased "l") i).events := by
  have hun : ∀ i, Unrefused (probing (.leased "l") i).events
    | 0 => by decide +kernel
    | 1 => by decide +kernel
    | _ + 2 => nofun
  refine ⟨(admitted_reported_iff_unrefused.1 _).mpr fun _ => hun 1, ?_⟩
  refine admitted_reported_iff_unrefused.2 (probing (.leased "l")) quickBreaker probeSteps ?_
    ⟨by decide +kernel, ?_⟩ (fun i _ => hun i) "d:c" ?_
  · rintro key ⟨item, hi, -⟩
    exact absurd hi (by simp [quickBreaker, Breaker.new])
  · intro i
    match i with
    | 0 => exact ⟨[], by decide +kernel⟩
    | 1 => exact ⟨[.record "d" "c" true], by decide +kernel⟩
    | _ + 2 => exact ⟨[], rfl⟩
  · exact ⟨⟨.halfOpen, 1, 1, 0, 1, true, 1⟩, by decide +kernel, rfl, rfl⟩

end

end LiteAIG.Execution
