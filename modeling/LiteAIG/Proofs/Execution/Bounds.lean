/-
The resilience budget of an execution.

An attempt makes at most one call, to the deployment it is an attempt on, and records
it.  It lets the plan go on only after a call that failed in a way that may be tried
again.  So the calls of an execution come in stretches, one for each entry of the
fallback list and no longer than the attempts an entry has; only the last of them can
have been final; and the recorded attempts are the calls.  What is taken on loan for a
call is given back, since the events are a walk from and to the idle stage.
-/
import LiteAIG.Proofs.Execution.Stages

namespace LiteAIG.Execution

open LiteAIG.Runtime Executor List

variable {ρ : Type} {dep : Deployment}

/-! ### The calls of an execution -/

structure CallMade (ρ : Type) where
  (deploymentID credentialID : String)
  outcome : CallOutcome ρ

def Event.made : Event ρ → Option (CallMade ρ)
  | .call d c outcome => some ⟨d, c, outcome⟩
  | _ => none

def callsOf (events : List (Event ρ)) : List (CallMade ρ) := events.filterMap Event.made

/-- What is recorded of a call.  A first-token timeout counts as retryable; only a plan has them. -/
def CallMade.attempt (pool : Bool) (number : Nat) (call : CallMade ρ) : Attempt :=
  match call.outcome with
  | .ok _ => ⟨call.deploymentID, call.credentialID, number, "success", false⟩
  | .failed f =>
    if !pool && f.firstToken then
      ⟨call.deploymentID, call.credentialID, number, "first_token_timeout", true⟩
    else ⟨call.deploymentID, call.credentialID, number, f.code, f.retryable⟩

/-- A success, an error that is not retryable, or an error of a stream that had begun.  A stream
that runs into its first-token deadline has not begun and is retryable. -/
def CallMade.Final (pool stop : Bool) (call : CallMade ρ) : Prop :=
  match call.outcome with
  | .ok _ => True
  | .failed f =>
    (pool = true ∨ f.firstToken = false) ∧ (f.retryable = false ∨ stop = true ∧ f.committed = true)

/-! ### One attempt -/

/-- No call is made or recorded. -/
structure Quiet (p q : Progress ρ) : Prop where
  calls : callsOf q.events = callsOf p.events
  count : q.calls = p.calls
  attempts : q.attempts = p.attempts

/-- A call that was made is recorded, and only one that was not final lets the plan go on. -/
structure Follows (pool stop : Bool) (number : Nat) (call : CallMade ρ) (p q : Progress ρ)
    (ending : AttemptEnd ρ) : Prop where
  calls : callsOf q.events = callsOf p.events
  count : q.calls = p.calls
  attempts : q.attempts = p.attempts ++ [call.attempt pool number]
  stops : (∀ r, ending ≠ .done r) → ¬ call.Final pool stop

/-- The attempt of a number makes one call, or none; while every gate is open it is then not
followed by another one. -/
inductive Attempted (pool stop : Bool) (free : Prop) (number : Nat) (deployment : Deployment)
    (p q : Progress ρ) (ending : AttemptEnd ρ) : Prop
  | without (quiet : Quiet p q) (goes : free → ending ≠ .again)
  | calling (call : CallMade ρ) (toward : call.deploymentID = deployment.id)
      (calls : callsOf q.events = callsOf p.events ++ [call]) (count : q.calls = p.calls + 1)
      (attempts : q.attempts = p.attempts ++ [call.attempt pool number])
      (stops : (∀ r, ending ≠ .done r) → ¬ call.Final pool stop)

section

variable (e : Executor) (out : Outside ρ) (snap : TenantRuntimeSnapshot) {p q r : Progress ρ}

theorem callsOf_append (xs ys : List (Event ρ)) : callsOf (xs ++ ys) = callsOf xs ++ callsOf ys :=
  filterMap_append ..

theorem Quiet.refl (p : Progress ρ) : Quiet p p := ⟨rfl, rfl, rfl⟩

theorem Quiet.trans (h : Quiet p q) (h' : Quiet q r) : Quiet p r :=
  ⟨h'.calls.trans h.calls, h'.count.trans h.count, h'.attempts.trans h.attempts⟩

theorem quiet_emit {ev : Event ρ} (h : ev.made = none) : Quiet p (p.emit ev) := by
  refine ⟨?_, rfl, rfl⟩
  simp [Progress.emit, callsOf, h]

theorem quiet_allow (d c : String) : Quiet p (e.allow out d c p).2 := by
  unfold allow
  split
  · exact quiet_emit rfl
  · exact .refl p

theorem quiet_record (d c : String) (success : Bool) : Quiet p (e.record d c success p) := by
  unfold record
  split
  · exact quiet_emit rfl
  · exact .refl p

theorem quiet_acquireLease (dep : Deployment) (credentialID : String) :
    Quiet p (e.acquireLease out snap dep credentialID p).2 := by
  unfold acquireLease
  split
  · split
    · exact quiet_emit rfl
    · exact .refl p
  · exact .refl p

theorem quiet_releaseLease (scope lid : String) : Quiet p (e.releaseLease scope lid p) := by
  unfold releaseLease
  split
  · exact quiet_emit rfl
  · exact .refl p

theorem quiet_backoff (att : Nat) : Quiet p (e.backoff out att p).1 := by
  unfold backoff
  dsimp only
  split
  · exact quiet_emit rfl
  · exact quiet_emit rfl

theorem invoke_calls (dep : Deployment) (credentialID : String) :
    callsOf (e.invoke out snap dep credentialID p).2.events = callsOf p.events ++
        [⟨dep.id, credentialID, (e.invoke out snap dep credentialID p).1⟩] ∧
      (e.invoke out snap dep credentialID p).2.calls = p.calls + 1 ∧
      (e.invoke out snap dep credentialID p).2.attempts = p.attempts := by
  unfold invoke
  cases e.inflight with
  | false => exact ⟨by simp [Progress.emit, callsOf, Event.made], rfl, rfl⟩
  | true =>
    refine ⟨?_, rfl, rfl⟩
    simp only [if_true, Progress.emit, append_assoc, callsOf_append]
    rfl

variable {pool stop : Bool} {free : Prop} {number : Nat} {ending : AttemptEnd ρ} {dep : Deployment}
  {credentialID : String}

/-- What is quiet after a record leaves what the record says. -/
theorem Follows.of_quiet {call : CallMade ρ} (hq : Quiet q r)
    (hr : q.events = p.events ∧ q.calls = p.calls ∧
      q.attempts = p.attempts ++ [call.attempt pool number])
    (hs : (∀ r, ending ≠ .done r) → ¬ call.Final pool stop) :
    Follows pool stop number call p r ending := by
  obtain ⟨he, hc, ha⟩ := hr
  refine ⟨?_, ?_, ?_, hs⟩
  · rw [hq.calls, he]
  · rw [hq.count, hc]
  · rw [hq.attempts, ha]

/-- What is quiet after the record of a failed call follows that call. -/
theorem Follows.of_failed {f : Failure} (hf : pool = true ∨ f.firstToken = false)
    (hq : Quiet (({ p with last := some (.passed f.error) } : Progress ρ).attempted
      ⟨dep.id, credentialID, number, f.code, f.retryable⟩) r)
    (hs : (∀ r, ending ≠ .done r) →
      ¬ (⟨dep.id, credentialID, .failed f⟩ : CallMade ρ).Final pool stop) :
    Follows pool stop number ⟨dep.id, credentialID, .failed f⟩ p r ending := by
  refine .of_quiet hq ⟨rfl, rfl, ?_⟩ hs
  rcases hf with hf | hf <;> simp [Progress.attempted, CallMade.attempt, hf]

theorem follows_planFailed (stop : Bool) (dep : Deployment) (attempt : Nat) (f : Failure) :
    Follows false stop attempt ⟨dep.id, dep.credentialID, .failed f⟩ p
      (e.planFailed out stop dep attempt f p).1
      (e.planFailed out stop dep attempt f p).2 := by
  unfold planFailed
  dsimp only
  by_cases hf : f.firstToken = true
  · simp only [hf, if_true]
    refine .of_quiet (q := ({ p with last := some (.passed f.error) } : Progress ρ).attempted
      ⟨dep.id, dep.credentialID, attempt, "first_token_timeout", true⟩)
      (quiet_record e ..) ⟨rfl, rfl, ?_⟩ fun _ hfi => ?_
    · simp [Progress.attempted, CallMade.attempt, hf]
    · rcases hfi.1 with hc | hc
      · cases hc
      · simp [hf] at hc
  · rw [Bool.not_eq_true] at hf
    simp only [hf, Bool.false_eq_true, if_false]
    by_cases hs : ((stop && f.committed) || !f.retryable) = true
    · rw [if_pos hs]
      exact .of_failed (.inr hf) (quiet_record e ..) fun hc => absurd rfl (hc _)
    · have ha : ¬ (⟨dep.id, dep.credentialID, .failed f⟩ : CallMade ρ).Final false
          stop := by
        simp only [Bool.or_eq_true, Bool.and_eq_true, Bool.not_eq_true', not_or, not_and] at hs
        rintro ⟨-, hr | ⟨hst, hco⟩⟩
        · exact hs.2 hr
        · exact hs.1 hst hco
      rw [if_neg hs]
      split
      · exact .of_failed (.inr hf)
          ((quiet_record e ..).trans (quiet_backoff e out attempt)) fun _ => ha
      · exact .of_failed (.inr hf) (quiet_record e ..) fun _ => ha

theorem follows_poolFailed (dep : Deployment) (credentialID : String) (attempt : Nat)
    (f : Failure) :
    Follows true false attempt ⟨dep.id, credentialID, .failed f⟩ p
      (e.poolFailed out dep credentialID attempt f p).1
      (e.poolFailed out dep credentialID attempt f p).2 := by
  unfold poolFailed
  dsimp only
  by_cases hr : (!f.retryable) = true
  · rw [if_pos hr]
    exact .of_failed (.inl rfl) (quiet_record e ..) fun hc => absurd rfl (hc _)
  · have ha : ¬ (⟨dep.id, credentialID, .failed f⟩ : CallMade ρ).Final true false := by
      simp only [Bool.not_eq_true', Bool.not_eq_false] at hr
      simp [CallMade.Final, hr]
    rw [if_neg hr]
    split
    · exact .of_failed (.inl rfl)
        ((quiet_record e ..).trans (quiet_backoff e out attempt)) fun _ => ha
    · exact .of_failed (.inl rfl) (quiet_record e ..) fun _ => ha

/-- A call under a lease, given what follows one that fails. -/
theorem attempted_callLeased (scope lid : String) (att : Nat)
    {failed : Failure → Progress ρ → Progress ρ × AttemptEnd ρ}
    (hfa : ∀ f p, Follows pool stop att ⟨dep.id, credentialID, .failed f⟩ p (failed f p).1
      (failed f p).2) :
    Attempted pool stop free att dep p
      (e.callLeased out snap dep credentialID scope lid att failed p).1
      (e.callLeased out snap dep credentialID scope lid att failed p).2 := by
  obtain ⟨hca, hco, ha⟩ := invoke_calls e out snap (p := p) dep credentialID
  have hr := quiet_releaseLease e (p := (e.invoke out snap dep credentialID p).2)
    scope lid
  unfold callLeased
  dsimp only
  cases ho : (e.invoke out snap dep credentialID p).1 with
  | ok resp =>
    have hre := hr.trans (quiet_record e dep.id credentialID true)
    rw [ho] at hca
    refine .calling ⟨dep.id, credentialID, .ok resp⟩ rfl (hre.calls.trans hca)
      (hre.count.trans hco) ?_ fun hc => absurd rfl (hc _)
    show (e.record dep.id credentialID true _).attempts ++ _ = _
    rw [hre.attempts, ha]
    rfl
  | failed f =>
    have hf := hfa f (e.releaseLease scope lid
      (e.invoke out snap dep credentialID p).2)
    rw [ho] at hca
    refine .calling ⟨dep.id, credentialID, .failed f⟩ rfl ?_ ?_ ?_ hf.stops
    · rw [hf.calls, hr.calls, hca]
    · rw [hf.count, hr.count, hco]
    · rw [hf.attempts, hr.attempts, ha]

/-- What comes before an attempt without a call of its own. -/
theorem Attempted.after_quiet (hq : Quiet p q)
    (h : Attempted pool stop free number dep q r ending) :
    Attempted pool stop free number dep p r ending := by
  cases h with
  | without quiet goes => exact .without (hq.trans quiet) goes
  | calling call toward calls count attempts stops =>
    refine .calling call toward ?_ ?_ ?_ stops
    · rw [calls, hq.calls]
    · rw [count, hq.count]
    · rw [attempts, hq.attempts]

/-- No gate is shut: the circuit admits, a lease is free, and a credential has its invoker. -/
structure Outside.Open (out : Outside ρ) : Prop where
  allow : ∀ events d c, out.allow events d c = true
  acquire : ∀ events scope d c, out.acquire events scope d c ≠ .busy
  resolve : ∀ events d c, out.resolveCredential events d c = true

theorem attempted_gated (shut : AttemptEnd ρ) (hshut : free → shut ≠ .again ∨ out.Open)
    {leased : String → String → Progress ρ → Progress ρ × AttemptEnd ρ}
    (hl : ∀ scope lid p, Attempted pool stop free number dep p (leased scope lid p).1
      (leased scope lid p).2) :
    Attempted pool stop free number dep p (e.gated out snap dep credentialID shut leased p).1
      (e.gated out snap dep credentialID shut leased p).2 := by
  have hal := quiet_allow e out (p := p) dep.id credentialID
  cases has : e.allow out dep.id credentialID p with
  | mk admitted p₁ =>
    rw [has] at hal
    cases admitted with
    | false =>
      simp only [gated, has]
      refine .without hal fun hfree => (hshut hfree).resolve_right fun hopen => ?_
      simp only [allow, hopen.allow] at has
      split at has <;> cases has
    | true =>
      have ha := quiet_acquireLease e out snap (p := p₁) dep credentialID
      have hbusy : out.Open → (e.acquireLease out snap dep credentialID p₁).1.1 ≠ .busy := by
        intro hopen
        unfold acquireLease
        split
        · split
          · exact hopen.acquire _ _ _ _
          · simp
        · simp
      cases hac : e.acquireLease out snap dep credentialID p₁ with
      | mk answer p₂ =>
        obtain ⟨outcome, scope⟩ := answer
        rw [hac] at ha hbusy
        simp only [gated, has, hac]
        cases outcome with
        | leased lid => exact .after_quiet (hal.trans ha) (hl scope lid p₂)
        | busy =>
          exact .without (hal.trans ⟨ha.calls, ha.count, ha.attempts⟩) fun hfree =>
            (hshut hfree).resolve_right fun hopen => hbusy hopen rfl
        | failed error => exact .without (hal.trans ha) fun _ => by simp [AttemptEnd.fail]

theorem attempted_planAttempt (stop : Bool) (dep : Deployment) (att : Nat)
    (p : Progress ρ) :
    Attempted false stop True att dep p (e.planAttempt out snap stop dep att p).1
      (e.planAttempt out snap stop dep att p).2 :=
  attempted_gated e out snap .leave (fun _ => .inl (by simp)) fun scope lid _ =>
    attempted_callLeased e out snap scope lid att fun f _ =>
      follows_planFailed e out stop dep att f

theorem attempted_poolAttempt (dep : Deployment) (att : Nat) (p : Progress ρ) :
    Attempted true false out.Open att dep p (e.poolAttempt out snap dep att p).1
      (e.poolAttempt out snap dep att p).2 := by
  unfold poolAttempt
  dsimp only
  cases out.next p.events dep with
  | none => exact .without (quiet_emit rfl) fun _ => by simp
  | some credentialID =>
    refine .after_quiet (quiet_emit rfl)
      (attempted_gated e out snap .again .inr fun scope lid q => ?_)
    unfold poolLeased
    dsimp only
    split
    · exact .after_quiet (quiet_emit rfl)
        (attempted_callLeased e out snap scope lid att fun f _ =>
          follows_poolFailed e out dep credentialID att f)
    · rename_i hfound
      exact .without ((quiet_emit rfl).trans (quiet_releaseLease e scope lid))
        fun hopen => absurd (hopen.resolve ..) hfound

end

/-! ### The loops -/

/-- A part of an execution: the calls it made, of which only the last can be final, and that only
if the execution has ended. -/
structure Course (pool stop : Bool) (p q : Progress ρ) (made : List (CallMade ρ)) (ended : Bool) :
    Prop where
  calls : callsOf q.events = callsOf p.events ++ made
  count : q.calls = p.calls + made.length
  attempts : ∃ more, q.attempts = p.attempts ++ more ∧
    List.Forall₂ (fun attempt call => ∃ number, attempt = call.attempt pool number) more made
  stops : ∀ call ∈ made.dropLast, ¬ call.Final pool stop
  goes : ended = false → ∀ call ∈ made, ¬ call.Final pool stop

section

variable {pool stop ended : Bool} {p q r : Progress ρ} {made made' : List (CallMade ρ)}

theorem Course.refl (p : Progress ρ) (ended : Bool) : Course pool stop p p [] ended where
  calls := by simp
  count := by simp
  attempts := ⟨[], by simp, .nil⟩
  stops call h := by cases h
  goes _ call h := by cases h

theorem Course.trans (h : Course pool stop p q made false) (h' : Course pool stop q r made' ended) :
    Course pool stop p r (made ++ made') ended where
  calls := by rw [h'.calls, h.calls, append_assoc]
  count := by
    rw [h'.count, h.count, length_append]
    push_cast
    ring
  attempts := by
    obtain ⟨more, hmor, hal⟩ := h.attempts
    obtain ⟨more', hmo, ha⟩ := h'.attempts
    exact ⟨more ++ more', by rw [hmo, hmor, append_assoc], rel_append hal ha⟩
  stops call hc := by
    by_cases hm : made' = []
    · rw [hm, append_nil] at hc
      exact h.goes rfl call (mem_of_mem_dropLast hc)
    · rw [dropLast_append_of_ne_nil hm, mem_append] at hc
      rcases hc with hc | hc
      · exact h.goes rfl call hc
      · exact h'.stops call hc
  goes he call hc := by
    rcases mem_append.mp hc with hc | hc
    · exact h.goes rfl call hc
    · exact h'.goes he call hc

theorem Attempted.course {free : Prop} {number : Nat} {ending : AttemptEnd ρ}
    (h : Attempted pool stop free number dep p q ending) (ended : Bool)
    (hen : ended = false → ∀ r, ending ≠ .done r) :
    ∃ made, Course pool stop p q made ended ∧ made.length ≤ 1 ∧
      ∀ call ∈ made, call.deploymentID = dep.id := by
  cases h with
  | without quiet _ =>
    refine ⟨[], ⟨?_, ?_, ⟨[], ?_, .nil⟩, fun _ h => (by cases h), fun _ _ h => (by cases h)⟩,
      Nat.zero_le 1, fun _ h => (by cases h)⟩
    · rw [quiet.calls, append_nil]
    · simpa using quiet.count
    · rw [quiet.attempts, append_nil]
  | calling call toward calls count attempts stops =>
    refine ⟨[call], ⟨calls, by simpa using count, ⟨_, attempts, .cons ⟨number, rfl⟩ .nil⟩,
      fun _ h => (by cases h), ?_⟩, le_rfl, by simpa using toward⟩
    intro he call' hc
    rw [mem_singleton.mp hc]
    exact stops (hen he)

variable (e : Executor) (snap : TenantRuntimeSnapshot)

theorem attempts_course {body : Nat → Progress ρ → Progress ρ × AttemptEnd ρ}
    {free : Prop} (hbod : ∀ att p, Attempted pool stop free att dep p (body att p).1
      (body att p).2) :
    ∀ (n att : Nat) (p : Progress ρ), p.calls ≤ e.policy.maxTotalCalls.toNat →
      ∃ made, Course pool stop p (e.attempts body n att p).1 made
          (e.attempts body n att p).2.isSome ∧
        made.length ≤ n ∧ (∀ call ∈ made, call.deploymentID = dep.id) ∧
        (e.attempts body n att p).1.calls ≤ e.policy.maxTotalCalls.toNat := by
  intro n
  induction n with
  | zero =>
    intro att p hp
    exact ⟨[], .refl p _, le_rfl, fun _ h => (by cases h), hp⟩
  | succ n ih =>
    intro att p hp
    unfold attempts
    by_cases hca : p.calls < e.policy.maxTotalCalls
    swap
    · rw [if_neg hca]
      exact ⟨[], .refl p _, Nat.zero_le _, fun _ h => (by cases h), hp⟩
    rw [if_pos hca]
    have ho := hbod att p
    cases hb : body att p with
    | mk q ending =>
      simp only [hb] at ho
      -- an attempt that ends the loop, with or without a result
      have he : ∀ ended, (ended = false → ∀ r, ending ≠ .done r) →
          ∃ made, Course pool stop p q made ended ∧ made.length ≤ n + 1 ∧
            (∀ call ∈ made, call.deploymentID = dep.id) ∧
            q.calls ≤ e.policy.maxTotalCalls.toNat := by
        intro ended hen
        obtain ⟨made, hco, hle, hto⟩ := ho.course ended hen
        have hcoun := hco.count
        exact ⟨made, hco, by omega, hto, by omega⟩
      cases ending with
      | leave => exact he false fun _ _ => by simp
      | done result => exact he true fun hc => by cases hc
      | again =>
        obtain ⟨made, hco, hle, hto⟩ := ho.course false fun _ _ => by simp
        have hcoun := hco.count
        obtain ⟨made', hcou, hl, ht, hbo⟩ := ih (att + 1) q (by omega)
        refine ⟨made ++ made', hco.trans hcou, ?_, ?_, hbo⟩
        · rw [length_append]
          omega
        · intro call hcal
          exact (mem_append.mp hcal).elim (hto call) (ht call)

/-- The calls of a stretch go to one entry of the fallback list, within its attempts. -/
def OfEntry (e : Executor) (snapshot : TenantRuntimeSnapshot) (id : String)
    (made : List (CallMade ρ)) : Prop :=
  made.length ≤ e.policy.maxAttemptsPerDeployment.toNat ∧
    ∀ call ∈ made, ∃ deployment, snapshot.deployment id = some deployment ∧
      call.deploymentID = deployment.id

theorem ofEntry_nil (id : String) : OfEntry e snap id ([] : List (CallMade ρ)) :=
  ⟨Nat.zero_le _, fun _ h => by cases h⟩

/-- Entries that are not reached are not called. -/
theorem forall₂_ofEntry_nil (fallback : List String) :
    List.Forall₂ (OfEntry e snap) fallback
      (fallback.map fun _ => ([] : List (CallMade ρ))) :=
  forall₂_map_right_iff.mpr (forall₂_same.mpr fun id _ => ofEntry_nil e snap id)

/-- The deployments of a plan: one stretch of calls for each entry, in order. -/
theorem deployments_course (usable : List (Event ρ) → Deployment → Bool)
    {body : Deployment → Nat → Progress ρ → Progress ρ × AttemptEnd ρ}
    {free : Prop} (hbod : ∀ dep att p, Attempted pool stop free att dep p
      (body dep att p).1 (body dep att p).2) :
    ∀ (fallback : List String) (p : Progress ρ), p.calls ≤ e.policy.maxTotalCalls.toNat →
      ∃ stretches, List.Forall₂ (OfEntry e snap) fallback stretches ∧
        Course pool stop p (e.deployments snap usable body fallback p).1 stretches.flatten
          (e.deployments snap usable body fallback p).2.isSome ∧
        (e.deployments snap usable body fallback p).1.calls ≤ e.policy.maxTotalCalls.toNat := by
  intro fallback
  induction fallback with
  | nil =>
    intro p hp
    exact ⟨[], .nil, .refl p _, hp⟩
  | cons id rest ih =>
    intro p hp
    -- an entry that is passed over has an empty stretch
    have hs : ∃ stretches, List.Forall₂ (OfEntry e snap) (id :: rest) stretches ∧
        Course pool stop p (e.deployments snap usable body rest p).1 stretches.flatten
          (e.deployments snap usable body rest p).2.isSome ∧
        (e.deployments snap usable body rest p).1.calls ≤ e.policy.maxTotalCalls.toNat := by
      obtain ⟨stretches, he, hc, hb⟩ := ih p hp
      exact ⟨[] :: stretches, .cons (ofEntry_nil e snap id) he, by simpa using hc, hb⟩
    unfold deployments
    cases hd : snap.deployment id with
    | none => exact hs
    | some dep =>
      by_cases hu : usable p.events dep = true
      swap
      · simp only [if_neg hu]
        exact hs
      simp only [if_pos hu]
      obtain ⟨made, hc, hl, hto, hb⟩ := attempts_course e (hbod dep)
        e.policy.maxAttemptsPerDeployment.toNat 1 p hp
      have hen : OfEntry e snap id made :=
        ⟨hl, fun call hca => ⟨dep, hd, hto call hca⟩⟩
      cases ha : e.attempts (body dep) e.policy.maxAttemptsPerDeployment.toNat 1 p with
      | mk q found =>
        rw [ha] at hc hb
        cases found with
        | none =>
          obtain ⟨stretches, he, hco, hbo⟩ := ih q hb
          exact ⟨made :: stretches, .cons hen he, hc.trans hco, hbo⟩
        | some result =>
          refine ⟨made :: rest.map fun _ => [],
            .cons hen (forall₂_ofEntry_nil e snap rest), ?_, hb⟩
          simpa using hc

end

/-! ### A whole execution -/

/-- An execution that stayed within its budget and gave back what it took. -/
structure Within (e : Executor) (snapshot : TenantRuntimeSnapshot) (fallback : List String)
    (pool stop : Bool) (p : Progress ρ) : Prop where
  total : (callsOf p.events).length ≤ e.policy.maxTotalCalls.toNat
  /-- The calls fall into one stretch for each entry, in the order of the entries. -/
  entries : ∃ stretches, List.Forall₂ (OfEntry e snapshot) fallback stretches ∧
    stretches.flatten = callsOf p.events
  stops : ∀ call ∈ (callsOf p.events).dropLast, ¬ call.Final pool stop
  leases : ∀ scope leaseID, leaseID ≠ "" →
    p.events.countP (Event.grants scope leaseID) = p.events.countP (Event.gives scope leaseID) ∧
      ∀ part, part <+: p.events →
        part.countP (Event.gives scope leaseID) ≤ part.countP (Event.grants scope leaseID)
  inflight : ∀ scope,
    p.events.countP (Event.raises scope) = p.events.countP (Event.lowers scope) ∧
      ∀ part, part <+: p.events →
        part.countP (Event.lowers scope) ≤ part.countP (Event.raises scope)
  attempts : List.Forall₂ (fun attempt call => ∃ number, attempt = call.attempt pool number)
    p.attempts (callsOf p.events)

section

variable {e : Executor} {snap : TenantRuntimeSnapshot} {fallback : List String} {pool stop : Bool}

theorem conclude_fst (found : Progress ρ × Option (Result ρ)) : (conclude found).1 = found.1 := by
  obtain ⟨p, result⟩ := found
  cases result <;> rfl

/-- A plan that was walked from the start, whichever the kind of attempt. -/
theorem within_of_course {p : Progress ρ} {stretches : List (List (CallMade ρ))} {ended : Bool}
    (hr : Ran e p.events) (he : List.Forall₂ (OfEntry e snap) fallback stretches)
    (hc : Course pool stop .start p stretches.flatten ended)
    (hb : p.calls ≤ e.policy.maxTotalCalls.toNat) : Within e snap fallback pool stop p := by
  have hca : callsOf p.events = stretches.flatten := by
    simpa [Progress.start, callsOf] using hc.calls
  have hco : p.calls = stretches.flatten.length := by simpa [Progress.start] using hc.count
  have hw := walk_of_ran e hr
  constructor
  case total =>
    rw [hca]
    omega
  case entries => exact ⟨stretches, he, hca.symm⟩
  case stops =>
    rw [hca]
    exact hc.stops
  case leases =>
    intro scope lid hid
    refine ⟨by simpa [Stage.idle] using walk_leases scope hid hw, ?_⟩
    intro part hp
    obtain ⟨s, hs⟩ := Lib.walk_of_prefix hw hp
    have hpr := walk_leases scope hid hs
    simp only [Stage.idle, reduceCtorEq, if_false, zero_add] at hpr
    omega
  case inflight =>
    intro scope
    refine ⟨by simpa [Stage.idle] using walk_inflight scope hw, ?_⟩
    intro part hp
    obtain ⟨s, hs⟩ := Lib.walk_of_prefix hw hp
    have hpr := walk_inflight scope hs
    simp only [Stage.idle, reduceCtorEq, if_false, zero_add] at hpr
    omega
  case attempts =>
    obtain ⟨more, hm, hal⟩ := hc.attempts
    rw [hca, hm]
    exact hal

theorem within_runPlan (e : Executor) (out : Outside ρ) (snap : TenantRuntimeSnapshot)
    (stop : Bool) (fallback : List String) :
    Within e snap fallback false stop (e.runPlan out snap stop fallback).1 := by
  obtain ⟨stretches, he, hc, hb⟩ := deployments_course e snap out.resolve
    (attempted_planAttempt e out snap stop) fallback .start (Int.natCast_nonneg _)
  rw [← conclude_fst] at hc hb
  exact within_of_course (.plan out snap stop fallback) he hc hb

end

/-- **An execution stays within its budget and leaks nothing.** -/
theorem execution_within_budget (e : Executor) (out : Outside ρ) (snapshot : TenantRuntimeSnapshot)
    (fallback : List String) :
    (∀ stop, Within e snapshot fallback false stop (e.runPlan out snapshot stop fallback).1) ∧
    Within e snapshot fallback e.pooled false (e.executeWithPool out snapshot fallback).1 := by
  refine ⟨fun stop => within_runPlan e out snapshot stop fallback, ?_⟩
  cases hp : e.pooled with
  | false =>
    have hpl : e.executeWithPool out snapshot fallback = e.runPlan out snapshot false fallback := by
      simp [executeWithPool, hp, execute]
    rw [hpl]
    exact within_runPlan e out snapshot false fallback
  | true =>
    have hpo : e.executeWithPool out snapshot fallback = conclude
        (e.deployments snapshot out.picker (e.poolAttempt out snapshot) fallback .start) := by
      simp [executeWithPool, hp]
    obtain ⟨stretches, he, hc, hb⟩ := deployments_course e snapshot out.picker
      (attempted_poolAttempt e out snapshot) fallback .start (Int.natCast_nonneg _)
    rw [← conclude_fst, ← hpo] at hc hb
    exact within_of_course (.pool out snapshot fallback) he hc hb

end LiteAIG.Execution
