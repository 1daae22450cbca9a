/-
What a crash leaves behind under an idempotency key.

The reaper gives up rows that were left `running`, and only those.  A row is inserted
as `pending` and becomes `running` by a second statement, so a call that stops between
the two leaves a row that nobody may claim and nobody gives up.  `Pending` ties such
rows to the calls that inserted them: a row is pending exactly while its call is among
those whose task nobody has started.

A later call by itself is then not refused if and only if there is no such call under
its key, and a row that was left running is old enough by the reaper's clock, which
counts whole seconds.
-/
import LiteAIG.Proofs.A2A.Steps

namespace LiteAIG.A2A

open Lib Budget Ledger Pipeline A2ATaskStore Threads List

section

variable {σ τ κ : Type} {w w' : World σ τ} {a : Action} {t t' : Progress} {call : Relay}

/-! ### The rows that nobody has started -/

/-- Pending rows and the calls that inserted them. -/
structure Pending (w : World σ τ) : Prop where
  inserted : ∀ row ∈ w.tasks.rows, row.status = .pending →
    ∃ call ∈ w.unclaimed, row.Is call.tenantID call.requestID ∧
      row.Has call.tenantID call.idempotencyKey
  left : ∀ call ∈ w.unclaimed, ∃ row ∈ w.tasks.rows, row.Is call.tenantID call.requestID ∧
    row.Has call.tenantID call.idempotencyKey ∧ row.status = .pending

/-- A task that was claimed is not pending again. -/
def Started (w : World σ τ) (t : Progress) : Prop :=
  ∀ claim, t.claims = some claim →
    ∃ row ∈ w.tasks.rows, row.Is claim.1 claim.2 ∧ row.status ≠ .pending

theorem Stepped.started (h : Stepped w a w' t t') {row : A2ATask} (hmem : row ∈ w.tasks.rows)
    (hs : row.status ≠ .pending) :
    ∃ row' ∈ w'.tasks.rows, row'.fixed = row.fixed ∧ row'.status ≠ .pending := by
  obtain ⟨row', hr, rfl | ⟨call, request, point, -, ht⟩⟩ := h.persists hmem
  · exact ⟨row', hr, rfl, hs⟩
  · exact ⟨row', hr, ht.fixed, fun h => hs (ht.pending h)⟩

section

variable {now : Int} {fault : StoreFault} {s s' : A2ATaskStore} {point : Point} {calls : List Relay}

theorem unclaimed_refused (h : fault.refused ∨ call.tenantID = "") :
    call.unclaimed fault s s calls point = calls := by
  cases point with
  | create => exact if_neg (lt_irrefl _)
  | start task => exact if_pos h
  | _ => rfl

theorem mem_unclaimed_updated (hf : ¬ fault.refused) (ht : call.tenantID ≠ "")
    (hr : s'.rows = s.rows.map (call.turn now point)) {other : Relay} :
    other ∈ call.unclaimed fault s s' calls point ↔ other ∈ calls ∧ ∀ task, point = .start task →
        ¬ (other.tenantID = call.tenantID ∧ other.requestID = task.taskID) := by
  cases point with
  | create =>
    have hl : ¬ s.rows.length < s'.rows.length := by simp [hr]
    simp [Relay.unclaimed, hl]
  | start task =>
    have hn : ¬ (fault.refused ∨ call.tenantID = "") := not_or.mpr ⟨hf, ht⟩
    simp only [Relay.unclaimed, if_neg hn, mem_filter, decide_eq_true_iff]
    simp
  | _ => simp [Relay.unclaimed]

theorem unclaimed_inserted (hr : s'.rows = s.rows ++ [call.row now]) :
    call.unclaimed fault s s' calls .create = call :: calls := by
  have hl : s.rows.length < s'.rows.length := by simp [hr]
  exact if_pos hl

end

theorem Relay.turn_start {now : Int} {task row : A2ATask} (his : row.Is call.tenantID task.taskID)
    (hc : row.status.claimable) :
    call.turn now (.start task) row = row.set .running "" now :=
  if_pos (decide_eq_true ⟨his, hc⟩)

variable {point : Point}

/-- A pending row stays so, unless it is started or its call writes its outcome. -/
theorem Relay.Turned.left {now : Int} {row row' : A2ATask}
    (h : call.Turned now point row row') (hp : row.status = .pending)
    (hs : ∀ task, point = .start task → ¬ row.Is call.tenantID task.taskID)
    (hw : ∀ task, point.writes = some task → ¬ row.Is call.tenantID task.taskID) :
    row'.status = .pending := by
  cases h with
  | kept | advanced _ => exact hp
  | reaped hst =>
    have hr := (of_decide_eq_true hst).2.1
    rw [hp] at hr
    cases hr
  | started his _ => exact absurd his (hs _ rfl)
  | abandoned his | completed his => exact absurd his (hw _ rfl)

theorem Pending.states {req : RequestContext} {fault : StoreFault} (hw : Pending w)
    (ht : Started w (.relaying call req point))
    (hta : w'.tasks = (call.statement (w.clock + a.elapsed) fault w.tasks point).1)
    (hu : w'.unclaimed = call.unclaimed fault w.tasks w'.tasks w.unclaimed point) : Pending w' := by
  have hwr := call.statement_wrote (w.clock + a.elapsed) fault w.tasks point
  rw [← hta] at hwr
  cases hwr with
  | nothing h hs =>
    rw [hs, unclaimed_refused h] at hu
    exact ⟨by rw [hs, hu]; exact hw.inserted, by rw [hs, hu]; exact hw.left⟩
  | updated hf hten hr =>
    have hm : ∀ other, other ∈ w'.unclaimed ↔ other ∈ w.unclaimed ∧ ∀ task,
        point = .start task →
          ¬ (other.tenantID = call.tenantID ∧ other.requestID = task.taskID) := by
      intro other
      rw [hu]
      exact mem_unclaimed_updated hf hten hr
    refine ⟨fun row' hmem hp => ?_, fun other ho => ?_⟩
    · rw [hr] at hmem
      obtain ⟨row, hrow, rfl⟩ := mem_map.mp hmem
      have hturned := Relay.turned call (w.clock + a.elapsed) point row
      have hpending := hturned.pending hp
      obtain ⟨other, ho, his, hh⟩ := hw.inserted row hrow hpending
      refine ⟨other, (hm other).mpr ⟨ho, ?_⟩, (A2ATask.is_congr hturned.fixed).mpr his,
        (A2ATask.has_congr hturned.fixed).mpr hh⟩
      rintro task rfl ⟨htenant, hid⟩
      rw [htenant, hid] at his
      rw [Relay.turn_start his (by rw [hpending]; rfl)] at hp
      cases hp
    · obtain ⟨ho, hstale⟩ := (hm other).mp ho
      obtain ⟨row, hrow, his, hh, hp⟩ := hw.left other ho
      have hturned := Relay.turned call (w.clock + a.elapsed) point row
      refine ⟨_, hr ▸ mem_map_of_mem hrow, (A2ATask.is_congr hturned.fixed).mpr his,
        (A2ATask.has_congr hturned.fixed).mpr hh, hturned.left hp ?_ ?_⟩
      · exact fun task hpoint hi =>
          hstale task hpoint ⟨his.1.symm.trans hi.1, his.2.symm.trans hi.2⟩
      · intro task hwrites hi
        obtain ⟨row₂, hrow₂, his₂, hst⟩ := ht (call.tenantID, task.taskID)
          (by rw [Progress.claims, Point.claimed_of_writes hwrites]; rfl)
        exact hst (eq_of_is hrow hrow₂ hi his₂ ▸ hp)
  | inserted hpoint _ hr =>
    subst hpoint
    rw [unclaimed_inserted hr] at hu
    refine ⟨fun row' hmem hp => ?_, fun other ho => ?_⟩
    · rw [hr, mem_append, mem_singleton] at hmem
      rw [hu]
      rcases hmem with hrow | rfl
      · obtain ⟨other, ho, h⟩ := hw.inserted row' hrow hp
        exact ⟨other, mem_cons_of_mem _ ho, h⟩
      · exact ⟨call, mem_cons_self, ⟨rfl, rfl⟩, ⟨rfl, rfl⟩⟩
    · rw [hu, mem_cons] at ho
      rcases ho with rfl | ho
      · exact ⟨_, hr ▸ mem_append_right _ mem_cons_self, ⟨rfl, rfl⟩, ⟨rfl, rfl⟩, rfl⟩
      · obtain ⟨row, hrow, h⟩ := hw.left other ho
        exact ⟨row, hr ▸ mem_append_left _ hrow, h⟩

theorem World.Same.pending (h : w.Same w') (hw : Pending w) : Pending w' :=
  ⟨by rw [h.tasks, h.unclaimed]; exact hw.inserted, by rw [h.tasks, h.unclaimed]; exact hw.left⟩

theorem Stepped.pending (h : Stepped w a w' t t') (hw : Pending w) (ht : Started w t) :
    Pending w' := by
  cases h with
  | waits _ hs | works _ _ _ _ hs | crashes _ _ _ hs => exact hs.pending hw
  | begins _ _ _ _ _ _ hta _ _ hu =>
    exact ⟨by rw [hta, hu]; exact hw.inserted, by rw [hta, hu]; exact hw.left⟩
  | states call req point fault hta _ _ hu => exact hw.states ht hta hu

theorem Stepped.started_others (h : Stepped w a w' t t') {other : Progress} (ho : Started w other) :
    Started w' other := by
  intro claim hc
  obtain ⟨row, hmem, his, hst⟩ := ho claim hc
  obtain ⟨row', hr, hf, hs⟩ := h.started hmem hst
  exact ⟨row', hr, (A2ATask.is_congr hf).mpr his, hs⟩

theorem Stepped.started_self (h : Stepped w a w' t t') (ht : Started w t) : Started w' t' := by
  cases h.claiming with
  | none hn =>
    intro claim hc
    rw [hn] at hc
    cases hc
  | kept hcl =>
    intro claim hc
    exact h.started_others ht claim (hcl ▸ hc)
  | first claim row row' hc _ his _ hr hf hrun =>
    intro claim' hclaim
    obtain rfl : claim = claim' := Option.some.inj (hc.symm.trans hclaim)
    exact ⟨row', hr, (A2ATask.is_congr hf).mpr his, by simp [hrun]⟩

variable [DecidableEq κ] [BudgetLedger σ] {tok : UnifiedRequest → Int}

theorem pending_reached {w : Threads (World σ τ) κ Progress} (h : Reached tok w) :
    Pending w.shared := by
  obtain ⟨gateway, clock, hi, rfl⟩ := h
  have hanswer : Allowed (step (act tok)) (Meets fun _ _ _ => True)
      ⟨World.new gateway clock, fun _ => Progress.idle⟩ hi :=
    allowed_of_mem _ _ fun _ _ _ => trivial
  refine (Sound.run (I := Pending) (J := Started) ?_ hi _ ?_ hanswer).shared
  · intro w t a hw ht _
    have hs := act_stepped tok w t a
    exact ⟨hs.pending hw ht, hs.started_self ht, fun _ h => hs.started_others h⟩
  · refine ⟨⟨?_, ?_⟩, ?_⟩
    · intro row hr
      cases hr
    · intro call hca
      cases hca
    · intro k claim hc
      cases hc

end

/-! ### A call by itself -/

section

variable {σ τ κ : Type} {w w' : World σ τ} {a : Action} {t t' : Progress}

/-- What keeps a call from being refused, by the point it is at. -/
def Point.Open (s : A2ATaskStore) (call : Relay) : Point → Prop
  | .reap => ∀ row ∈ s.rows, row.Has call.tenantID call.idempotencyKey →
      row.status ≠ .pending ∧ (row.status = .running → row.updatedAt < seconds call.staleBefore)
  | .lookup => ∀ row ∈ s.rows, row.Has call.tenantID call.idempotencyKey →
      row.status ≠ .pending ∧ row.status ≠ .running
  | .reserve none | .approve none | .create =>
    ∀ row ∈ s.rows, ¬ row.Has call.tenantID call.idempotencyKey
  | .reserve (some task) | .approve (some task) | .start task =>
    ∃ row ∈ s.rows, row.Is call.tenantID task.taskID ∧ row.status.claimable
  | .readBack => ∃ row ∈ s.rows, row.Is call.tenantID call.requestID ∧ row.status.claimable
  | .reread | .refuse => False
  | _ => True

/-- The same of a call that has begun. -/
def Progress.Open (s : A2ATaskStore) : Progress → Prop
  | .idle => False
  | .relaying call _ point => point.Open s call
  | .crashed _ _ => True

variable {s s' : A2ATaskStore} {now : Int} {row : A2ATask} {k : κ} {call : Relay}

theorem Work.open {point point' : Point} (h : Work point point') (ho : point.Open s call) :
    point'.Open s call := by
  cases h with
  | reserves task => cases task <;> exact ho
  | approves task => cases task <;> exact ho
  | fails _ _ | connects _ | answers _ _ | breaks _ _ _ | refuses _ | ends _ _ _ _ => exact trivial

theorem Status.claimable_of_retry {status : Status} (h : status = .failed ∨ status = .cancelled) :
    status.claimable := by
  rcases h with rfl | rfl <;> rfl

theorem open_reaped (hrows : s'.rows = s.rows.map (call.turn now .reap))
    (ho : Point.Open s call .reap) : Point.Open s' call .lookup := by
  intro row' hmem hh
  rw [hrows] at hmem
  obtain ⟨row, hrow, rfl⟩ := mem_map.mp hmem
  rw [A2ATask.has_congr (Relay.turned call now .reap row).fixed] at hh
  obtain ⟨hp, hr⟩ := ho row hrow hh
  by_cases hs : stale call.tenantID call.staleBefore row
  · have ht : call.turn now .reap row = row.set .failed "" now := if_pos hs
    rw [ht]
    exact ⟨by simp [A2ATask.set], by simp [A2ATask.set]⟩
  · have ht : call.turn now .reap row = row := if_neg hs
    rw [ht]
    exact ⟨hp, fun h => hs (decide_eq_true ⟨hh.1, h, hr h⟩)⟩

theorem Relay.Next.open {point next : Point} (h : call.Next now s s' point next)
    (ho : point.Open s call) : next.Open s' call := by
  cases h with
  | stays _ hs => exact hs ▸ ho
  | reaps _ hmem => exact open_reaped hmem ho
  | opens hs hn => exact hs ▸ hn
  | retries hs hrow hh hst =>
    exact ⟨_, hs ▸ hrow, ⟨hh.1, rfl⟩, Status.claimable_of_retry hst⟩
  | refuses hs hpoint hrow hh hst =>
    rcases hpoint with rfl | rfl
    · obtain ⟨hp, hr⟩ := ho _ hrow hh
      exact hst.elim hp hr
    · exact ho
  | creates h =>
    rcases h with ⟨row, hrow, hh⟩ | hrow
    · exact absurd hh (ho row hrow)
    · exact ⟨_, hrow, ⟨rfl, rfl⟩, rfl⟩
  | finds hs hrow his =>
    obtain ⟨row, hrow₂, hi, hc⟩ := ho
    obtain rfl := eq_of_is hrow hrow₂ his hi
    exact ⟨_, hs ▸ hrow, ⟨his.1, rfl⟩, hc⟩
  | loses hs hn =>
    obtain ⟨row, hrow, his, -⟩ := ho
    exact absurd his (hn row hrow)
  | adopts => exact ho.elim
  | taken hn =>
    obtain ⟨row, hrow, his, hc⟩ := ho
    exact hn row hrow his hc
  | fails | replays | starts | counts | exceeds | limits | abandons | completes => exact trivial

theorem Stepped.open (h : Stepped w a w' t t') (ho : t.Open w.tasks) : t'.Open w'.tasks := by
  cases h with
  | waits t hs =>
    rw [hs.tasks]
    exact ho
  | begins => exact ho.elim
  | crashes => exact trivial
  | works call req request' hw hs =>
    rw [hs.tasks]
    exact hw.open ho
  | states call req point fault ht =>
    rw [ht]
    exact (call.statement_next _ fault w.tasks point).open ho

/-- The call is told that another one has its task. -/
def Progress.refused : Progress → Bool
  | .relaying _ _ .refuse => true
  | _ => false

theorem Progress.Open.not_refused (h : t.Open s) : ¬ t.refused := by
  unfold Progress.refused
  split
  · exact fun _ => h
  · simp

theorem open_opened (h : Point.Open s call .reap) (unroutable denied : Option Failure) :
    (call.opened unroutable denied).Open s call := by
  unfold Relay.opened
  split
  · exact trivial
  · split
    · exact trivial
    · split
      · exact trivial
      · cases denied with
        | none => exact h
        | some err => exact trivial

theorem opened_reap (hc : call.request.chat.isSome) (hh : call.hopCount < maxDelegationHops) :
    call.opened none none = .reap := by
  unfold Relay.opened
  rw [if_neg (by simp [Option.isSome_iff_ne_none.mp hc])]
  exact if_neg hh.not_ge

theorem statement_lookup_refuse (call : Relay) (now : Int) (ht : call.tenantID ≠ "")
    (hr : row ∈ s.rows) (hh : row.Has call.tenantID call.idempotencyKey)
    (hs : row.status = .pending ∨ row.status = .running) :
    (call.statement now none s .lookup).2 = .refuse := by
  have hf : s.getByIdempotency call.tenantID call.idempotencyKey = .ok (some row) := by
    refine getByIdempotency_eq_ok.mpr ⟨ht, fun row' => ⟨fun h => ?_, fun h => ?_⟩⟩
    · cases h
      exact ⟨hr, hh⟩
    · rw [eq_of_has hr h.1 hh h.2]
  simp only [Relay.statement, read, hf, Except.mapError, afterLookup, afterFound]
  rcases hs with h | h <;> rw [h]

/-- A row that the reaper does not give up is there for the lookup. -/
theorem statement_reap_keeps (call : Relay) (now : Int) (ht : call.tenantID ≠ "")
    (hmem : row ∈ s.rows) (hs : ¬ stale call.tenantID call.staleBefore row) :
    (call.statement now none s .reap).2 = .lookup ∧
      row ∈ (call.statement now none s .reap).1.rows := by
  have hr : s.reapStaleRunning call.tenantID call.staleBefore now = .ok (_, _) :=
    validate_bind.mpr ⟨ht, rfl⟩
  simp only [Relay.statement, proceed, hr, write]
  exact ⟨trivial, mem_map.mpr ⟨row, hmem, if_neg hs⟩⟩

/-- The call as it is once it has begun. -/
def Relay.at (call : Relay) (now : Int) : Relay := { call with now }

variable [DecidableEq κ] [BudgetLedger σ] {tok : UnifiedRequest → Int}

/-- A call that nothing keeps from its task is not refused, whatever it is answered. -/
theorem not_refused_of_open (k : κ) (rest : List Action) : ∀ w : Threads (World σ τ) κ Progress,
    (w.own k).Open w.shared.tasks →
      ¬ ((run (step (act tok)) w (rest.map (k, ·))).own k).refused := by
  induction rest with
  | nil => exact fun w h => h.not_refused
  | cons a rest ih =>
    intro w h
    rw [map_cons, run_cons]
    refine ih _ ?_
    rw [step_own_self]
    exact (act_stepped tok w.shared (w.own k) a).open h

omit [DecidableEq κ] in
theorem act_begin {w : World σ τ} (hf : call.requestID ∉ w.issued) (elapsed : Nat)
    (unroutable denied : Option Failure) :
    act tok w .idle ⟨elapsed, .begin call unroutable denied⟩ =
      ({ w with clock := w.clock + elapsed, issued := call.requestID :: w.issued },
        .relaying (call.at (w.clock + elapsed)) (call.at (w.clock + elapsed)).context
          ((call.at (w.clock + elapsed)).opened unroutable denied)) :=
  if_neg hf

variable (tok) in
theorem step_begin {w : Threads (World σ τ) κ Progress} (hi : w.own k = .idle)
    (hf : call.requestID ∉ w.shared.issued) (el : Nat) (unroutable denied : Option Failure) :
    (w.step (act tok) (k, ⟨el, .begin call unroutable denied⟩)).own k =
        .relaying (call.at (w.shared.clock + el)) (call.at (w.shared.clock + el)).context
          ((call.at (w.shared.clock + el)).opened unroutable denied) ∧
      (w.step (act tok) (k, ⟨el, .begin call unroutable denied⟩)).shared.tasks
        = w.shared.tasks := by
  rw [step_own_self, step, hi, act_begin hf]
  exact ⟨rfl, rfl⟩

variable (tok) in
theorem step_statement {w : Threads (World σ τ) κ Progress} {req : RequestContext}
    (h : w.own k = .relaying call req point) (el : Nat) (fault : StoreFault) :
    (w.step (act tok) (k, ⟨el, .statement fault⟩)).own k = .relaying call req
          (call.statement (w.shared.clock + el) fault w.shared.tasks point).2 ∧
      (w.step (act tok) (k, ⟨el, .statement fault⟩)).shared.tasks =
        (call.statement (w.shared.clock + el) fault w.shared.tasks point).1 := by
  rw [step_own_self, step, h]
  exact ⟨rfl, rfl⟩

/-- A call that comes upon a row in progress is refused by its second statement. -/
theorem refused_of_row {w : Threads (World σ τ) κ Progress} {el : Nat} (hi : w.own k = .idle)
    (hf : call.requestID ∉ w.shared.issued) (ht : call.tenantID ≠ "")
    (hc : call.request.chat.isSome) (hh : call.hopCount < maxDelegationHops)
    (hr : row ∈ w.shared.tasks.rows) (hhas : row.Has call.tenantID call.idempotencyKey)
    (hs : row.status = .pending ∨ row.status = .running)
    (hst : ¬ stale call.tenantID (w.shared.clock + el - taskRunningTTL) row) :
    ((run (step (act tok)) w
      (([⟨el, .begin call none none⟩, ⟨0, .statement none⟩, ⟨0, .statement none⟩] :
        List Action).map (k, ·))).own k).refused := by
  have hop : (call.at (w.shared.clock + el)).opened none none = .reap :=
    opened_reap hc hh
  rw [map_cons, run_cons, map_cons, run_cons, map_cons, run_cons]
  have hb := step_begin tok hi hf el none none
  rw [hop] at hb
  generalize w.step (act tok) (k, ⟨el, .begin call none none⟩) = w₁ at hb ⊢
  obtain ⟨howns, htasks⟩ := hb
  obtain ⟨ho, hta⟩ := step_statement tok howns 0 none
  obtain ⟨hn, hk⟩ := statement_reap_keeps (call.at (w.shared.clock + el))
    (w₁.shared.clock + (0 : Nat)) ht (htasks ▸ hr) hst
  rw [hn] at ho
  generalize w₁.step (act tok) (k, ⟨0, .statement none⟩) = w₂ at ho hta ⊢
  obtain ⟨hown, -⟩ := step_statement tok ho 0 none
  rw [map_nil, run_nil, hown,
    statement_lookup_refuse (call.at (w.shared.clock + el)) _ ht (hta ▸ hk) hhas hs]
  rfl

/-- **A call that is made while no other makes a step is refused exactly when the row under its key
was inserted by a call that stopped before the task was started, or was left running within the
last five minutes, by the whole second.** -/
theorem later_call_admitted_iff {w : Threads (World σ τ) κ Progress} (hw : Reached estimateTokens w)
    (k : κ) (call : Relay) (elapsed : Nat) (hidle : w.own k = .idle)
    (hfresh : call.requestID ∉ w.shared.issued) (htenant : call.tenantID ≠ "")
    (hchat : call.request.chat.isSome) (hhops : call.hopCount < maxDelegationHops) :
    (∀ unroutable denied rest, ¬ ((run (Threads.step (act estimateTokens)) w
        ((⟨elapsed, .begin call unroutable denied⟩ :: rest).map (k, ·))).own k).refused) ↔
      (∀ other ∈ w.shared.unclaimed,
        ¬ (other.tenantID = call.tenantID ∧ other.idempotencyKey = call.idempotencyKey)) ∧
      ∀ row ∈ w.shared.tasks.rows, row.Has call.tenantID call.idempotencyKey →
        row.status = .running →
          row.updatedAt < seconds (w.shared.clock + elapsed - taskRunningTTL) := by
  have hb := pending_reached hw
  constructor
  · intro h
    refine ⟨fun other ho hs => ?_, fun row hmem hhas hr => ?_⟩
    · obtain ⟨row, hmem, -, hhas, hp⟩ := hb.left other ho
      rw [hs.1, hs.2] at hhas
      refine h none none _ (refused_of_row hidle hfresh htenant hchat hhops hmem hhas (.inl hp) ?_)
      simp [stale, hp]
    · by_contra hage
      refine h none none _ (refused_of_row hidle hfresh htenant hchat hhops hmem hhas (.inr hr) ?_)
      intro hst
      exact hage (of_decide_eq_true hst).2.2
  · rintro ⟨hu, hr⟩ unroutable denied rest
    rw [map_cons, run_cons]
    refine not_refused_of_open k rest _ ?_
    rw [step_own_self, step, hidle, act_begin hfresh]
    have hre : Point.Open w.shared.tasks (call.at (w.shared.clock + elapsed)) .reap := by
      refine fun row hmem hhas => ⟨fun hp => ?_, hr row hmem hhas⟩
      obtain ⟨other, ho, -, hh⟩ := hb.inserted row hmem hp
      exact hu other ho ⟨hh.1.symm.trans hhas.1, hh.2.symm.trans hhas.2⟩
    exact open_opened hre unroutable denied

end

/-! ### Crashes -/

/-- A call that crashes after so many of its steps. -/
def crashed (n elapsed : Nat) : List (Bool × Action) :=
  turns false (askedFirst.admission.take n) ++ [(false, ⟨elapsed, .crash⟩)]

/-- A retry 302 seconds after a crash during the call of the agent is not refused. -/
theorem retry_after_crash_admitted :
    askedAgain.tenantID ≠ "" ∧ ∀ unroutable denied rest, ¬ ((run (Threads.step (act fun _ => 1))
        (run relayStep twoCalls (crashed 10 0))
        ((⟨302000000000, .begin askedAgain unroutable denied⟩ :: rest).map (true, ·))).own
          true).refused := by
  refine ⟨by decide, (later_call_admitted_iff ⟨_, _, _, rfl⟩ true askedAgain 302000000000 rfl
    (by decide +kernel) (by decide) (by decide) (by decide +kernel)).mpr ?_⟩
  exact ⟨by decide +kernel, by decide +kernel⟩

/-- A retry so much later, up to its lookup. -/
def retried (elapsed : Nat) : List (Bool × Action) :=
  (true, ⟨elapsed, .begin askedAgain none none⟩) :: turns true [.statement none, .statement none]

/-- After a crash between the insert and the start the retry is refused ten years later.  After one
during the call of the agent it still is when more than five minutes have gone by, in the same
second. -/
theorem crash_blocks_key :
    ((run relayStep twoCalls (crashed 6 0 ++ retried (10 * 365 * 86400 * 1000000000))).own
        true).refused ∧
      ((run relayStep twoCalls (crashed 10 300000000 ++ retried 300100000000)).own
        true).refused := by
  decide +kernel

end LiteAIG.A2A
