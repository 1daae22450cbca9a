/-
A run leaves no reservation open.

A run has at most its own reservation open at any time, beside what was open before:
a call on the gateway's own account settles its reservation before it comes back,
unless there is nothing to call.  Accounting settles the run's own, whichever way the
run went, as long as the record has an id.  A tool call ends in the same way.
-/
import LiteAIG.Pipeline.Tool
import LiteAIG.Proofs.Budget.Open
import LiteAIG.Proofs.Pipeline.Answered

namespace LiteAIG.Pipeline

open Budget Guardrail Ledger Rate

/-! ### Rules for the chain of stages -/

section

variable {ρ ε : Type} {I : ρ → Prop} {first next : ρ → Option ε × ρ} {h : Handlers ρ ε}

theorem andThen_keeps (hf : ∀ r, I r → I (first r).2) (hn : ∀ r, I r → I (next r).2) (r : ρ)
    (h : I r) : I (andThen first next r).2 := by
  rcases andThen_eq first next r with ⟨_, -, heq⟩ | ⟨-, heq⟩
  · rw [heq]
    exact hf r h
  · rw [heq]
    exact hn _ (hf r h)

/-- What both parts have to do with success, from the end. -/
theorem andThen_none {r : ρ} (h : (andThen first next r).1 = none) :
    (first r).1 = none ∧ andThen first next r = next (first r).2 := by
  rcases andThen_eq first next r with ⟨err, he, heq⟩ | hn
  · rw [heq, he] at h
    cases h
  · exact hn

theorem runStage_keeps {stage : Stage} {ha : Handler ρ ε} (hk : ∀ r, I r → I (ha r).2)
    (r : ρ) (h : I r) : I (runStage stage ha r).2 := by
  rw [runStage_snd]
  exact hk r h

/-- What every stage keeps, the chain keeps, wherever it ends. -/
theorem stages_keep (ha : ∀ r, I r → I (h.admission r).2) (hi : ∀ r, I r → I (h.inputGuardrail r).2)
    (hp : ∀ r, I r → I (h.policyCostPreflight r).2) (hre : ∀ r, I r → I (h.resolution r).2)
    (he : ∀ r, I r → I (h.executionResilience r).2)
    (ho : ∀ r, I r → I (h.outputStreamGuardrail r).2) (r : ρ) (hr : I r) : I (h.stages r).2 := by
  refine andThen_keeps (runStage_keeps ha) (andThen_keeps (runStage_keeps hi) fun r hr => ?_) r hr
  have hpr := hp r hr
  unfold Handlers.fromPreflight
  generalize h.policyCostPreflight r = answer at hpr
  obtain ⟨_ | _ | _ | value, r'⟩ := answer
  · exact hpr
  · exact andThen_keeps (runStage_keeps hre)
      (andThen_keeps (runStage_keeps he) (runStage_keeps ho)) _ hpr
  · exact runStage_keeps ho _ hpr
  · exact hpr

/-- What the executor or a skip has brought about, and the output stage keeps, holds of a chain that
ends well. -/
theorem stages_end
    (hex : ∀ r, (h.executionResilience r).1 = .ok .proceed → I (h.executionResilience r).2)
    (hsk : ∀ r, (h.policyCostPreflight r).1 = .ok .skipResolutionExecution →
      I (h.policyCostPreflight r).2)
    (ho : ∀ r, I r → I (h.outputStreamGuardrail r).2) {r : ρ} (he : (h.stages r).1 = none) :
    I (h.stages r).2 := by
  unfold Handlers.stages at he ⊢
  obtain ⟨-, ha⟩ := andThen_none he
  rw [ha] at he ⊢
  obtain ⟨-, hg⟩ := andThen_none he
  rw [hg] at he ⊢
  generalize (runStage .inputGuardrail h.inputGuardrail _).2 = r₁ at he ⊢
  unfold Handlers.fromPreflight at he ⊢
  have hs := hsk r₁
  generalize h.policyCostPreflight r₁ = answer at he hs ⊢
  obtain ⟨_ | _ | _ | value, r₂⟩ := answer
  · cases he
  · dsimp only at he ⊢
    obtain ⟨-, hr⟩ := andThen_none he
    rw [hr] at he ⊢
    obtain ⟨hexe, heq⟩ := andThen_none he
    rw [heq, runStage_snd, runStage_snd]
    exact ho _ (hex _ (runStage_eq_none.mp hexe))
  · dsimp only
    rw [runStage_snd]
    exact ho _ (hs rfl)
  · cases he

end

variable {σ τ : Type} [BudgetLedger σ]

/-! ### The finalizer -/

theorem release_closes (g : Gateway σ τ) (pid id : String) :
    g.budget.manager.OpensNone (g.release pid id).budget.manager ∧
      (id ≠ "" → ¬ (g.release pid id).budget.manager.Open pid id) := by
  by_cases hid : id = ""
  · rw [Gateway.release, if_pos hid]
    exact ⟨.refl _, fun h => absurd hid h⟩
  · rw [release_of_reserved hid, manager_release]
    exact ⟨opensNone_settle, fun _ => not_open_settle⟩

/-- Whatever the repository says and whatever is charged, the reservation is not open afterwards. -/
theorem finalizer_closes (g : Gateway σ τ) (refusal : Option Failure) (facts : Facts) :
    g.budget.manager.OpensNone (g.finalizer refusal facts).2.budget.manager ∧
      (facts.reservationID ≠ "" → ¬ (g.finalizer refusal facts).2.budget.manager.Open
        facts.budgetPolicyID facts.reservationID) := by
  unfold Gateway.finalizer
  cases refusal with
  | some err => exact release_closes ..
  | none =>
    dsimp only
    split
    · rename_i hid
      exact ⟨.refl _, fun h => absurd hid h⟩
    · cases facts.actualTokens with
      | none => exact release_closes ..
      | some actual =>
        dsimp only
        obtain ⟨hr, hm⟩ := manager_reconcile (g.write (.recorded facts)).budget
          facts.budgetPolicyID facts.reservationID actual
        generalize BudgetEnforcer.reconcile (g.write (.recorded facts)).budget
          facts.budgetPolicyID facts.reservationID actual = settled at hr hm ⊢
        obtain ⟨result, budget⟩ := settled
        dsimp only at hr hm
        rcases reconcile_cases (g.write (.recorded facts)).budget.manager facts.budgetPolicyID
          facts.reservationID actual with hok | ⟨err, he⟩
        · rw [hok] at hr hm
          subst hr
          simp only [Gateway.write, hm]
          exact ⟨opensNone_settle, fun _ => not_open_settle⟩
        · rw [he] at hr hm
          subst hr
          obtain ⟨hn, hc⟩ := release_closes
            { g.write (.recorded facts) with budget } facts.budgetPolicyID facts.reservationID
          have hs : { g.write (.recorded facts) with budget }.budget.manager
              = g.budget.manager := hm
          exact ⟨hs ▸ hn, hc⟩

/-! ### What a run has open -/

/-- Beside what was open before, a run has at most the reservation in its request open. -/
def Run.OnlyOwn (m : Manager) (r : Run σ τ) : Prop :=
  ∀ p id, r.gateway.budget.manager.Holds p id → m.Holds p id ∨
    id ≠ "" ∧ p = r.request.budgetPolicyID ∧ id = r.request.reservationID

/-- A run has left nothing open, neither its own reservation nor any other that was not open. -/
structure Run.Closed (m : Manager) (r : Run σ τ) : Prop where
  own : r.request.reservationID ≠ "" →
    ¬ r.gateway.budget.manager.Open r.request.budgetPolicyID r.request.reservationID
  others : ∀ p id, r.gateway.budget.manager.Open p id → m.Holds p id

variable {m : Manager} {r r' : Run σ τ}

omit [BudgetLedger σ] in
theorem Run.OnlyOwn.move (h : r.OnlyOwn m)
    (hn : r.gateway.budget.manager.OpensNone r'.gateway.budget.manager)
    (hp : r'.request.budgetPolicyID = r.request.budgetPolicyID)
    (hid : r'.request.reservationID = r.request.reservationID) : r'.OnlyOwn m := by
  intro p id hh
  rw [hp, hid]
  exact h p id (hn p id hh)

variable {ans : Answers} {usageID : String} {α : Type} {sum : Text → Text}
  {tok : UnifiedRequest → Int}

theorem recordUsage_closes {ans : AccountingAnswers} (hu : ans.usageID = .ok usageID)
    (h : r.OnlyOwn m) (facts : UsageFacts) : (r.recordUsage ans facts).2.Closed m := by
  unfold Run.recordUsage
  rw [hu]
  dsimp only
  generalize hr : Facts.mk usageID r.request.requestID "" facts.outcome _ facts.inputTokens
    facts.outputTokens r.request.budgetPolicyID r.request.reservationID _ = record
  obtain ⟨hn, hc⟩ := finalizer_closes r.gateway ans.refusal record
  rw [show record.budgetPolicyID = r.request.budgetPolicyID by rw [← hr],
    show record.reservationID = r.request.reservationID by rw [← hr]] at hc
  refine ⟨hc, fun p id ho => ?_⟩
  rcases h p id (hn p id ho.holds) with hb | ⟨hid, rfl, rfl⟩
  · exact hb
  · exact absurd ho (hc hid)

theorem reserveBudget_onlyOwn (tok : UnifiedRequest → Int) (ticket : Ticket) (h : r.OnlyOwn m) :
    Run.OnlyOwn m ⟨(reserveBudget tok ticket r.request r.gateway.budget).2.1,
      { r.gateway with
        budget := (reserveBudget tok ticket r.request r.gateway.budget).2.2 }⟩ := by
  unfold reserveBudget
  split
  · exact h
  rename_i hne
  rw [not_not] at hne
  -- there is no reservation yet, so nothing is open that was not
  have hb : ∀ p id, r.gateway.budget.manager.Holds p id → m.Holds p id := by
    intro p id hh
    rcases h p id hh with hm | ⟨hid, -, how⟩
    · exact hm
    · exact absurd (how.trans hne) hid
  cases budgetPolicyFor r.request.policies r.request.caller ticket.policyAt with
  | none => exact h
  | some policy =>
    dsimp only
    cases ticket.id with
    | error err => exact h
    | ok x =>
      dsimp only
      have ho := enforcer_reserve_opens r.gateway.budget policy x
        (tok r.request.request) ticket.reserveAt
      generalize r.gateway.budget.reserve policy x (tok r.request.request)
        ticket.reserveAt = answer at ho ⊢
      obtain ⟨result, budget⟩ := answer
      rcases ho with ⟨reserved, hr, hx, hid, hp, hm⟩ | ⟨⟨err, hr⟩, hn⟩
      · dsimp only at hr hm
        subst hr
        rintro p id ⟨place, hop⟩
        rw [show (⟨_, { r.gateway with budget }⟩ : Run σ τ).gateway.budget.manager = _ from hm]
          at hop
        rcases openIn_reserve hop with hh | ⟨-, rfl, -, rfl⟩
        · exact Or.inl (hb p id hh)
        · exact Or.inr ⟨hx, hp.symm, hid.symm⟩
      · dsimp only at hr
        subst hr
        exact h.move hn rfl rfl

/-! ### Calls on the gateway's own account -/

/-- There is something to call. -/
def AuxiliaryCall.Available {α : Type} (call : AuxiliaryCall α) : Prop :=
  ∀ err, call.outcome ≠ .unavailable err

theorem auxiliary_opensNone {call : AuxiliaryCall α} (ha : call.Available) (kind : String)
    (estimated : Int) (req : RequestContext) (g : Gateway σ τ) :
    g.budget.manager.OpensNone (call.run kind estimated req g).2.budget.manager := by
  unfold AuxiliaryCall.run reserveAuxiliary
  cases budgetPolicyFor req.policies req.caller call.ticket.policyAt with
  | none =>
    cases ho : call.outcome with
    | unavailable err => exact absurd ho (ha err)
    | failed err | answered usage value =>
      dsimp only
      rw [recordAuxiliaryUsage_unreserved.1]
      exact .refl _
  | some p =>
    dsimp only
    cases call.ticket.id with
    | error err => exact .refl _
    | ok x =>
      generalize (if estimated ≤ 0 then 1 else estimated) = est
      dsimp only
      have hop := enforcer_reserve_opens g.budget p x est call.ticket.reserveAt
      have hc := enforcer_reserve_cases g.budget p x est call.ticket.reserveAt
      generalize g.budget.reserve p x est call.ticket.reserveAt = answer at hop hc ⊢
      obtain ⟨result, budget⟩ := answer
      rcases hop with ⟨reserved, hr, hx, hid, hp, hm⟩ | ⟨⟨err, hr⟩, hn⟩
      · dsimp only at hr hm
        subst hr
        dsimp only
        rw [hid, hp]
        have hf : ∃ s, budget.manager.reservation p.id x = some s := by
          rcases hc with ⟨reserved', hok, -⟩ | ⟨⟨err, -, he⟩, -⟩ | ⟨_, _, -, he, -⟩
          · rw [hm]
            exact (found_of_reserve hok).2.2.2
          · cases he
          · cases he
        obtain ⟨s, hf⟩ := hf
        cases ho : call.outcome with
        | unavailable err => exact absurd ho (ha err)
        | failed err | answered usage value =>
          obtain ⟨tokens, entries, hma, -⟩ :=
            recordAuxiliaryUsage_found (g := { g with budget }) call.usageID hx hf
          dsimp only
          rw [hma]
          dsimp only
          rw [hm]
          exact opensNone_reserve_settle
      · dsimp only at hr
        subst hr
        exact hn

theorem opensNone_afterCall {call : Option (AuxiliaryCall α)} {req : RequestContext}
    {g g' : Gateway σ τ} (ha : ∀ call', call = some call' → call'.Available)
    (h : Gateway.AfterCall call req g g') : g.budget.manager.OpensNone g'.budget.manager := by
  rcases h with rfl | ⟨call', kind, estimated, request', hc, -, -, rfl⟩
  · exact .refl _
  · exact auxiliary_opensNone (ha call' hc) _ _ _ _

/-! ### The stages -/

/-- The calls that a run may make on the gateway's own account have something to call. -/
structure Answers.Available (answers : Answers) : Prop where
  embedding : ∀ lookup, answers.preflight.semantic = some lookup → lookup.call.Available
  judge : ∀ call, answers.output.judge = some call → call.Available

/-- The caches make at most one call, and if they end the run they have an answer. -/
theorem caches_spec (ans : PreflightAnswers) (r : Run σ τ) :
    ((caches ans r).2.request.budgetPolicyID = r.request.budgetPolicyID ∧
      (caches ans r).2.request.reservationID = r.request.reservationID ∧
      ((caches ans r).1 = .skipResolutionExecution →
        (caches ans r).2.request.response.isSome)) ∧
    Gateway.AfterCall (ans.semantic.map SemanticLookup.call) r.request r.gateway
      (caches ans r).2.gateway := by
  unfold caches
  split
  · exact ⟨⟨rfl, rfl, fun h => by cases h⟩, Or.inl rfl⟩
  unfold exactCache
  cases ans.cache with
  | hit resp => exact ⟨⟨rfl, rfl, fun _ => rfl⟩, Or.inl rfl⟩
  | bypass | miss =>
    cases ans.semantic with
    | none => exact ⟨⟨rfl, rfl, fun h => by cases h⟩, Or.inl rfl⟩
    | some lookup =>
      refine ⟨?_, Or.inr ⟨lookup.call, _, _, _, rfl, rfl, rfl, semanticCache_gateway lookup _⟩⟩
      dsimp only [Option.map_some, Option.getD_some, semanticCache]
      split
      · split
        · exact ⟨rfl, rfl, fun _ => rfl⟩
        · exact ⟨rfl, rfl, fun h => by cases h⟩
      · exact ⟨rfl, rfl, fun h => by cases h⟩

omit [BudgetLedger σ] in
theorem executionStage_onlyOwn (h : r.OnlyOwn m) :
    (executionStage sum ans r).2.OnlyOwn m := by
  unfold executionStage
  split
  · dsimp only
    split <;> exact h
  · split <;> exact h

omit [BudgetLedger σ] in
theorem executionStage_answered (hp : ans.executeWithPool ≠ .ok none)
    (h : (executionStage sum ans r).1 = .ok .proceed) :
    (executionStage sum ans r).2.request.response.isSome := by
  unfold executionStage at h ⊢
  split at h
  · rename_i hs
    rw [if_pos hs]
    dsimp only at h ⊢
    cases he : ans.executeStream.err with
    | some err =>
      rw [he] at h
      cases h
    | none => rfl
  · rename_i hs
    rw [if_neg hs]
    cases ha : ans.executeWithPool with
    | error err =>
      rw [ha] at h
      cases h
    | ok resp =>
      cases resp with
      | none => exact absurd ha hp
      | some resp => rfl

theorem outputGuardrail_onlyOwn {guard : OutputGuard}
    (ha : ∀ call, guard.judge = some call → call.Available) (h : r.OnlyOwn m) :
    (outputGuardrail sum guard r).2.OnlyOwn m := by
  obtain ⟨⟨resp, hr, -⟩, haf, -⟩ := outputGuardrail_after sum guard r
  refine h.move (opensNone_afterCall ha haf) ?_ ?_
  · rw [hr]
  · rw [hr]

theorem outputGuardrail_answered (guard : OutputGuard)
    (h : r.request.response.isSome) : (outputGuardrail sum guard r).2.request.response.isSome := by
  obtain ⟨⟨resp, hr, hs⟩, -, -⟩ := outputGuardrail_after sum guard r
  rw [hr]
  exact hs.trans h

variable [TPM τ]

theorem preflight_onlyOwn {ans : PreflightAnswers} (tok : UnifiedRequest → Int)
    (ha : ∀ lookup, ans.semantic = some lookup → lookup.call.Available) (h : r.OnlyOwn m) :
    (preflight tok ans r).2.OnlyOwn m := by
  unfold preflight
  cases ans.approvals with
  | some err => exact h
  | none =>
    dsimp only
    split
    · exact h
    split
    · exact h
    generalize (TPM.reserve ans.tpmLimit r.request.caller.tenantID r.request.caller.projectID
      (tok r.request.request) ans.meteredAt r.gateway.tpm).2 = tpm
    have hr := reserveBudget_onlyOwn
      (r := ⟨{ r.request with tpmEstimated := tok r.request.request },
        { r.gateway with tpm }⟩) tok ans.ticket h
    dsimp only at hr
    generalize reserveBudget tok ans.ticket
      { r.request with tpmEstimated := tok r.request.request } r.gateway.budget
      = reserved at hr ⊢
    obtain ⟨_ | err, request, budget⟩ := reserved
    · dsimp only at hr ⊢
      obtain ⟨⟨hp, hid, -⟩, haf⟩ :=
        caches_spec ans ⟨request, { r.gateway with budget, tpm }⟩
      refine hr.move (opensNone_afterCall (fun call hc => ?_) haf) hp hid
      obtain ⟨lookup, hl, rfl⟩ := Option.map_eq_some_iff.mp hc
      exact ha lookup hl
    · exact hr

theorem preflight_skip_answered {ans : PreflightAnswers}
    (h : (preflight tok ans r).1 = .ok .skipResolutionExecution) :
    (preflight tok ans r).2.request.response.isSome := by
  unfold preflight at h ⊢
  cases ha : ans.approvals with
  | some err =>
    rw [ha] at h
    cases h
  | none =>
    rw [ha] at h
    dsimp only at h ⊢
    split at h
    · cases h
    rename_i hl
    rw [if_neg hl]
    split at h
    · cases h
    rename_i hm
    rw [if_neg hm]
    split at h
    · cases h
    · exact (caches_spec ans _).1.2.2 (Except.ok.inj h)

theorem stages_onlyOwn (sum : Text → Text) (tok : UnifiedRequest → Int)
    (ha : ans.Available) (h : r.OnlyOwn m) :
    ((handlers sum tok ans).stages r).2.OnlyOwn m := by
  refine stages_keep (I := fun r : Run σ τ => r.OnlyOwn m) (fun _ h => h) (fun r h => ?_)
    (fun _ h => preflight_onlyOwn tok ha.embedding h) (fun r h => ?_)
    (fun _ h => executionStage_onlyOwn h)
    (fun _ h => outputGuardrail_onlyOwn ha.judge h) r h
  · simp only [handlers, inputGuardrail]
    split <;> exact h
  · simp only [handlers, resolution]
    split <;> exact h

theorem stages_answered (hp : ans.executeWithPool ≠ .ok none)
    (h : ((handlers sum tok ans).stages r).1 = none) :
    ((handlers sum tok ans).stages r).2.request.response.isSome :=
  stages_end (I := fun r : Run σ τ => r.request.response.isSome)
    (fun _ h => executionStage_answered hp h) (fun _ h => preflight_skip_answered h)
    (fun _ h => outputGuardrail_answered ans.output h) h

/-! ### Whole requests -/

omit [BudgetLedger σ] in
theorem Run.Closed.reconcileTPM (h : r.Closed m) (ans : AccountingAnswers) :
    (r.reconcileTPM ans).Closed m := ⟨h.own, h.others⟩

theorem accountingStage_closes {ans : AccountingAnswers} (hu : ans.usageID = .ok usageID)
    (h : r.OnlyOwn m) (he : r.request.err = none → r.request.response.isSome) :
    (accountingStage ans r).2.Closed m := by
  apply accountingStage_rule (P := fun r' => r'.Closed m)
  · exact fun _ hc => hc.reconcileTPM ans
  · exact fun _ _ => recordUsage_closes hu h _
  · intro hn hr
    simp [hr] at he
    exact absurd hn he
  · exact fun _ => recordUsage_closes hu h _

omit [BudgetLedger σ] [TPM τ] in
theorem Run.onlyOwn_start (r : Run σ τ) : r.OnlyOwn r.gateway.budget.manager :=
  fun _ _ h => Or.inl h

/-- A run through the pipeline that takes a reservation has settled it when it returns. -/
theorem litePipeline_closes (sum : Text → Text) (tok : UnifiedRequest → Int)
    (hu : ans.accounting.usageID = .ok usageID) (hp : ans.executeWithPool ≠ .ok none)
    (ha : ans.Available) (r : Run σ τ) (hn : r.request.reservationID = "") :
    (litePipeline sum tok ans r).2.Closed r.gateway.budget.manager := by
  unfold litePipeline
  split
  · exact ⟨fun h => absurd hn h, fun _ _ h => h.holds⟩
  · dsimp only
    rw [run_snd]
    have ho := stages_onlyOwn sum tok ha r.onlyOwn_start
    exact accountingStage_closes hu ho fun he => stages_answered hp he

/-! ### Tool calls -/

section

variable {σ τ : Type} [BudgetLedger σ] {m : Manager} {r : Run σ τ}

theorem admitTool_onlyOwn (tok : UnifiedRequest → Int) (limiterAllows : Bool) (ticket : Ticket)
    (h : r.OnlyOwn m) : (r.admitTool tok limiterAllows ticket).2.OnlyOwn m := by
  unfold Run.admitTool
  split
  · exact h
  · exact reserveBudget_onlyOwn tok ticket h

theorem finalizeTool_closes {ans : AccountingAnswers} {usageID : String}
    (hu : ans.usageID = .ok usageID) (h : r.OnlyOwn m) (protocol : String)
    (resp : Option Reply) (cause : Option Failure) :
    (r.finalizeTool ans protocol resp cause).2.Closed m := by
  unfold Run.finalizeTool
  dsimp only
  have hc := recordUsage_closes
    (r := { r with request := { r.request with source := toolSource protocol r.request.source } })
    hu h ⟨(cause.map fun err => outcomeForError (.failed .executionResilience err)).getD "success",
      ((resp.map Reply.usage).getD .zero).inputTokens,
      ((resp.map Reply.usage).getD .zero).outputTokens, cause.isNone⟩
  have ho := hc.own
  rw [recordUsage_request] at ho
  exact ⟨ho, hc.others⟩

/-- A tool call that takes a reservation has settled it when it returns. -/
theorem tool_closes (tok : UnifiedRequest → Int) {ans : ToolAnswers} {usageID : String}
    (hu : ans.accounting.usageID = .ok usageID) (r : Run σ τ)
    (hn : r.request.reservationID = "") :
    (r.tool tok ans).2.Closed r.gateway.budget.manager := by
  have hun : r.Closed r.gateway.budget.manager :=
    ⟨fun h => absurd hn h, fun _ _ h => h.holds⟩
  have ha := admitTool_onlyOwn tok ans.limiterAllows ans.ticket r.onlyOwn_start
  unfold Run.tool
  cases ans.toolgate with
  | some err => exact hun
  | none =>
    cases ans.approvals with
    | some err => exact finalizeTool_closes hu r.onlyOwn_start ..
    | none =>
      cases ans.server with
      | some err => exact hun
      | none =>
        dsimp only
        generalize r.admitTool tok ans.limiterAllows ans.ticket = admitted
          at ha ⊢
        obtain ⟨_ | err, r₁⟩ := admitted
        · cases ans.connector with
          | some err => exact finalizeTool_closes hu ha ..
          | none =>
            rcases ans.invoked with ⟨err, normalized⟩ | resp
            · exact finalizeTool_closes hu ha ..
            · dsimp only
              split <;> exact finalizeTool_closes hu ha ..
        · exact finalizeTool_closes hu ha ..

end

end LiteAIG.Pipeline
