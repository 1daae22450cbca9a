/-
What a call has reserved when it returns.

A call of `invokeA2ARelay` reserves when it is admitted, and every way out after that
goes through `finalizeTool`, except one.  A call that lost the insert to another one
reads the row of that again; if it is completed by then, its result is returned at
once.  The same is said of runs through the pipeline and of tool calls, which have no
such way out, but may make calls on the gateway's own account.
-/
import LiteAIG.Proofs.A2A.Steps
import LiteAIG.Proofs.Pipeline.Consumed
import LiteAIG.Proofs.Pipeline.Reservations

namespace LiteAIG.A2A

open Lib Budget Guardrail Ledger Pipeline Rate Threads

/-! ### One step -/

/-- The points before a call is admitted. -/
def Point.early : Point → Bool
  | .reap | .lookup | .reserve _ => true
  | _ => false

/-- The call is about to read the row of the one that was first. -/
def Progress.rereads : Progress → Bool
  | .relaying _ _ .reread => true
  | _ => false

/-- The call has returned. -/
def Progress.returned : Progress → Bool
  | .relaying call _ point => (point.answer call).isSome
  | .idle | .crashed _ _ => false

/-- The call has a reservation, and it is open. -/
def Progress.Owes {σ τ : Type} (w : World σ τ) : Progress → Prop
  | .relaying _ request _ => request.reservationID ≠ "" ∧
      w.gateway.budget.manager.Open request.budgetPolicyID request.reservationID
  | .idle | .crashed _ _ => False

/-- A call that is not admitted has no reservation. -/
def Progress.Early : Progress → Prop
  | .relaying _ request point => point.early → request.reservationID = ""
  | .idle | .crashed _ _ => True

section

variable {σ τ κ : Type} {w w' : World σ τ} {t t' : Progress} {s s' : A2ATaskStore}
  {point next : Point}

/-- What a step can do to the request of its call, and what is open after it. -/
inductive Billed (w w' : World σ τ) : Progress → Progress → Prop
  | waits (t : Progress) : Billed w w' t t
  | begins (call : Relay) (point : Point) :
      Billed w w' .idle (.relaying call call.context point)
  | states (call : Relay) (request : RequestContext) {point next : Point} {now : Int}
      {s s' : A2ATaskStore} (hnext : call.Next now s s' point next)
      (hgateway : w'.gateway = w.gateway) :
      Billed w w' (.relaying call request point) (.relaying call request next)
  | works (call : Relay) (request request' : RequestContext) {point point' : Point}
      (hearly : ¬ point'.early) (hanswer : point'.answer call = none) :
      Billed w w' (.relaying call request point) (.relaying call request' point')
  | accounts (call : Relay) (request request' : RequestContext) {point : Point}
      (answer : Except Failure (Option Reply)) (hreread : point ≠ .reread)
      (hclosed : request'.reservationID ≠ "" →
        ¬ w'.gateway.budget.manager.Open request'.budgetPolicyID request'.reservationID) :
      Billed w w' (.relaying call request point) (.relaying call request' (.returned answer))
  | crashes (call : Relay) (request : RequestContext) (point : Point) :
      Billed w w' (.relaying call request point) (.crashed call point)

/-- The record of the step gets an id, if the step makes one. -/
def Event.named : Event → Bool
  | .account answers => answers.usageID.isOk
  | _ => true

theorem Event.named_account {ans : AccountingAnswers} (h : (Event.account ans).named) :
    ∃ usageID, ans.usageID = .ok usageID := by
  cases hid : ans.usageID with
  | ok usageID => exact ⟨usageID, rfl⟩
  | error err =>
    rw [Event.named, hid] at h
    cases h

theorem Relay.Next.early {call : Relay} {now : Int} (h : call.Next now s s' point next)
    (he : next.early) : point.early := by
  cases h with
  | stays => exact he
  | reaps | opens | retries => rfl
  | fails | replays | refuses | creates | finds | loses | adopts | starts | taken | counts | exceeds
  | limits | abandons | completes => cases he

theorem Billed.early (h : Billed w w' t t') (ht : t.Early) : t'.Early := by
  cases h with
  | waits => exact ht
  | begins => exact fun _ => rfl
  | states call req hn => exact fun he => ht (hn.early he)
  | works call req request' he => exact fun h => absurd h he
  | accounts => exact fun h => by cases h
  | crashes => exact trivial

theorem Relay.Next.answers {call : Relay} {now : Int} (h : call.Next now s s' point next)
    (hw : point.answer call = none) (ha : (next.answer call).isSome) :
    point = .lookup ∨ point = .reread := by
  cases h with
  | stays =>
    rw [hw] at ha
    cases ha
  | replays _ hp => exact hp
  | fails | reaps | opens | retries | refuses | creates | finds | loses | adopts | starts | taken
  | counts | exceeds | limits | abandons | completes => cases ha

/-- A call that returns leaves its reservation open if it read the row again with it, and not
otherwise. -/
theorem Billed.returned (h : Billed w w' t t') (ht : t.Early) (hw : ¬ t.returned)
    (hr : t'.returned) : ¬ t'.Owes w' ↔ ¬ (t.rereads ∧ t.Owes w) := by
  cases h with
  | waits => exact absurd hr hw
  | begins call point => exact iff_of_true (fun h => h.1 rfl) (by simp [Progress.rereads])
  | states call req hn hg =>
    rcases hn.answers (by simpa [Progress.returned] using hw) hr with rfl | rfl
    · exact iff_of_true (fun h => h.1 (ht rfl)) (by simp [Progress.rereads])
    · simp only [Progress.Owes, Progress.rereads, hg, true_and]
  | works call req request' he ha =>
    rw [Progress.returned, ha] at hr
    cases hr
  | accounts call req request' answer hre hc =>
    refine iff_of_true (fun h => hc h.1 h.2) fun h => ?_
    unfold Progress.rereads at h
    split at h
    · rename_i heq
      cases heq
      exact hre rfl
    · cases h.1
  | crashes => cases hr

variable [BudgetLedger σ] (tok : UnifiedRequest → Int)

theorem act_billed (w : World σ τ) (t : Progress) {a : Action} (hn : a.event.named) :
    Billed w (act tok w t a).1 t (act tok w t a).2 := by
  unfold act
  dsimp only
  split
  case h_1 call unroutable denied he =>
    split
    · exact .waits _
    · exact .begins _ _
  case h_2 call req point fault he =>
    exact .states call req (call.statement_next _ fault w.tasks point) rfl
  case h_3 call req task limiterAllows ticket he =>
    split
    · exact .works _ _ _ (by simp [Point.fail, Point.early]) rfl
    · exact .works _ _ _ (by simp [Point.early]) rfl
  case h_4 call req task err he =>
    cases err with
    | none => cases task <;> exact .works _ _ _ (by simp [afterApproval, Point.early]) rfl
    | some err => exact .works _ _ _ (by simp [Point.fail, Point.early]) rfl
  case h_5 call req task err he =>
    cases err with
    | none => exact .works _ _ _ (by simp [Point.early]) rfl
    | some err => exact .works _ _ _ (by simp [Point.fail, Point.early]) rfl
  case h_6 call req task invocation he =>
    split
    · exact .works _ _ _ (by simp [Point.early]) rfl
    · exact .works _ _ _ (by simp [Point.early]) rfl
  case h_7 call req answers he =>
    obtain ⟨usageID, hu⟩ := Event.named_account (he ▸ hn)
    exact .accounts _ _ _ _ (by simp)
      (finalizeTool_closes hu (Run.onlyOwn_start ⟨req, w.gateway⟩) ..).own
  case h_8 call req response cause answer answers he =>
    obtain ⟨usageID, hu⟩ := Event.named_account (he ▸ hn)
    exact .accounts _ _ _ _ (by simp)
      (finalizeTool_closes hu (Run.onlyOwn_start ⟨req, w.gateway⟩) ..).own
  case h_9 call req point he => exact .crashes _ _ _
  case h_10 => exact .waits _

/-! ### Whole runs -/

variable [DecidableEq κ]

theorem early_run (w : Threads (World σ τ) κ Progress) (hid : ∀ k, w.own k = .idle)
    (hi : List (κ × Action)) (hn : ∀ b ∈ hi, b.2.event.named) (k : κ) :
    ((run (step (act tok)) w hi).own k).Early := by
  have hal : Allowed (step (act tok)) (Meets fun _ _ a => a.event.named) w hi :=
    allowed_of_mem _ _ fun b hb _ => hn b hb
  refine (Sound.run (I := fun _ => True) (J := fun _ t => t.Early) ?_ hi w
    ⟨trivial, fun k => ?_⟩ hal).own k
  · intro w t a _ ht ha
    exact ⟨trivial, (act_billed tok w t ha).early ht, fun _ h => h⟩
  · rw [hid k]
    exact trivial

theorem relay_returned_iff (w : Threads (World σ τ) κ Progress) (hid : ∀ k, w.own k = .idle)
    (hi : List (κ × Action)) (k : κ) (a : Action) (hn : ∀ b ∈ hi ++ [(k, a)], b.2.event.named)
    (hw : ¬ ((run (step (act tok)) w hi).own k).returned)
    (hr : ((run (step (act tok)) w (hi ++ [(k, a)])).own k).returned) :
    ¬ ((run (step (act tok)) w (hi ++ [(k, a)])).own k).Owes
        (run (step (act tok)) w (hi ++ [(k, a)])).shared ↔
      ¬ (((run (step (act tok)) w hi).own k).rereads ∧
        ((run (step (act tok)) w hi).own k).Owes
          (run (step (act tok)) w hi).shared) := by
  have he := early_run tok w hid hi (fun b hb => hn b (List.mem_append_left _ hb)) k
  have ha : a.event.named := hn (k, a) (List.mem_append_right _ List.mem_cons_self)
  rw [run_append, run_cons, run_nil] at hr ⊢
  generalize run (step (act tok)) w hi = before at hw hr he ⊢
  rw [step_own_self] at hr ⊢
  exact (act_billed tok before.shared (before.own k) ha).returned he hw hr

end

/-- **When a request returns, its reservation is not open.**  Of a run through the pipeline this
holds, and of the reservations of the calls it makes on the gateway's own account, as long as these
have something to call.  Of a tool call it always holds.  Of a relay call among others it holds
unless the call has its reservation open when it reads the row of another call again, and returns
what it finds there. -/
theorem reservation_closed_on_return (σ τ κ : Type) [BudgetLedger σ] [TPM τ] [DecidableEq κ]
    (estimateTokens : UnifiedRequest → Int) :
    (∀ (sum : Text → Text) (answers : Answers) (usageID : String) (r : Run σ τ),
      answers.accounting.usageID = .ok usageID → answers.executeWithPool ≠ .ok none →
      r.request.reservationID = "" → answers.Available →
        (litePipeline sum estimateTokens answers r).2.Closed r.gateway.budget.manager) ∧
    (∀ (answers : ToolAnswers) (usageID : String) (r : Run σ τ),
      answers.accounting.usageID = .ok usageID → r.request.reservationID = "" →
        (r.tool estimateTokens answers).2.Closed r.gateway.budget.manager) ∧
    ∀ (w : Threads (World σ τ) κ Progress) (history : List (κ × Action)) (k : κ) (a : Action),
      (∀ k, w.own k = .idle) → (∀ b ∈ history ++ [(k, a)], b.2.event.named) →
      ¬ ((run (Threads.step (act estimateTokens)) w history).own k).returned →
      ((run (Threads.step (act estimateTokens)) w (history ++ [(k, a)])).own k).returned →
        (¬ ((run (Threads.step (act estimateTokens)) w (history ++ [(k, a)])).own k).Owes
            (run (Threads.step (act estimateTokens)) w (history ++ [(k, a)])).shared ↔
          ¬ (((run (Threads.step (act estimateTokens)) w history).own k).rereads ∧
            ((run (Threads.step (act estimateTokens)) w history).own k).Owes
              (run (Threads.step (act estimateTokens)) w history).shared)) := by
  refine ⟨fun sum answers usageID r hu hp hne ha => ?_,
    fun answers usageID r hu hne => ?_, fun w history k a hi hn hw hr => ?_⟩
  · exact litePipeline_closes sum estimateTokens hu hp ha r hne
  · exact tool_closes estimateTokens hu r hne
  · exact relay_returned_iff estimateTokens w hi history k a hn hw hr

/-! ### Requests of a tenant with a budget -/

/-- Two calls that have not begun, and a ledger. -/
def budgeted : Threads (World MemoryBudgetLedger (Meter Int)) Bool Progress :=
  ⟨.new ⟨.new (.new 0), .new, []⟩ 0, fun _ => .idle⟩

def billedFirst : Relay := { askedFirst with policies := [dailyPolicy] }

def billedAgain : Relay := { askedAgain with policies := [dailyPolicy] }

def billedRun :
    List (Bool × Action) → Threads (World MemoryBudgetLedger (Meter Int)) Bool Progress :=
  run (Threads.step (act fun _ => 1)) budgeted

/-- A call up to the record. -/
def unrecorded : List (Bool × Action) :=
  turns false (billedFirst.admission ++ (completion "first").take 2)

/-- And with it. -/
def recorded : List (Bool × Action) :=
  unrecorded ++ [(false, ⟨0, .account ⟨.ok "u", none, none, 0⟩⟩)]

/-- A tool call whose server fails after the reservation. -/
def toolFails : ToolAnswers :=
  ⟨none, none, none, true, ⟨.ok "r1", 0, 0⟩, none, .error (.other "down", .other "down"), none,
    ⟨.ok "u1", none, none, 0⟩⟩

theorem answered_requests_closed :
    (litePipeline id (fun _ => 1) (plainAnswers []) chatRun).2.Closed
        chatRun.gateway.budget.manager ∧
      ((chatRun.tool (fun _ => 1) toolFails).2.gateway.budget.manager.reservation "daily" "r1" =
          some ⟨1, true⟩ ∧
        (chatRun.tool (fun _ => 1) toolFails).2.Closed chatRun.gateway.budget.manager) ∧
      (billedRun unrecorded).shared.gateway.budget.manager.reservation "daily" "r" =
        some ⟨1, false⟩ ∧
      ¬ ((billedRun recorded).own false).Owes (billedRun recorded).shared := by
  have hc := reservation_closed_on_return MemoryBudgetLedger (Meter Int) Bool fun _ => 1
  refine ⟨?_, ⟨by decide +kernel, hc.2.1 toolFails "u1" chatRun rfl rfl⟩, by decide +kernel, ?_⟩
  · exact hc.1 id (plainAnswers []) "u1" chatRun rfl (by simp [plainAnswers]) rfl
      ⟨by simp [plainAnswers], by simp [plainAnswers]⟩
  · refine (hc.2.2 budgeted unrecorded false _ (fun _ => rfl) (by decide +kernel)
      (by decide +kernel) (by decide +kernel)).mpr fun h => ?_
    exact absurd h.1 (by decide +kernel)

/-- Both calls find no row for their key, and only then the first one goes on to its answer. -/
def raced : List (Bool × Action) :=
  turns true [.begin billedAgain none none, .statement none, .statement none] ++
    turns false (billedFirst.admission ++ completion "first") ++
    turns true [.reserve true ⟨.ok "r2", 0, 0⟩, .approve none, .statement none, .statement none,
      .statement none]

/-- A run whose embedding model has no deployment. -/
def unembedded : Answers :=
  { plainAnswers [] with
    preflight := { (plainAnswers []).preflight with
      semantic := some ⟨⟨⟨.ok "e1", 0, 0⟩, .unavailable (.other "no deployment"), .ok "u2", none⟩,
        8, none⟩ } }

/-- The second call has returned and its reservation is open; so is that of the embedding when the
run has returned. -/
theorem reservation_left_open :
    (((billedRun raced).own true).returned ∧
      (billedRun raced).shared.gateway.budget.manager.reservation "daily" "r2" = some ⟨1, false⟩) ∧
    (litePipeline id (fun _ => 1) unembedded chatRun).2.gateway.budget.manager.reservation
        "daily" "r1" = some ⟨1, true⟩ ∧
      (litePipeline id (fun _ => 1) unembedded chatRun).2.gateway.budget.manager.reservation
        "daily" "e1" = some ⟨2, false⟩ := by
  decide +kernel

end LiteAIG.A2A
