/-
Whom a stored result is replayed to.

A result is found by the tenant and the idempotency key alone.  The row holds the
project, the agent and the message of the call that created it, and none of them is
compared.  So what decides whether a replay goes to its own caller is the keys: it
does in every history in which two calls of a tenant that share a key are the same
request in all four respects.

The proof follows each result from the call that stored it, through the row, to the
call that is answered with it: all three have the same key.
-/
import LiteAIG.Proofs.A2A.Steps

namespace LiteAIG.A2A

open Lib Budget Ledger Pipeline List

/-- What a request is, beside its key. -/
structure Identity where
  (projectID callerType callerID agentID message : String)
  deriving DecidableEq

def Relay.identity (call : Relay) : Identity :=
  ⟨call.projectID, call.principal.type, call.principal.id, call.target.agentID, call.relayText⟩

/-- The task a call works on. -/
def Point.task : Point → Option A2ATask
  | .reserve task | .approve task => task
  | .start task | .advance task | .limited task | .connect task | .invoke task
  | .abandon task _ _ | .complete task _ => some task
  | _ => none

variable {point point' : Point}

theorem Work.task (h : Work point point') :
    (point'.task = point.task ∨ point'.task = none) ∧ ∀ task, point' ≠ .replayed task := by
  cases h with
  | reserves _ | connects _ | answers _ _ | breaks _ _ _ => exact ⟨.inl rfl, by simp⟩
  | approves task => cases task <;> exact ⟨.inl rfl, by simp [afterApproval]⟩
  | fails _ _ | refuses _ | ends _ _ _ _ => exact ⟨.inr rfl, by simp [Point.fail]⟩

section

variable {σ τ κ : Type} {w w' : World σ τ} {a : Action} {t t' : Progress}
  {owner : String → String → Identity}

/-! ### What every step keeps -/

structure Grows (w w' : World σ τ) : Prop where
  rows : ∀ row ∈ w.tasks.rows, ∃ row' ∈ w'.tasks.rows, row'.fixed = row.fixed
  results : ∀ e ∈ w.results, e ∈ w'.results
  issued : ∀ id ∈ w.issued, id ∈ w'.issued

theorem Stepped.grows (h : Stepped w a w' t t') : Grows w w' where
  rows row hrow := by
    obtain ⟨row', hro, rfl | ⟨_, _, _, -, ht⟩⟩ := h.persists hrow
    · exact ⟨row', hro, rfl⟩
    · exact ⟨row', hro, ht.fixed⟩
  results e he := by
    cases h with
    | waits _ hs | works _ _ _ _ hs | crashes _ _ _ hs => exact hs.results ▸ he
    | begins _ _ _ _ _ _ _ _ hr => exact hr ▸ he
    | states _ _ _ _ _ _ hr => exact hr ▸ mem_append_right _ he
  issued id hid := by
    cases h with
    | waits _ hs | works _ _ _ _ hs | crashes _ _ _ hs => exact hs.issued ▸ hid
    | begins _ _ _ _ _ _ _ hi => exact hi ▸ mem_cons_of_mem _ hid
    | states _ _ _ _ _ hi => exact hi ▸ hid

/-- There is a row for the task, and it has the key. -/
def Keyed (w : World σ τ) (tenantID taskID key : String) : Prop :=
  ∃ row ∈ w.tasks.rows, row.Is tenantID taskID ∧ row.Has tenantID key

theorem Grows.keyed (h : Grows w w') {tenantID taskID key : String}
    (hk : Keyed w tenantID taskID key) : Keyed w' tenantID taskID key := by
  obtain ⟨row, hro, his, hh⟩ := hk
  obtain ⟨row', hr, hf⟩ := h.rows row hro
  exact ⟨row', hr, (A2ATask.is_congr hf).mpr his, (A2ATask.has_congr hf).mpr hh⟩

/-! ### Results and their calls -/

/-- A stored result is for the task it says. -/
def Stored.For (e : Stored) (tenantID : String) (task : A2ATask) : Prop :=
  e.tenantID = tenantID ∧ e.taskID = task.taskID

/-- Where the results in the table come from. -/
structure Produced (owner : String → String → Identity) (w : World σ τ) : Prop where
  stored : ∀ row ∈ w.tasks.rows, row.status = .completed →
    ∃ e ∈ w.results, e.For row.tenantID row ∧ e.result = row.result
  keyed : ∀ e ∈ w.results, Keyed w e.tenantID e.taskID e.call.idempotencyKey
  source : ∀ e ∈ w.results, e.call.tenantID = e.tenantID ∧
    e.call.identity = owner e.call.tenantID e.call.idempotencyKey
  issued : ∀ row ∈ w.tasks.rows, row.taskID ∈ w.issued

/-- What a call at a point knows of the row it works on or was answered from. -/
structure Knows (owner : String → String → Identity) (w : World σ τ) (call : Relay)
    (point : Point) : Prop where
  owned : call.identity = owner call.tenantID call.idempotencyKey
  issued : call.requestID ∈ w.issued
  mine : ∀ row ∈ w.tasks.rows, row.Is call.tenantID call.requestID →
    row.Has call.tenantID call.idempotencyKey
  task : ∀ task, point.task = some task → Keyed w call.tenantID task.taskID call.idempotencyKey
  replay : ∀ task, point = .replayed task → Keyed w call.tenantID task.taskID call.idempotencyKey ∧
    ∃ e ∈ w.results, e.For call.tenantID task ∧ e.result = task.result

def Progress.Knows (owner : String → String → Identity) (w : World σ τ) : Progress → Prop
  | .relaying call _ point => A2A.Knows owner w call point
  | .idle | .crashed _ _ => True

/-- Two calls have different request ids. -/
def IdApart : Progress → Progress → Prop
  | .relaying call _ _, .relaying call' _ _ => call.requestID ≠ call'.requestID
  | _, _ => True

theorem IdApart.symm (t t' : Progress) (h : IdApart t t') : IdApart t' t := by
  cases t <;> cases t' <;> first | exact Ne.symm h | exact trivial

/-- A row with a call's request id has the call's key, if that holds of the row just inserted. -/
theorem Stepped.mine (h : Stepped w a w' t t') {call : Relay}
    (hm : ∀ row ∈ w.tasks.rows, row.Is call.tenantID call.requestID →
      row.Has call.tenantID call.idempotencyKey)
    (hi : ∀ other request, t = .relaying other request .create →
      other.requestID = call.requestID → other.idempotencyKey = call.idempotencyKey) :
    ∀ row ∈ w'.tasks.rows, row.Is call.tenantID call.requestID →
      row.Has call.tenantID call.idempotencyKey := by
  intro row' hr his
  rcases h.origin hr with ⟨row, hro, hf⟩ | ⟨other, request, ht, rfl⟩
  · rw [A2ATask.has_congr hf]
    exact hm row hro ((A2ATask.is_congr hf).mp his)
  · exact ⟨his.1, hi other request ht his.2⟩

theorem Knows.move {call : Relay} (hk : Knows owner w call point) (hg : Grows w w')
    (hm : ∀ row ∈ w'.tasks.rows, row.Is call.tenantID call.requestID →
      row.Has call.tenantID call.idempotencyKey)
    (ht : ∀ task, point'.task = some task → Keyed w call.tenantID task.taskID call.idempotencyKey)
    (hr : ∀ task, point' = .replayed task → Keyed w call.tenantID task.taskID call.idempotencyKey ∧
      ∃ e ∈ w.results, e.For call.tenantID task ∧ e.result = task.result) :
    Knows owner w' call point' where
  owned := hk.owned
  issued := hg.issued _ hk.issued
  mine := hm
  task task h := hg.keyed (ht task h)
  replay task h := by
    obtain ⟨hke, e, he, hf⟩ := hr task h
    exact ⟨hg.keyed hke, e, hg.results e he, hf⟩

variable {other : Progress} {now : Int} {fault : StoreFault}

theorem Stepped.knows_others (h : Stepped w a w' t t') (ho : other.Knows owner w)
    (ha : IdApart t other) : other.Knows owner w' := by
  cases other with
  | idle | crashed _ _ => exact trivial
  | relaying call req point =>
    have hk : Knows owner w call point := ho
    refine hk.move h.grows (h.mine hk.mine fun other request' ht hid => ?_) hk.task hk.replay
    subst ht
    exact absurd hid ha

theorem Knows.next {call : Relay} {s' : A2ATaskStore} {point next : Point}
    (hk : Knows owner w call point) (hw : Produced owner w)
    (h : call.Next now w.tasks s' point next) :
    (∀ task, next.task = some task → Keyed w call.tenantID task.taskID call.idempotencyKey) ∧
      ∀ task, next = .replayed task → Keyed w call.tenantID task.taskID call.idempotencyKey ∧
        ∃ e ∈ w.results, e.For call.tenantID task ∧ e.result = task.result := by
  cases h with
  | stays => exact ⟨hk.task, hk.replay⟩
  | retries hs hro hh hst | adopts hs hro hh hst =>
    refine ⟨fun task ht => ?_, by simp⟩
    cases ht
    exact ⟨_, hro, ⟨hh.1, rfl⟩, hh⟩
  | replays hs hp hro hh hst =>
    refine ⟨by simp [Point.task], fun task ht => ?_⟩
    cases ht
    obtain ⟨e, he, hf, hr⟩ := hw.stored _ hro hst
    exact ⟨⟨_, hro, ⟨hh.1, rfl⟩, hh⟩, e, he, hh.1 ▸ hf, hr⟩
  | finds hs hro his =>
    refine ⟨fun task ht => ?_, by simp⟩
    cases ht
    exact ⟨_, hro, ⟨his.1, rfl⟩, hk.mine _ hro his⟩
  | starts | counts | exceeds | limits =>
    exact ⟨hk.task, by simp⟩
  | fails | reaps | opens | refuses | creates | loses | taken | abandons | completes =>
    exact ⟨by simp [Point.task, Point.fail], by simp [Point.fail]⟩

theorem Relay.opened_task (call : Relay) (unroutable denied : Option Failure) :
    (call.opened unroutable denied).task = none ∧
      ∀ task, call.opened unroutable denied ≠ .replayed task := by
  unfold Relay.opened
  split
  · exact ⟨rfl, by simp⟩
  · split
    · exact ⟨rfl, by simp⟩
    · split
      · exact ⟨rfl, by simp [Point.fail]⟩
      · cases denied with
        | none => exact ⟨rfl, by simp⟩
        | some err => exact ⟨rfl, by simp [Point.fail]⟩

theorem Stepped.knows_self (h : Stepped w a w' t t') (hw : Produced owner w)
    (ht : t.Knows owner w)
    (ho : ∀ call unroutable denied, a.event = .begin call unroutable denied →
      call.identity = owner call.tenantID call.idempotencyKey) : t'.Knows owner w' := by
  have hg := h.grows
  have hm : ∀ call req point, t = .relaying call req point →
      ∀ row ∈ w'.tasks.rows, row.Is call.tenantID call.requestID →
        row.Has call.tenantID call.idempotencyKey := by
    rintro call req point rfl
    have hk : Knows owner w call point := ht
    refine h.mine hk.mine fun other request' heq _ => ?_
    cases heq
    rfl
  cases h with
  | waits t hs =>
    cases t with
    | idle | crashed _ _ => exact trivial
    | relaying call req point =>
      have hk : Knows owner w call point := ht
      exact hk.move hg (hm call req point rfl) hk.task hk.replay
  | begins call unroutable denied req he hf htas hi hre =>
    obtain ⟨hta, hr⟩ :=
      Relay.opened_task { call with now := w.clock + a.elapsed } unroutable denied
    refine ⟨ho call unroutable denied he, hi ▸ mem_cons_self, ?_, ?_, ?_⟩
    · intro row hro his
      rw [htas] at hro
      exact absurd (his.2 ▸ hw.issued row hro) hf
    · intro task h
      rw [hta] at h
      cases h
    · exact fun task h => absurd h (hr task)
  | crashes => exact trivial
  | works call req request' hwo hs =>
    rename_i point point'
    have hk : Knows owner w call point := ht
    obtain ⟨hta, hr⟩ := hwo.task
    refine hk.move hg (hm call req point rfl) (fun task h => ?_)
      fun task h => absurd h (hr task)
    rcases hta with hs | hn
    · exact hk.task task (hs ▸ h)
    · rw [hn] at h
      cases h
  | states call req point fault htas hi hre =>
    have hk : Knows owner w call point := ht
    obtain ⟨hta, hr⟩ :=
      hk.next hw (call.statement_next (w.clock + a.elapsed) fault w.tasks point)
    exact hk.move hg (hm call req point rfl) hta hr

/-! ### Results are stored under the key of their call -/

theorem mem_stores {call : Relay} {point : Point} {e : Stored} (h : e ∈ call.stores fault point) :
    ∃ task response, point = .complete task response ∧
      e = ⟨call.tenantID, task.taskID, replyContent response, call⟩ := by
  cases point with
  | complete task response =>
    simp only [Relay.stores] at h
    split at h
    · cases h
    · exact ⟨task, response, rfl, mem_singleton.mp h⟩
  | _ => cases h

/-- A completed row has the result that was stored for it last. -/
theorem Produced.stored_turned {call : Relay} {point : Point} {row row' : A2ATask}
    (hw : Produced owner w) (hr : row ∈ w.tasks.rows) (ht : call.Turned now point row row')
    (hf : ¬ fault.refused) (hte : call.tenantID ≠ "") (hc : row'.status = .completed) :
    ∃ e ∈ call.stores fault point ++ w.results, e.For row'.tenantID row' ∧
      e.result = row'.result := by
  cases ht with
  | kept | advanced _ =>
    obtain ⟨e, he, hfo⟩ := hw.stored row hr hc
    exact ⟨e, mem_append_right _ he, hfo⟩
  | completed his =>
    rw [Relay.stores, if_neg (not_or.mpr ⟨hf, hte⟩)]
    exact ⟨_, mem_append_left _ (mem_singleton_self _), ⟨his.1.symm, his.2.symm⟩, rfl⟩
  | reaped _ | started _ _ | abandoned _ => cases hc

theorem Produced.same (hw : Produced owner w) (ht : w'.tasks = w.tasks)
    (hr : w'.results = w.results) (hg : Grows w w') : Produced owner w' where
  stored := by rw [ht, hr]; exact hw.stored
  keyed e he := hg.keyed (hw.keyed e (hr ▸ he))
  source := by rw [hr]; exact hw.source
  issued row hro := hg.issued _ (hw.issued row (ht ▸ hro))

theorem Stepped.produced (h : Stepped w a w' t t') (hw : Produced owner w) (ht : t.Knows owner w) :
    Produced owner w' := by
  have hg := h.grows
  have hi : ∀ row ∈ w'.tasks.rows, row.taskID ∈ w'.issued := by
    intro row' hro
    refine hg.issued _ ?_
    rcases h.origin hro with ⟨row, hrow, hf⟩ | ⟨call, request, rfl, rfl⟩
    · rw [show row'.taskID = row.taskID from congrArg Fixed.taskID hf]
      exact hw.issued row hrow
    · exact Knows.issued (show Knows owner w call .create from ht)
  cases h with
  | waits _ hsa | works _ _ _ _ hsa | crashes _ _ _ hsa =>
    exact hw.same hsa.tasks hsa.results hg
  | begins _ _ _ _ _ _ hta _ hr => exact hw.same hta hr hg
  | states call request point fault hta _ hr =>
    have hk : Knows owner w call point := ht
    have hwr := call.statement_wrote (w.clock + a.elapsed) fault w.tasks point
    rw [← hta] at hwr
    refine ⟨fun row' hro hc => ?_, fun e he => ?_, fun e he => ?_, hi⟩
    · rw [hr]
      cases hwr with
      | nothing _ hs =>
        obtain ⟨e, he, hfo⟩ := hw.stored row' (hs ▸ hro) hc
        exact ⟨e, mem_append_right _ he, hfo⟩
      | updated hfa hte hrows =>
        rw [hrows] at hro
        obtain ⟨row, hrow, rfl⟩ := mem_map.mp hro
        exact hw.stored_turned hrow (Relay.turned ..) hfa hte hc
      | inserted hp _ hrows =>
        rw [hrows, mem_append, mem_singleton] at hro
        rcases hro with hrow | rfl
        · obtain ⟨e, he, hfo⟩ := hw.stored row' hrow hc
          exact ⟨e, mem_append_right _ he, hfo⟩
        · cases hc
    · rw [hr, mem_append] at he
      rcases he with hn | hold
      · obtain ⟨task, response, rfl, rfl⟩ := mem_stores hn
        exact hg.keyed (hk.task task rfl)
      · exact hg.keyed (hw.keyed e hold)
    · rw [hr, mem_append] at he
      rcases he with hn | hold
      · obtain ⟨task, response, rfl, rfl⟩ := mem_stores hn
        exact ⟨rfl, hk.owned⟩
      · exact hw.source e hold

/-- A new call has an id that no other has. -/
theorem Stepped.idApart (h : Stepped w a w' t t') (ho : other.Knows owner w)
    (ha : IdApart t other) : IdApart t' other := by
  cases h with
  | waits => exact ha
  | begins call _ _ _ _ hf =>
    cases other with
    | idle | crashed _ _ => exact trivial
    | relaying call' request' point' =>
      have hk : Knows owner w call' point' := ho
      exact fun h => hf (h ▸ hk.issued)
  | crashes => cases other <;> exact trivial
  | works | states => cases other <;> exact ha

/-! ### Whole runs -/

/-- The call that an event begins. -/
def Event.call : Event → Option Relay
  | .begin call _ _ => some call
  | _ => none

/-- The calls that a list of steps begins. -/
def begun (steps : List (κ × Action)) : List Relay := steps.filterMap fun a => a.2.event.call

/-- No two requests that differ in what they ask, or in who asks, are sent under one key. -/
def KeysOwned (calls : List Relay) : Prop :=
  ∀ call ∈ calls, ∀ call' ∈ calls, call.tenantID = call'.tenantID →
    call.idempotencyKey = call'.idempotencyKey → call.identity = call'.identity
  deriving Decidable

/-- The request that a key stands for, if there is any. -/
def keyOwner (calls : List Relay) (tenantID key : String) : Identity :=
  ((calls.find? fun call => call.tenantID = tenantID ∧ call.idempotencyKey = key).map
    Relay.identity).getD ⟨"", "", "", "", ""⟩

theorem KeysOwned.identity_eq {calls : List Relay} (h : KeysOwned calls) {call : Relay}
    (hc : call ∈ calls) :
    call.identity = keyOwner calls call.tenantID call.idempotencyKey := by
  unfold keyOwner
  cases hf : calls.find? fun other =>
      other.tenantID = call.tenantID ∧ other.idempotencyKey = call.idempotencyKey with
  | none => exact absurd (decide_eq_true ⟨rfl, rfl⟩) (List.find?_eq_none.mp hf call hc)
  | some other =>
    have ho := List.find?_some hf
    obtain ⟨ht, hk⟩ := of_decide_eq_true ho
    exact (h other (mem_of_find?_eq_some hf) call hc ht hk).symm

variable [DecidableEq κ] [BudgetLedger σ] {tok : UnifiedRequest → Int}

/-- A call that begins is the request its key stands for. -/
def Owned (owner : String → String → Identity) (_ : World σ τ) (_ : Progress) (a : Action) : Prop :=
  ∀ call unroutable denied, a.event = .begin call unroutable denied →
    call.identity = owner call.tenantID call.idempotencyKey

variable (tok) in
theorem produced_run (gateway : Gateway σ τ) (clock : Int) (hi : List (κ × Action))
    (hk : KeysOwned (begun hi)) :
    (run (Threads.step (act tok)) ⟨.new gateway clock, fun _ => .idle⟩ hi).Apart
      (Produced (keyOwner (begun hi))) (fun w t => t.Knows (keyOwner (begun hi)) w)
      IdApart := by
  have how : Allowed (Threads.step (act tok))
      (Threads.Meets (Owned (keyOwner (begun hi))))
      ⟨World.new gateway clock, fun _ => Progress.idle⟩ hi :=
    allowed_of_mem _ _ fun a ha _ call unroutable denied he =>
      hk.identity_eq (mem_filterMap.mpr ⟨a, ha, congrArg Event.call he⟩)
  refine Threads.Apart.run IdApart.symm ?_ hi _ ?_ how
  · intro w t a hw ht hok
    have hs := act_stepped tok w t a
    exact ⟨hs.produced hw ht, hs.knows_self hw ht hok, fun other ho hap =>
      ⟨hs.knows_others ho hap, hs.idApart ho hap⟩⟩
  · exact ⟨⟨⟨by simp [World.new, A2ATaskStore.empty], by simp [World.new], by simp [World.new],
      by simp [World.new, A2ATaskStore.empty]⟩, fun _ => trivial⟩, fun _ _ _ => trivial⟩

/-- **In every history in which requests that share a tenant and a key are the same, a call that is
answered with a stored result gets one that the same request produced.** -/
theorem replay_goes_to_its_caller (gateway : Gateway σ τ) (clock : Int)
    (history : List (κ × Action))
    (hkeys : KeysOwned (begun history)) (k : κ) (call : Relay) (request : RequestContext)
    (task : A2ATask)
    (hreplayed : (run (Threads.step (act estimateTokens)) ⟨.new gateway clock, fun _ => .idle⟩
      history).own k = .relaying call request (.replayed task)) :
    (∃ e ∈ (run (Threads.step (act estimateTokens)) ⟨.new gateway clock, fun _ => .idle⟩
        history).shared.results, e.For call.tenantID task ∧ e.result = task.result) ∧
      ∀ e ∈ (run (Threads.step (act estimateTokens)) ⟨.new gateway clock, fun _ => .idle⟩
        history).shared.results, e.For call.tenantID task → e.call.identity = call.identity := by
  have hru := produced_run estimateTokens gateway clock history hkeys
  have hkn := hru.own k
  rw [hreplayed] at hkn
  have hk : Knows _ _ call (.replayed task) := hkn
  obtain ⟨⟨row, hrow, his, hha⟩, hr⟩ := hk.replay task rfl
  refine ⟨hr, fun e he hf => ?_⟩
  obtain ⟨row', hro, hi, hh⟩ := hru.shared.keyed e he
  obtain ⟨ht, ho⟩ := hru.shared.source e he
  -- both keys are the one of the row
  obtain rfl : row' = row :=
    A2ATaskStore.eq_of_is hro hrow ⟨hi.1.trans hf.1, hi.2.trans hf.2⟩ his
  rw [ho, hk.owned, ht, hf.1, ← hha.2, hh.2]

end

/-! ### Two callers with one key -/

/-- A retry of the first request, by its own caller. -/
def ownRetry : List (Bool × Action) :=
  turns false (askedFirst.admission ++ completion "first") ++
    turns true [.begin askedAgain none none, .statement none, .statement none]

/-- The row of the first request when it has its result. -/
def answeredRow : A2ATask :=
  { askedFirst.row 0 with
    status := .completed, result := "first", hops := 1, calls := 1, attempts := 1 }

theorem retry_gets_its_own_result :
    (∃ e ∈ (run relayStep twoCalls ownRetry).shared.results,
        e.For askedAgain.tenantID answeredRow ∧ e.result = answeredRow.result) ∧
      ∀ e ∈ (run relayStep twoCalls ownRetry).shared.results,
        e.For askedAgain.tenantID answeredRow → e.call.identity = askedAgain.identity :=
  replay_goes_to_its_caller _ 0 ownRetry (by decide +kernel) true askedAgain askedAgain.context
    answeredRow (by rfl)

/-- Another project of the tenant asks another agent something else, and happens to use the key. -/
def askedElsewhere : Relay := .sent "req-2" "payroll" "agent-2" "k-1" "salaries"

def collided : List (Bool × Action) :=
  turns false (askedFirst.admission ++ completion "first") ++
    turns true [.begin askedElsewhere none none, .statement none, .statement none]

/-- What a call was answered. -/
def Progress.answer : Progress → Option (Except Failure (Option Reply))
  | .relaying call _ point => point.answer call
  | .idle | .crashed _ _ => none

/-- It is answered with the result of the first request, in the name of its own agent. -/
theorem stored_result_crosses_projects :
    ((run relayStep twoCalls collided).own true).answer
        = some (.ok (some ⟨"req-1", some ⟨"agent-2", "first", "a2a.task_replay"⟩, .zero⟩)) ∧
      (run relayStep twoCalls collided).shared.results.map (fun e => e.call.identity)
        = [⟨"billing", "application", "app-billing", "agent-1", "hello"⟩] ∧
      askedElsewhere.identity =
        ⟨"payroll", "application", "app-payroll", "agent-2", "salaries"⟩ := by
  decide +kernel

end LiteAIG.A2A
