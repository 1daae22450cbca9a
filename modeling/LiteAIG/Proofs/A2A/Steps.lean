/-
What one step of a relay call can do.

A statement that takes effect does the same to every row of the table, `turn`, or
inserts one; `Wrote` says which.  `Next` says where the statement can lead the call,
and what it has seen in the table then.  `Stepped` is the same for all steps.
Everything that is proved about runs of calls goes through these.
-/
import LiteAIG.A2A.Relay
import LiteAIG.Lib.Except
import LiteAIG.Lib.Lists

namespace LiteAIG.A2A

open Lib Budget Ledger Pipeline A2ATaskStore List

/-! ### The methods of the table -/

namespace A2ATaskStore

variable {s s' : A2ATaskStore} {tid taskID key : String} {row : A2ATask} {now : Int}
  {a b : A2ATask} {α : Type} {found : Option A2ATask}

theorem eq_of_is (ha : a ∈ s.rows) (hb : b ∈ s.rows) (hai : a.Is tid taskID)
    (hbi : b.Is tid taskID) : a = b :=
  eq_of_pairwise (fun _ _ h => ⟨h.1.symm, h.2.symm⟩) s.primary ha hb
    ⟨hai.1.trans hbi.1.symm, hai.2.trans hbi.2.symm⟩

theorem eq_of_has (ha : a ∈ s.rows) (hb : b ∈ s.rows) (hah : a.Has tid key)
    (hbh : b.Has tid key) : a = b :=
  eq_of_pairwise (fun _ _ h => ⟨h.1.symm, h.2.symm⟩) s.unique ha hb
    ⟨hah.1.trans hbh.1.symm, hah.2.trans hbh.2.symm⟩

theorem validate_then (x : Except TaskError α) :
    (validate tid >>= fun _ => x) = if tid = "" then .error .invalidScope else x := by
  unfold validate
  split <;> rfl

theorem validate_map {β : Type} (x : Except TaskError α) (f : α → β) :
    (validate tid >>= fun _ => x).map f = validate tid >>= fun _ => x.map f := by
  rw [validate_then, validate_then]
  split <;> rfl

theorem validate_bind {x : Except TaskError α} {a : α} :
    (validate tid >>= fun _ => x) = .ok a ↔ tid ≠ "" ∧ x = .ok a := by
  unfold validate
  by_cases h : tid = ""
  · simp [h, bind, Except.bind]
  · simp [h, bind, Except.bind]

theorem find_eq_ok {P : A2ATask → Prop} [DecidablePred P]
    (hu : ∀ a ∈ s.rows, ∀ b ∈ s.rows, P a → P b → a = b) :
    (validate tid >>= fun _ => pure (s.rows.find? (P ·))) = .ok found ↔
      tid ≠ "" ∧ ∀ row, found = some row ↔ row ∈ s.rows ∧ P row := by
  rw [validate_bind, pure_eq_ok, Option.ext_iff]
  refine and_congr_right fun _ => forall_congr' fun row => ?_
  rw [find_eq_some_of_unique (by simpa using hu), decide_eq_true_iff]
  exact Iff.comm

theorem getByTask_eq_ok :
    s.getByTask tid taskID = .ok found ↔
      tid ≠ "" ∧ ∀ row, found = some row ↔ row ∈ s.rows ∧ row.Is tid taskID :=
  find_eq_ok fun _ ha _ hb => eq_of_is ha hb

theorem getByIdempotency_eq_ok :
    s.getByIdempotency tid key = .ok found ↔
      tid ≠ "" ∧ ∀ row, found = some row ↔ row ∈ s.rows ∧ row.Has tid key :=
  find_eq_ok fun _ ha _ hb => eq_of_has ha hb

end A2ATaskStore

/-! ### What a statement writes -/

variable {α : Type} {fault : StoreFault} {answer : Except TaskError (α × A2ATaskStore)}
  {task : A2ATask} {point : Point} {row' : A2ATask}

theorem read_eq_ok {answer : Except TaskError α} {value : α} :
    read fault answer = .ok value ↔ fault = none ∧ answer = .ok value := by
  unfold read
  split
  · simp
  · simp [mapError_eq_ok]

/-- A write without a fault is answered as it went; one with a fault has an error. -/
theorem write_fst {s : A2ATaskStore} {value : α} :
    (write fault s answer).1 = .ok value ↔
      fault = none ∧ answer = .ok (value, (write fault s answer).2) := by
  unfold write
  split <;> simp

theorem write_snd (s : A2ATaskStore) :
    (write fault s answer).2 =
      if fault.refused then s else (answer.toOption.map Prod.snd).getD s := by
  unfold write
  split <;> simp [StoreFault.refused, Except.toOption]

namespace Relay

variable (call : Relay) (now : Int) (fault : StoreFault) (s : A2ATaskStore)

open A2ATaskStore in
/-- What a statement does to a row when it takes effect. -/
def turn : Point → A2ATask → A2ATask
  | .reap => change (stale call.tenantID call.staleBefore) (A2ATask.set .failed "" now)
  | .start task =>
    change (selects call.tenantID task.taskID fun row => row.status.claimable)
      (A2ATask.set .running "" now)
  | .advance task =>
    change (selects call.tenantID task.taskID
        (room (call.hopCount + 1) 1 maxDelegationHops maxTaskCalls))
      (A2ATask.advance (call.hopCount + 1) 1 now)
  | .abandon task _ _ =>
    change (selects call.tenantID task.taskID fun _ => true) (A2ATask.set .failed "" now)
  | .complete task response =>
    change (selects call.tenantID task.taskID fun _ => true)
      (A2ATask.set .completed (replyContent response) now)
  | _ => id

/-- The row as `Create` inserts it. -/
def row : A2ATask := { call.task with updatedAt := seconds now }

/-- How the table after a statement comes from the one before. -/
inductive Wrote (point : Point) (s' : A2ATaskStore) : Prop
  | nothing (h : fault.refused ∨ call.tenantID = "") (hs : s' = s)
  | updated (hfault : ¬ fault.refused) (htenant : call.tenantID ≠ "")
      (hrows : s'.rows = s.rows.map (call.turn now point))
  | inserted (hpoint : point = .create)
    (hkey : ∀ row ∈ s.rows, ¬ row.Has call.tenantID call.idempotencyKey)
      (hrows : s'.rows = s.rows ++ [call.row now])

variable {call now fault s} {point : Point} {row row' : A2ATask}

theorem wrote_same (ht : call.turn now point = id) : Wrote call now fault s point s := by
  by_cases h : fault.refused ∨ call.tenantID = ""
  · exact .nothing h rfl
  · rw [not_or] at h
    exact .updated h.1 h.2 (by rw [ht, map_id])

theorem wrote_write (h : ¬ fault.refused → call.tenantID ≠ "" →
      Wrote call now fault s point ((answer.toOption.map Prod.snd).getD s)) :
    Wrote call now fault s point
      (write fault s (validate call.tenantID >>= fun _ => answer)).2 := by
  rw [write_snd]
  by_cases hf : fault.refused
  · rw [if_pos hf]
    exact .nothing (.inl hf) rfl
  · rw [if_neg hf, validate_then]
    by_cases ht : call.tenantID = ""
    · rw [if_pos ht]
      exact .nothing (.inr ht) rfl
    · rw [if_neg ht]
      exact h hf ht

theorem wrote_update (value : α) {s' : A2ATaskStore}
    (hr : s'.rows = s.rows.map (call.turn now point)) :
    Wrote call now fault s point
      (write fault s (validate call.tenantID >>= fun _ => pure (value, s'))).2 :=
  wrote_write fun hf ht => .updated hf ht hr

theorem wrote_create :
    Wrote call now fault s .create
      (write fault s ((s.create call.tenantID call.task now).map fun s => ((), s))).2 := by
  rw [create, validate_map, if_neg (fun h => h rfl)]
  refine wrote_write fun _ _ => ?_
  dsimp only
  split
  · rename_i hk
    split
    · exact .inserted rfl hk rfl
    · exact wrote_same rfl
  · exact wrote_same rfl

theorem wrote_set {status : Status} {result : String}
    (ht : call.turn now point = change (selects call.tenantID task.taskID fun _ => true)
      (A2ATask.set status result now)) :
    Wrote call now fault s point
      (write fault s ((s.setStatusResult call.tenantID task.taskID status result now).map
        fun s => ((), s))).2 := by
  rw [setStatusResult, validate_map]
  exact wrote_update () (congrArg (s.rows.map ·) ht.symm)

theorem statement_wrote (call : Relay) (now : Int) (fault : StoreFault) (s : A2ATaskStore)
    (point : Point) : Wrote call now fault s point (call.statement now fault s point).1 := by
  cases point with
  | reap => exact wrote_update _ rfl
  | create => exact wrote_create
  | start task => exact wrote_update _ rfl
  | advance task => exact wrote_update _ rfl
  | abandon task cause answer => exact wrote_set rfl
  | complete task response =>
    have hc : replyContent (response.map fun r => { r with id := task.taskID })
        = replyContent response := by
      cases response <;> rfl
    exact wrote_set (by rw [hc]; rfl)
  | lookup | reserve _ | approve _ | readBack | reread | limited _ | connect _ | invoke _ | refuse
  | finalize _ _ _ | replayed _ | returned _ => exact wrote_same rfl

/-- What a statement can do to a row, by the point the call is at. -/
inductive Turned (call : Relay) (now : Int) : Point → A2ATask → A2ATask → Prop
  | kept (point : Point) (row : A2ATask) : Turned call now point row row
  | reaped {row : A2ATask} (hstale : A2ATaskStore.stale call.tenantID call.staleBefore row) :
      Turned call now .reap row (row.set .failed "" now)
  | started {task row : A2ATask} (his : row.Is call.tenantID task.taskID)
      (hclaim : row.status.claimable) :
      Turned call now (.start task) row (row.set .running "" now)
  | advanced {task row : A2ATask} (his : row.Is call.tenantID task.taskID) :
      Turned call now (.advance task) row (row.advance (call.hopCount + 1) 1 now)
  | abandoned {task row : A2ATask} {cause answer : Failure}
    (his : row.Is call.tenantID task.taskID) :
      Turned call now (.abandon task cause answer) row (row.set .failed "" now)
  | completed {task row : A2ATask} {response : Option Reply}
      (his : row.Is call.tenantID task.taskID) :
      Turned call now (.complete task response) row
        (row.set .completed (replyContent response) now)

variable {row : A2ATask}

theorem turned_change {select : A2ATask → Bool} {set : A2ATask → A2ATask}
    (h : select row → Turned call now point row (set row)) :
    Turned call now point row (change select set row) := by
  unfold change
  split
  · exact h ‹_›
  · exact .kept ..

theorem turned (call : Relay) (now : Int) (point : Point) (row : A2ATask) :
    Turned call now point row (call.turn now point row) := by
  cases point with
  | reap => exact turned_change fun h => .reaped h
  | start task =>
    refine turned_change fun h => ?_
    obtain ⟨his, hc⟩ := of_decide_eq_true h
    exact .started his hc
  | advance task => exact turned_change fun h => .advanced (of_decide_eq_true h).1
  | abandon task cause answer => exact turned_change fun h => .abandoned (of_decide_eq_true h).1
  | complete task response => exact turned_change fun h => .completed (of_decide_eq_true h).1
  | lookup | reserve _ | approve _ | create | readBack | reread | limited _ | connect _ | invoke _
  | refuse | finalize _ _ _ | replayed _ | returned _ => exact .kept ..

theorem Turned.fixed (h : Turned call now point row row') :
    row'.fixed = row.fixed := by
  cases h <;> rfl

theorem Turned.pending (h : Turned call now point row row') (hp : row'.status = .pending) :
    row.status = .pending := by
  cases h with
  | kept | advanced _ => exact hp
  | reaped _ | started _ _ | abandoned _ | completed _ => cases hp

variable {s' : A2ATaskStore}

theorem Wrote.persists (h : Wrote call now fault s point s') (hmem : row ∈ s.rows) :
    ∃ row' ∈ s'.rows, Turned call now point row row' := by
  cases h with
  | nothing _ hs => exact ⟨row, hs ▸ hmem, .kept ..⟩
  | updated _ _ hr => exact ⟨_, hr ▸ mem_map_of_mem hmem, turned ..⟩
  | inserted _ _ hr => exact ⟨row, hr ▸ mem_append_left _ hmem, .kept ..⟩

/-- Every row was there, or has just been inserted. -/
theorem Wrote.origin (h : Wrote call now fault s point s') (hmem : row' ∈ s'.rows) :
    (∃ row ∈ s.rows, Turned call now point row row') ∨ point = .create ∧ row' = call.row now ∧
        ∀ row ∈ s.rows, ¬ row.Has call.tenantID call.idempotencyKey := by
  cases h with
  | nothing _ hs => exact .inl ⟨row', hs ▸ hmem, .kept ..⟩
  | updated _ _ hr =>
    rw [hr] at hmem
    obtain ⟨row, hm, rfl⟩ := mem_map.mp hmem
    exact .inl ⟨row, hm, turned ..⟩
  | inserted hp hk hr =>
    rw [hr, mem_append, mem_singleton] at hmem
    rcases hmem with hm | rfl
    · exact .inl ⟨row', hm, .kept ..⟩
    · exact .inr ⟨hp, rfl, hk⟩

/-! ### Where a statement leads -/

/-- Where a statement can lead a call, and what it then knows of the table it saw. -/
inductive Next (call : Relay) (now : Int) (s s' : A2ATaskStore) : Point → Point → Prop
  | stays (point : Point) (hs : s' = s) : Next call now s s' point point
  | fails (point : Point) (err : Failure) : Next call now s s' point (.fail err)
  | reaps (htenant : call.tenantID ≠ "") (hrows : s'.rows = s.rows.map (call.turn now .reap)) :
      Next call now s s' .reap .lookup
  | opens (hs : s' = s) (hnone : ∀ row ∈ s.rows, ¬ row.Has call.tenantID call.idempotencyKey) :
      Next call now s s' .lookup (.reserve none)
  | retries {row : A2ATask} (hs : s' = s) (hrow : row ∈ s.rows)
      (hhas : row.Has call.tenantID call.idempotencyKey)
      (hstatus : row.status = .failed ∨ row.status = .cancelled) :
      Next call now s s' .lookup (.reserve (some row))
  | replays {point : Point} {row : A2ATask} (hs : s' = s)
    (hpoint : point = .lookup ∨ point = .reread)
      (hrow : row ∈ s.rows) (hhas : row.Has call.tenantID call.idempotencyKey)
      (hstatus : row.status = .completed) : Next call now s s' point (.replayed row)
  | refuses {point : Point} {row : A2ATask} (hs : s' = s)
    (hpoint : point = .lookup ∨ point = .reread)
      (hrow : row ∈ s.rows) (hhas : row.Has call.tenantID call.idempotencyKey)
      (hstatus : row.status = .pending ∨ row.status = .running) : Next call now s s' point .refuse
  | creates (h : (∃ row ∈ s.rows, row.Has call.tenantID call.idempotencyKey) ∨
        call.row now ∈ s'.rows) : Next call now s s' .create .readBack
  | finds {row : A2ATask} (hs : s' = s) (hrow : row ∈ s.rows)
    (his : row.Is call.tenantID call.requestID) :
      Next call now s s' .readBack (.start row)
  | loses (hs : s' = s) (hnone : ∀ row ∈ s.rows, ¬ row.Is call.tenantID call.requestID) :
      Next call now s s' .readBack .reread
  | adopts {row : A2ATask} (hs : s' = s) (hrow : row ∈ s.rows)
      (hhas : row.Has call.tenantID call.idempotencyKey)
      (hstatus : row.status = .failed ∨ row.status = .cancelled) :
      Next call now s s' .reread (.start row)
  | starts {task row : A2ATask} (hrow : row ∈ s.rows) (his : row.Is call.tenantID task.taskID)
      (hclaim : row.status.claimable) (hrow' : row.set .running "" now ∈ s'.rows) :
      Next call now s s' (.start task) (.advance task)
  | taken {task : A2ATask}
      (hnone : ∀ row ∈ s.rows, row.Is call.tenantID task.taskID → ¬ row.status.claimable) :
      Next call now s s' (.start task) .refuse
  | counts (task : A2ATask) : Next call now s s' (.advance task) (.connect task)
  | exceeds (task : A2ATask) : Next call now s s' (.advance task) (.limited task)
  | limits (task : A2ATask) (err : Failure) :
      Next call now s s' (.limited task) (.abandon task err err)
  | abandons (task : A2ATask) (cause answer : Failure) :
      Next call now s s' (.abandon task cause answer) (.finalize none (some cause) (.error answer))
  | completes (task : A2ATask) (response response' : Option Reply) (cause : Option Failure)
      (answer : Except Failure (Option Reply)) :
      Next call now s s' (.complete task response) (.finalize response' cause answer)

/-- What a call that has looked for its key does, by what it has found. -/
theorem afterFound_next {absent : Point} {retry : A2ATask → Point} (R : Point → Prop)
    (hfault : ∀ err, R (.fail err))
    (ha : (∀ row ∈ s.rows, ¬ row.Has call.tenantID call.idempotencyKey) → R absent)
    (hf : ∀ row ∈ s.rows, row.Has call.tenantID call.idempotencyKey →
      (row.status = .completed → R (.replayed row)) ∧
      (row.status = .pending ∨ row.status = .running → R .refuse) ∧
      (row.status = .failed ∨ row.status = .cancelled → R (retry row))) :
    R (afterFound absent retry
      (read fault (s.getByIdempotency call.tenantID call.idempotencyKey))) := by
  cases hread : read fault (s.getByIdempotency call.tenantID call.idempotencyKey) with
  | error err => exact hfault err
  | ok answer =>
    obtain ⟨-, hmem⟩ := getByIdempotency_eq_ok.mp (read_eq_ok.mp hread).2
    cases answer with
    | none =>
      refine ha fun row hrow hh => ?_
      cases (hmem row).mpr ⟨hrow, hh⟩
    | some row =>
      obtain ⟨hrow, hh⟩ := (hmem row).mp rfl
      obtain ⟨hrep, hr, hre⟩ := hf row hrow hh
      cases hs : row.status <;> simp only [afterFound, hs]
      case completed => exact hrep hs
      case pending => exact hr (.inl hs)
      case running => exact hr (.inr hs)
      case failed => exact hre (.inl hs)
      case cancelled => exact hre (.inr hs)

variable {after : A2ATaskStore}

theorem next_reap {reaped : Nat}
    (h : s.reapStaleRunning call.tenantID call.staleBefore now = .ok (reaped, after)) :
    Next call now s after .reap .lookup := by
  rw [reapStaleRunning, validate_bind, pure_eq_ok, Prod.mk.injEq] at h
  obtain ⟨ht, -, rfl⟩ := h
  exact .reaps ht rfl

theorem next_create {value : Unit}
    (h : (s.create call.tenantID call.task now).map (fun s => ((), s)) = .ok (value, after)) :
    Next call now s after .create .readBack := by
  refine .creates ?_
  by_cases ht : ∃ row ∈ s.rows, row.Has call.tenantID call.idempotencyKey
  · exact .inl ht
  · have hk : ∀ row ∈ s.rows, ¬ row.Has call.tenantID call.idempotencyKey := by
      simpa only [not_exists, not_and] using ht
    obtain ⟨_, hc, he⟩ := map_eq_ok.mp h
    cases he
    rw [create, validate_bind, if_neg (fun h => h rfl)] at hc
    obtain ⟨-, hi⟩ := hc
    dsimp only at hi
    split at hi
    · split at hi
      · rw [← pure_eq_ok.mp hi]
        exact .inr (mem_append_right _ mem_cons_self)
      · cases hi
    · rename_i hne
      exact absurd hk hne

theorem next_start {started : Bool}
    (h : s.tryStart call.tenantID task.taskID call.staleBefore now = .ok (started, after)) :
    Next call now s after (.start task) (if started then .advance task else .refuse) := by
  rw [tryStart, validate_bind, pure_eq_ok, Prod.mk.injEq] at h
  obtain ⟨-, rfl, rfl⟩ := h
  split
  · rename_i ha
    obtain ⟨row, hr, hs⟩ := any_eq_true.mp ha
    obtain ⟨his, hc⟩ := of_decide_eq_true hs
    refine .starts hr his hc (mem_map.mpr ⟨row, hr, ?_⟩)
    exact if_pos hs
  · rename_i ha
    refine .taken fun row hr his hc => ha ?_
    exact any_eq_true.mpr ⟨row, hr, decide_eq_true ⟨his, hc⟩⟩

theorem statement_next (call : Relay) (now : Int) (fault : StoreFault) (s : A2ATaskStore)
    (point : Point) :
    Next call now s (call.statement now fault s point).1 point
      (call.statement now fault s point).2 := by
  cases point with
  | reap =>
    simp only [statement, proceed]
    split
    · exact .fails ..
    · rename_i hok
      exact next_reap (write_fst.mp hok).2
  | lookup =>
    exact afterFound_next _ (.fails _) (.opens rfl) fun row hrow hh =>
      ⟨.replays rfl (.inl rfl) hrow hh, .refuses rfl (.inl rfl) hrow hh, .retries rfl hrow hh⟩
  | create =>
    simp only [statement, proceed]
    split
    · exact .fails ..
    · rename_i hok
      exact next_create (write_fst.mp hok).2
  | readBack =>
    simp only [statement]
    split
    · exact .fails ..
    · rename_i created hr
      obtain ⟨-, hmem⟩ := getByTask_eq_ok.mp (read_eq_ok.mp hr).2
      obtain ⟨hrow, his⟩ := (hmem created).mp rfl
      exact .finds rfl hrow his
    · rename_i hr
      obtain ⟨-, hmem⟩ := getByTask_eq_ok.mp (read_eq_ok.mp hr).2
      refine .loses rfl fun row hrow his => ?_
      cases (hmem row).mpr ⟨hrow, his⟩
  | reread =>
    exact afterFound_next _ (.fails _) (fun _ => .fails ..) fun row hrow hh =>
      ⟨.replays rfl (.inr rfl) hrow hh, .refuses rfl (.inr rfl) hrow hh, .adopts rfl hrow hh⟩
  | start task =>
    simp only [statement, proceed]
    split
    · exact .fails ..
    · rename_i hok
      exact next_start (write_fst.mp hok).2
    · rename_i hok
      exact next_start (write_fst.mp hok).2
  | advance task =>
    simp only [statement, proceed]
    split
    · exact .fails ..
    · exact .exceeds _
    · exact .counts _
  | limited task => exact .limits ..
  | abandon task cause answer => exact .abandons ..
  | complete task response =>
    simp only [statement, proceed]
    split
    · exact .completes ..
    · exact .completes ..
  | reserve _ | approve _ | connect _ | invoke _ | refuse | finalize _ _ _ | replayed _
  | returned _ => exact .stays _ rfl

end Relay

/-! ### All steps -/

/-- Where a call goes when it is not at a statement. -/
inductive Work : Point → Point → Prop
  | fails (point : Point) (err : Failure) : Work point (.fail err)
  | reserves (task : Option A2ATask) : Work (.reserve task) (.approve task)
  | approves (task : Option A2ATask) : Work (.approve task) (afterApproval task)
  | connects (task : A2ATask) : Work (.connect task) (.invoke task)
  | answers (task : A2ATask) (response : Option Reply) :
    Work (.invoke task) (.complete task response)
  | breaks (task : A2ATask) (cause answer : Failure) :
      Work (.invoke task) (.abandon task cause answer)
  | refuses (answer : Except Failure (Option Reply)) : Work .refuse (.returned answer)
  | ends (response : Option Reply) (cause : Option Failure)
      (answer answer' : Except Failure (Option Reply)) :
      Work (.finalize response cause answer) (.returned answer')

section

variable {σ τ : Type}

/-- A step that has nothing to do with the tasks. -/
structure World.Same (w w' : World σ τ) : Prop where
  tasks : w'.tasks = w.tasks
  issued : w'.issued = w.issued
  results : w'.results = w.results
  unclaimed : w'.unclaimed = w.unclaimed

/-- What a step can do to the tasks and to its call. -/
inductive Stepped (w : World σ τ) (a : Action) (w' : World σ τ) : Progress → Progress → Prop
  | waits (t : Progress) (hsame : w.Same w') : Stepped w a w' t t
  | begins (call : Relay) (unroutable denied : Option Failure) (request : RequestContext)
      (hevent : a.event = .begin call unroutable denied) (hfresh : call.requestID ∉ w.issued)
      (htasks : w'.tasks = w.tasks) (hissued : w'.issued = call.requestID :: w.issued)
      (hresults : w'.results = w.results) (hunclaimed : w'.unclaimed = w.unclaimed) :
      Stepped w a w' .idle
        (.relaying { call with now := w.clock + a.elapsed } request
          (Relay.opened { call with now := w.clock + a.elapsed } unroutable denied))
  | states (call : Relay) (request : RequestContext) (point : Point) (fault : StoreFault)
      (htasks : w'.tasks = (call.statement (w.clock + a.elapsed) fault w.tasks point).1)
      (hissued : w'.issued = w.issued)
        (hresults : w'.results = call.stores fault point ++ w.results)
      (hunclaimed : w'.unclaimed = call.unclaimed fault w.tasks w'.tasks w.unclaimed point) :
      Stepped w a w' (.relaying call request point)
        (.relaying call request (call.statement (w.clock + a.elapsed) fault w.tasks point).2)
  | works (call : Relay) (request request' : RequestContext) {point point' : Point}
      (hwork : Work point point') (hsame : w.Same w') :
      Stepped w a w' (.relaying call request point) (.relaying call request' point')
  | crashes (call : Relay) (request : RequestContext) (point : Point) (hsame : w.Same w') :
      Stepped w a w' (.relaying call request point) (.crashed call point)

variable {w w' : World σ τ} {a : Action} {t t' : Progress}

theorem Stepped.persists (h : Stepped w a w' t t') (hmem : row ∈ w.tasks.rows) :
    ∃ row' ∈ w'.tasks.rows, row' = row ∨ ∃ call request point,
      t = .relaying call request point ∧ call.Turned (w.clock + a.elapsed) point row row' := by
  cases h with
  | waits _ hs | works _ _ _ _ hs | crashes _ _ _ hs =>
    exact ⟨row, hs.tasks ▸ hmem, .inl rfl⟩
  | begins _ _ _ _ _ _ ht => exact ⟨row, ht ▸ hmem, .inl rfl⟩
  | states call request point fault ht =>
    obtain ⟨row', hr, hturned⟩ :=
      (call.statement_wrote (w.clock + a.elapsed) fault w.tasks point).persists hmem
    exact ⟨row', ht ▸ hr, .inr ⟨call, request, point, rfl, hturned⟩⟩

theorem Stepped.origin (h : Stepped w a w' t t') (hr : row' ∈ w'.tasks.rows) :
    (∃ row ∈ w.tasks.rows, row'.fixed = row.fixed) ∨ ∃ call request,
      t = .relaying call request .create ∧ row' = call.row (w.clock + a.elapsed) := by
  cases h with
  | waits _ hs | works _ _ _ _ hs | crashes _ _ _ hs =>
    exact .inl ⟨row', hs.tasks ▸ hr, rfl⟩
  | begins _ _ _ _ _ _ ht => exact .inl ⟨row', ht ▸ hr, rfl⟩
  | states call request point fault ht =>
    rw [ht] at hr
    rcases (call.statement_wrote (w.clock + a.elapsed) fault w.tasks point).origin hr with
      ⟨row, hm, hturned⟩ | ⟨rfl, rfl, -⟩
    · exact .inl ⟨row, hm, hturned.fixed⟩
    · exact .inr ⟨call, request, rfl, rfl⟩

variable [BudgetLedger σ] (tok : UnifiedRequest → Int)

theorem clock_act (w : World σ τ) (t : Progress) (a : Action) :
    (act tok w t a).1.clock = w.clock + a.elapsed := by
  unfold act
  dsimp only
  split
  all_goals first
    | rfl
    | (split <;> rfl)

theorem act_stepped (w : World σ τ) (t : Progress) (a : Action) :
    Stepped w a (act tok w t a).1 t (act tok w t a).2 := by
  unfold act
  dsimp only
  split
  case h_1 call unroutable denied he =>
    split
    · exact .waits _ ⟨rfl, rfl, rfl, rfl⟩
    · rename_i hf
      exact .begins call unroutable denied _ he hf rfl rfl rfl rfl
  case h_2 call request point fault he => exact .states call request point fault rfl rfl rfl rfl
  case h_3 call request task limiterAllows ticket he =>
    split
    · exact .works _ _ _ (.fails ..) ⟨rfl, rfl, rfl, rfl⟩
    · exact .works _ _ _ (.reserves _) ⟨rfl, rfl, rfl, rfl⟩
  case h_4 call request task err he =>
    cases err with
    | none => exact .works _ _ _ (.approves _) ⟨rfl, rfl, rfl, rfl⟩
    | some err => exact .works _ _ _ (.fails ..) ⟨rfl, rfl, rfl, rfl⟩
  case h_5 call request task err he =>
    cases err with
    | none => exact .works _ _ _ (.connects _) ⟨rfl, rfl, rfl, rfl⟩
    | some err => exact .works _ _ _ (.fails ..) ⟨rfl, rfl, rfl, rfl⟩
  case h_6 call request task invocation he =>
    split
    · exact .works _ _ _ (.breaks ..) ⟨rfl, rfl, rfl, rfl⟩
    · exact .works _ _ _ (.answers ..) ⟨rfl, rfl, rfl, rfl⟩
  case h_7 call request answers he => exact .works _ _ _ (.refuses _) ⟨rfl, rfl, rfl, rfl⟩
  case h_8 call request response cause answer answers he =>
    exact .works _ _ _ (.ends ..) ⟨rfl, rfl, rfl, rfl⟩
  case h_9 call request point he => exact .crashes call request point ⟨rfl, rfl, rfl, rfl⟩
  case h_10 => exact .waits _ ⟨rfl, rfl, rfl, rfl⟩

end

/-- A state that calls in turns can get to, from an empty table. -/
def Reached {σ τ κ : Type} [DecidableEq κ] [BudgetLedger σ] (estimateTokens : UnifiedRequest → Int)
    (w : Threads (World σ τ) κ Progress) : Prop :=
  ∃ gateway clock history,
    w = run (Threads.step (act estimateTokens)) ⟨.new gateway clock, fun _ => .idle⟩ history

/-! ### The task a call has claimed -/

/-- The task that a call has claimed and has not written back. -/
def Point.claimed : Point → Option A2ATask
  | .advance task | .limited task | .connect task | .invoke task | .abandon task _ _
  | .complete task _ => some task
  | _ => none

/-- The task whose outcome a call is about to write. -/
def Point.writes : Point → Option A2ATask
  | .abandon task _ _ | .complete task _ => some task
  | _ => none

theorem Point.claimed_of_writes (h : point.writes = some task) :
    point.claimed = some task := by
  cases point <;> first | exact h | cases h

theorem Work.claimed {point point' : Point} (h : Work point point') :
    point'.claimed = point.claimed ∨ point'.claimed = none := by
  cases h with
  | connects _ | answers _ _ | breaks _ _ _ => exact .inl rfl
  | approves task => cases task <;> exact .inr rfl
  | fails _ _ | reserves _ | refuses _ | ends _ _ _ _ => exact .inr rfl

theorem Relay.claimed_opened (call : Relay) (unroutable denied : Option Failure) :
    (call.opened unroutable denied).claimed = none := by
  unfold Relay.opened
  split
  · rfl
  · split
    · rfl
    · split
      · rfl
      · cases denied <;> rfl

/-- The tenant and the id of the task that a call has claimed. -/
def Progress.claims : Progress → Option (String × String)
  | .relaying call _ point => point.claimed.map fun task => (call.tenantID, task.taskID)
  | .idle | .crashed _ _ => none

/-- A statement leads to no claim, to the one there was, or to the first one on its row. -/
theorem Relay.Next.claimed {call : Relay} {now : Int} {s s' : A2ATaskStore} {point next : Point}
    (h : call.Next now s s' point next) :
    next.claimed = none ∨
      (next.claimed = point.claimed ∧ (s' = s ∨ point ≠ .reap ∧ point.writes = none)) ∨
      ∃ task row, next.claimed = some task ∧ row ∈ s.rows ∧ row.Is call.tenantID task.taskID ∧
        row.status.claimable ∧ row.set .running "" now ∈ s'.rows := by
  cases h with
  | stays _ hs => exact .inr (.inl ⟨rfl, .inl hs⟩)
  | counts task | exceeds task | limits task err =>
    exact .inr (.inl ⟨rfl, .inr ⟨by simp, rfl⟩⟩)
  | starts hmem his hc hr => exact .inr (.inr ⟨_, _, rfl, hmem, his, hc, hr⟩)
  | fails | reaps | opens | retries | replays | refuses | creates | finds | loses | adopts | taken
  | abandons | completes => exact .inl rfl

/-- A row that nobody may claim stays as it is, unless the step reaps it or is its call's. -/
theorem Relay.Turned.keeps {call : Relay} {now : Int} {row row' : A2ATask}
    (h : call.Turned now point row row') (hcl : ¬ row.status.claimable)
    (hr : point = .reap → ¬ stale call.tenantID call.staleBefore row)
    (hw : ∀ task, point.writes = some task → ¬ row.Is call.tenantID task.taskID) :
    row'.status = row.status ∧ row'.result = row.result := by
  cases h with
  | kept | advanced _ => exact ⟨rfl, rfl⟩
  | reaped hs => exact absurd hs (hr rfl)
  | started _ hc => exact absurd hc hcl
  | abandoned his | completed his => exact absurd his (hw _ rfl)

section

variable {σ τ : Type} {w w' : World σ τ} {a : Action} {t t' : Progress}

/-- A step leads its call to no claim, to the one there was, or to the first one on its row. -/
inductive Claiming (w w' : World σ τ) (t t' : Progress) : Prop
  | none (h : t'.claims = none)
  | kept (h : t'.claims = t.claims)
      (hrows : ∀ claim, t.claims = some claim → ∀ row ∈ w.tasks.rows, row.Is claim.1 claim.2 →
        row.status = .running → ∃ row' ∈ w'.tasks.rows, row'.fixed = row.fixed ∧
          row'.status = .running)
  | first (claim : String × String) (row row' : A2ATask) (h : t'.claims = some claim)
      (hrow : row ∈ w.tasks.rows) (his : row.Is claim.1 claim.2) (hclaim : row.status.claimable)
      (hrow' : row' ∈ w'.tasks.rows) (hfixed : row'.fixed = row.fixed)
      (hrun : row'.status = .running)

theorem World.Same.claiming (h : w.Same w') (hc : t'.claims = t.claims) : Claiming w w' t t' :=
  .kept hc fun _ _ row hr _ hrun => ⟨row, h.tasks ▸ hr, rfl, hrun⟩

theorem Stepped.claiming (h : Stepped w a w' t t') : Claiming w w' t t' := by
  cases h with
  | waits _ hsa => exact hsa.claiming rfl
  | begins call unroutable denied =>
    exact .none (congrArg (Option.map _) (Relay.claimed_opened _ unroutable denied))
  | crashes => exact .none rfl
  | works call request request' hworks hsa =>
    rcases hworks.claimed with hc | hn
    · exact hsa.claiming (congrArg (Option.map _) hc)
    · exact .none (congrArg (Option.map _) hn)
  | states call request point fault ht =>
    rcases (call.statement_next (w.clock + a.elapsed) fault w.tasks point).claimed with
      hn | ⟨hc, hw⟩ | ⟨task, row, hta, hmem, his, hcl, hr⟩
    · exact .none (congrArg (Option.map _) hn)
    · refine .kept (congrArg (Option.map _) hc) fun claim _ row hmem _ hrun => ?_
      rcases hw with hs | ⟨hre, hw⟩
      · exact ⟨row, by rwa [ht, hs], rfl, hrun⟩
      · obtain ⟨row', hr, hturned⟩ :=
          (call.statement_wrote (w.clock + a.elapsed) fault w.tasks point).persists hmem
        obtain ⟨hst, -⟩ := hturned.keeps (by simp [hrun, Status.claimable])
          (fun h => absurd h hre) (by simp [hw])
        exact ⟨row', ht ▸ hr, hturned.fixed, hst.trans hrun⟩
    · exact .first (call.tenantID, task.taskID) row (row.set .running "" (w.clock + a.elapsed))
        (congrArg (Option.map _) hta) hmem his hcl (ht ▸ hr) rfl rfl

end

/-! ### A message that goes through -/

/-- A message of a project's key to an agent, sent under an idempotency key. -/
def Relay.sent (requestID project agentID key text : String) : Relay where
  requestID := requestID
  principal := ⟨"application", "app-" ++ project, "acme", project, "key-" ++ project, false⟩
  target := ⟨agentID, ""⟩
  policies := []
  request := ⟨"", some ⟨[⟨"user", text, "", []⟩], none, []⟩, none, none, none⟩
  sessionID := "m-1"
  metadata := .insert .empty "a2a.idempotency_key" key
  now := 0

def askedFirst : Relay := .sent "req-1" "billing" "agent-1" "k-1" "hello"

def askedAgain : Relay := .sent "req-2" "billing" "agent-1" "k-1" "hello"

/-- A gateway without anything to account. -/
def World.idle : World MemoryBudgetLedger Unit :=
  .new ⟨.new (.new 0), (), []⟩ 0

/-- Two calls that have not begun. -/
def twoCalls : Threads (World MemoryBudgetLedger Unit) Bool Progress := ⟨.idle, fun _ => .idle⟩

def relayStep : Threads (World MemoryBudgetLedger Unit) Bool Progress → Bool × Action →
    Threads (World MemoryBudgetLedger Unit) Bool Progress :=
  Threads.step (act fun _ => 1)

/-- What a call goes through before the remote agent is called, when nothing fails. -/
def Relay.admission (call : Relay) : List Event :=
  [.begin call none none, .statement none, .statement none, .reserve true ⟨.ok "r", 0, 0⟩,
    .approve none, .statement none, .statement none, .statement none, .statement none,
    .connect none]

/-- What it goes through when the agent has answered. -/
def completion (text : String) : List Event :=
  [.invoke (.blocking (.ok (some ⟨"", some ⟨"agent", text, "external_agent_response"⟩, .zero⟩))),
    .statement none, .account ⟨.ok "u", none, none, 0⟩]

/-- A call's events, one right after the other. -/
def turns {κ : Type} (k : κ) (events : List Event) : List (κ × Action) :=
  events.map fun event => (k, ⟨0, event⟩)

end LiteAIG.A2A
