/-
The outbound relay of A2A messages, one step at a time.

A call of `invokeA2ARelay` takes turns with others at the statements it makes on the
task table, and between those at everything that may take its time: admission,
approval, the call of the remote agent, accounting.  `Point` is where it is, and
holds what its local variables do.  A step is given what the outside answers there,
and the time that has gone by.  The process may crash before any step.
-/
import LiteAIG.A2A.Tasks
import LiteAIG.Lib.Threads
import LiteAIG.Pipeline.Tool

namespace LiteAIG.A2A

open Lib Budget Ledger Pipeline

/-! ### A call -/

/-- Who calls. -/
structure Principal where
  (type id tenantID projectID keyID : String)
  /-- The caller is known through federation only. -/
  external : Bool

/-- The agent the message is routed to, and the project that owns it. -/
structure Target where
  (agentID projectID : String)

/-- One call, as it is once its message is routed. -/
structure Relay where
  requestID : String
  principal : Principal
  target : Target
  policies : List PolicyItem
  request : UnifiedRequest
  /-- The id of the A2A message. -/
  sessionID : String
  metadata : Assoc String String
  /-- The time at which the call came in. -/
  now : Int

namespace Relay

variable (call : Relay)

abbrev tenantID : String := call.principal.tenantID

/-- An external caller has no project; the one of the agent stands in. -/
def projectID : String :=
  if call.principal.external ∧ call.principal.projectID = "" ∧ call.target.projectID ≠ "" then
    call.target.projectID
  else call.principal.projectID

def metadataValue (key : String) : String := (call.metadata.lookup key).getD ""

/-- `a2aIdempotencyKey`: what the client chose, else its message id, else the request's own id. -/
def idempotencyKey : String :=
  let key := call.metadataValue "a2a.idempotency_key"
  if key ≠ "" then key else if call.sessionID ≠ "" then call.sessionID else call.requestID

/-- `a2aRelayText`: the last message that is not empty. -/
def relayText : String :=
  ((call.request.chat.map ChatPayload.messages).getD []).foldl
    (fun text message => if message.content ≠ "" then message.content else text) ""

end Relay

/-- `strconv.Atoi`. -/
def atoi (text : String) : Option Int :=
  let (sign, digits) : Int × List Char :=
    match text.toList with
    | '-' :: rest => (-1, rest)
    | '+' :: rest => (1, rest)
    | rest => (1, rest)
  if digits = [] ∨ digits.any (fun c => !c.isDigit) then none
  else
    let value := sign * digits.foldl (fun (n : Int) c => n * 10 + (c.toNat - '0'.toNat : Nat)) 0
    if -2 ^ 63 ≤ value ∧ value < 2 ^ 63 then some value else none

variable (call : Relay)

/-- `a2aHopCount`. -/
def Relay.hopCount : Int :=
  match atoi (call.metadataValue "a2a.delegation.hops") with
  | some hops => if hops < 0 then 0 else hops
  | none => 0

def maxDelegationHops : Int := 3

def maxTaskCalls : Int := 16

/-- Five minutes. -/
def taskRunningTTL : Int := 5 * 60 * 1000000000

def Relay.staleBefore : Int := call.now - taskRunningTTL

/-- The row that `Create` is given. -/
def Relay.task : A2ATask where
  taskID := call.requestID
  tenantID := call.tenantID
  externalAgentID := call.target.agentID
  projectID := call.projectID
  requestID := call.requestID
  idempotencyKey := call.idempotencyKey
  status := .pending
  message := call.relayText
  result := ""
  hops := 0
  calls := 0
  attempts := 0
  updatedAt := 0

def Relay.inProgress : Failure :=
  .kernel "A2A_TASK_IN_PROGRESS" "a task for this idempotency key is already in progress"
    call.requestID false

/-- `a2aTaskLimitError`; `current` is the row as far as it could be read. -/
def Relay.limitError (current : Option A2ATask) : Failure :=
  match current with
  | some current =>
    if current.hops + (call.hopCount + 1) > maxDelegationHops then
      .kernel "FEDERATION_HOP_LIMIT" "delegation hop limit exceeded" call.requestID false
    else .kernel "A2A_TASK_LIMIT" "A2A task call limit exceeded" call.requestID false
  | none => .kernel "A2A_TASK_LIMIT" "A2A task call limit exceeded" call.requestID false

/-- `a2aReplayResponse`. -/
def replayResponse (agentID : String) (task : A2ATask) : Reply :=
  ⟨task.taskID, some ⟨agentID, task.result, "a2a.task_replay"⟩, .zero⟩

/-- `relayDeltaForwarder.response`: what came in pieces, put together. -/
def forwarded (deltas : List String) : Reply :=
  ⟨call.requestID, some ⟨call.target.agentID, String.join deltas, "external_agent_response"⟩, .zero⟩

/-- What is stored of a response. -/
def replyContent (response : Option Reply) : String :=
  ((response.bind Reply.toolResult).map ToolResult.content).getD ""

/-! ### Where a call is -/

/-- The next thing a call does.  From `start` on it has a task. -/
inductive Point
  | reap
  | lookup
  | reserve (task : Option A2ATask)
  | approve (task : Option A2ATask)
  | create
  /-- `GetByTask`: whether the row is its own. -/
  | readBack
  /-- The row of the call that was first. -/
  | reread
  | start (task : A2ATask)
  | advance (task : A2ATask)
  /-- The read of `a2aTaskLimitError`. -/
  | limited (task : A2ATask)
  | connect (task : A2ATask)
  | invoke (task : A2ATask)
  /-- Mark the task as failed for `cause`, and answer with `answer`. -/
  | abandon (task : A2ATask) (cause answer : Failure)
  | complete (task : A2ATask) (response : Option Reply)
  /-- Another call has the task: `finalizeTool` with that error, and the same to the caller. -/
  | refuse
  | finalize (response : Option Reply) (cause : Option Failure)
      (answer : Except Failure (Option Reply))
  /-- The answer is the stored result of the task. -/
  | replayed (task : A2ATask)
  | returned (answer : Except Failure (Option Reply))

/-- `finalizeTool` and then the same error to the caller. -/
def Point.fail (err : Failure) : Point := .finalize none (some err) (.error err)

/-- What the call returned, if it has. -/
def Point.answer : Point → Option (Except Failure (Option Reply))
  | .replayed task => some (.ok (some (replayResponse call.target.agentID task)))
  | .returned answer => some answer
  | _ => none

/-! ### The steps on the table -/

/-- How a statement failed, with the driver's error. -/
abbrev StoreFault := Option (Fault × Failure)

def TaskError.failure (err : TaskError) : Failure := .other err.message

/-- A read that may fail. -/
def read {α : Type} (fault : StoreFault) (answer : Except TaskError α) : Except Failure α :=
  match fault, answer with
  | some (_, err), _ => .error err
  | none, answer => answer.mapError TaskError.failure

/-- A write that may fail, and the table after it. -/
def write {α : Type} (fault : StoreFault) (s : A2ATaskStore)
    (answer : Except TaskError (α × A2ATaskStore)) : Except Failure α × A2ATaskStore :=
  match answer, fault with
  | .error err, none => (.error err.failure, s)
  | .error _, some (_, err) => (.error err, s)
  | .ok (value, s'), none => (.ok value, s')
  | .ok (_, s'), some (.unconfirmed, err) => (.error err, s')
  | .ok _, some (.refused, err) => (.error err, s)

/-- After the read of the row that has the key: where to go without one, and with one that may be
tried again. -/
def afterFound (absent : Point) (retry : A2ATask → Point) : Except Failure (Option A2ATask) → Point
  | .error err => .fail err
  | .ok none => absent
  | .ok (some found) =>
    match found.status with
    | .completed => .replayed found
    | .pending | .running => .refuse
    | .failed | .cancelled => retry found

def afterLookup : Except Failure (Option A2ATask) → Point :=
  afterFound (.reserve none) fun existing => .reserve (some existing)

/-- The same for a call whose insert did nothing. -/
def afterReread : Except Failure (Option A2ATask) → Point :=
  afterFound (.fail (.other "durable A2A task disappeared after create")) .start

/-- The table after a write, and where its answer leads. -/
def proceed {α : Type} (written : Except Failure α × A2ATaskStore)
    (next : Except Failure α → Point) :
    A2ATaskStore × Point := (written.2, next written.1)

/-- One statement on the table, for a call that has come to one. -/
def Relay.statement (now : Int) (fault : StoreFault) (s : A2ATaskStore) :
    Point → A2ATaskStore × Point
  | .reap =>
    proceed (write fault s (s.reapStaleRunning call.tenantID call.staleBefore now)) fun
      | .error err => .fail err
      | .ok _ => .lookup
  | .lookup =>
    (s, afterLookup (read fault (s.getByIdempotency call.tenantID call.idempotencyKey)))
  | .create =>
    proceed (write fault s ((s.create call.tenantID call.task now).map fun s => ((), s))) fun
      | .error err => .fail err
      | .ok _ => .readBack
  | .readBack =>
    (s, match read fault (s.getByTask call.tenantID call.requestID) with
      | .error err => .fail err
      | .ok (some created) => .start created
      | .ok none => .reread)
  | .reread =>
    (s, afterReread (read fault (s.getByIdempotency call.tenantID call.idempotencyKey)))
  | .start task =>
    proceed (write fault s (s.tryStart call.tenantID task.taskID call.staleBefore now)) fun
      | .error err => .fail err
      | .ok false => .refuse
      | .ok true => .advance task
  | .advance task =>
    proceed (write fault s (s.advanceCounters call.tenantID task.taskID (call.hopCount + 1) 1
        maxDelegationHops maxTaskCalls now)) fun
      | .error err => .fail err
      | .ok false => .limited task
      | .ok true => .connect task
  | .limited task =>
    let limit :=
      call.limitError ((read fault (s.getByTask call.tenantID task.taskID)).toOption.join)
    (s, .abandon task limit limit)
  | .abandon task cause answer =>
    -- whether the row could be written is not looked at
    proceed (write fault s ((s.setStatusResult call.tenantID task.taskID .failed "" now).map
        fun s => ((), s))) fun _ => .finalize none (some cause) (.error answer)
  | .complete task response =>
    let response := response.map fun r => { r with id := task.taskID }
    proceed (write fault s ((s.setStatusResult call.tenantID task.taskID .completed
        (replyContent response) now).map fun s => ((), s))) fun
      | .error err => .finalize response (some err) (.error err)
      | .ok _ => .finalize response none (.ok response)
  | point => (s, point)

/-! ### Calls in turns -/

/-- What the remote agent's connector did: the blocking call under the breaker, an error with what
the connector makes of it, or a stream of pieces. -/
inductive Invocation
  | blocking (result : Except (Failure × Failure) (Option Reply))
  | streaming (deltas : List String) (err : Option (Failure × Failure))

def Invocation.result : Invocation → Except (Failure × Failure) (Option Reply)
  | .blocking result => result
  | .streaming _ (some err) => .error err
  | .streaming deltas none => .ok (some (forwarded call deltas))

inductive Event
  /-- A call comes in, with the errors of routing and of the federation gate. -/
  | begin (call : Relay) (unroutable denied : Option Failure)
  | statement (fault : StoreFault)
  | reserve (limiterAllows : Bool) (ticket : Ticket)
  | approve (err : Option Failure)
  /-- The connector is built. -/
  | connect (err : Option Failure)
  | invoke (invocation : Invocation)
  | account (answers : AccountingAnswers)
  | crash

/-- What happens, and how much later than the last thing that did. -/
structure Action where
  elapsed : Nat
  event : Event

/-- Where a call is, or was when its process crashed. -/
inductive Progress
  | idle
  | relaying (call : Relay) (request : RequestContext) (point : Point)
  | crashed (call : Relay) (point : Point)

/-- A result that was stored for a task, and the call it is from. -/
structure Stored where
  (tenantID taskID result : String)
  call : Relay

/-- What the calls share.  The clock is the gateway's and the database's.  Nothing reads the last
two. -/
structure World (σ τ : Type) where
  tasks : A2ATaskStore
  gateway : Gateway σ τ
  clock : Int
  /-- The request ids that the generator has given out; it gives none out twice. -/
  issued : List String
  /-- The results that were stored, in any order. -/
  results : List Stored
  /-- The calls that have inserted a row, and nobody has started its task. -/
  unclaimed : List Relay

def World.new {σ τ : Type} (gateway : Gateway σ τ) (clock : Int) : World σ τ :=
  ⟨.empty, gateway, clock, [], [], []⟩

/-- The request a call builds. -/
def Relay.context : RequestContext :=
  { RequestContext.new call.requestID ⟨call.tenantID, call.projectID, call.principal.keyID⟩
      call.policies call.request false false with source := "gateway" }

/-- The checks before the table is looked at: the message, its route, and the federation gate,
which looks at the number of hops first. -/
def Relay.opened (unroutable denied : Option Failure) : Point :=
  if call.request.chat.isNone then
    .returned (.error (.kernel "INVALID_REQUEST" "A2A chat message is required" "" false))
  else
    match unroutable with
    | some err => .returned (.error err)
    | none =>
      if call.hopCount ≥ maxDelegationHops then
        .fail (.kernel "FEDERATION_HOP_LIMIT" "delegation hop limit exceeded" call.requestID false)
      else (denied.map Point.fail).getD .reap

/-- After the approval: a call without a task creates one. -/
def afterApproval : Option A2ATask → Point
  | none => .create
  | some task => .start task

/-- Whether a write had no effect. -/
def StoreFault.refused (fault : StoreFault) : Bool := fault.map Prod.fst = some .refused

/-- The result that a statement stores, if it does. -/
def Relay.stores (fault : StoreFault) : Point → List Stored
  | .complete task response =>
    if fault.refused ∨ call.tenantID = "" then []
    else [⟨call.tenantID, task.taskID, replyContent response, call⟩]
  | _ => []

/-- The calls whose row nobody has started, after a statement has made one table of another. -/
def Relay.unclaimed (fault : StoreFault) (before after : A2ATaskStore) (calls : List Relay) :
    Point → List Relay
  | .create => if before.rows.length < after.rows.length then call :: calls else calls
  | .start task =>
    if fault.refused ∨ call.tenantID = "" then calls
    else calls.filter fun other =>
      ¬ (other.tenantID = call.tenantID ∧ other.requestID = task.taskID)
  | _ => calls

section

variable {σ τ : Type} [BudgetLedger σ]

def act (estimateTokens : UnifiedRequest → Int) (w : World σ τ) (t : Progress) (a : Action) :
    World σ τ × Progress :=
  let w := { w with clock := w.clock + a.elapsed }
  match t, a.event with
  | .idle, .begin call unroutable denied =>
    if call.requestID ∈ w.issued then (w, .idle)
    else
      let call := { call with now := w.clock }
      ({ w with issued := call.requestID :: w.issued },
        .relaying call call.context (call.opened unroutable denied))
  | .relaying call request point, .statement fault =>
    let (tasks, next) := call.statement w.clock fault w.tasks point
    ({ w with
        tasks
        results := call.stores fault point ++ w.results
        unclaimed := call.unclaimed fault w.tasks tasks w.unclaimed point },
      .relaying call request next)
  | .relaying call request (.reserve task), .reserve limiterAllows ticket =>
    match Run.admitTool estimateTokens limiterAllows ticket ⟨request, w.gateway⟩ with
    | (some err, r) => ({ w with gateway := r.gateway }, .relaying call r.request (.fail err))
    | (none, r) => ({ w with gateway := r.gateway }, .relaying call r.request (.approve task))
  | .relaying call request (.approve task), .approve err =>
    (w, .relaying call request ((err.map Point.fail).getD (afterApproval task)))
  | .relaying call request (.connect task), .connect err =>
    (w, .relaying call request ((err.map Point.fail).getD (.invoke task)))
  | .relaying call request (.invoke task), .invoke invocation =>
    match invocation.result call with
    | .error (err, normalized) => (w, .relaying call request (.abandon task err normalized))
    | .ok response => (w, .relaying call request (.complete task response))
  | .relaying call request .refuse, .account answers =>
    let r := (Run.finalizeTool answers "a2a" none (some call.inProgress) ⟨request, w.gateway⟩).2
    ({ w with gateway := r.gateway },
      .relaying call r.request (.returned (.error call.inProgress)))
  | .relaying call request (.finalize response cause answer), .account answers =>
    let (err, r) := Run.finalizeTool answers "a2a" response cause ⟨request, w.gateway⟩
    let answer := match answer, err with
      | .ok _, some err => .error err
      | answer, _ => answer
    ({ w with gateway := r.gateway }, .relaying call r.request (.returned answer))
  | .relaying call _ point, .crash => (w, .crashed call point)
  | t, _ => (w, t)

end

end LiteAIG.A2A
