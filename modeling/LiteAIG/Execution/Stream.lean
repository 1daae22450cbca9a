/-
A stream execution as its goroutines take turns.

Each attempt has a provider process of its own.  A chunk takes the process three steps:
`trackingWriter` notes that the attempt is committed, hands the chunk to the client's
writer, and signals activity.  The plan waits for the process in a `select`.  It leaves
the wait with the result of the process; after a timer, when it cancels the process and
waits for it to return; or when its own context is done, when it cancels and does not
wait.  What the plan does next is `runPlan`'s matter: here the outcomes of its calls are
given, and an attempt ends only as the plan is told.
-/
import LiteAIG.Execution.Executor

namespace LiteAIG.Execution

variable {γ ρ : Type}

/-! ### The process and its writer -/

/-- Where the goroutine of an attempt is; what it sent is in the result channel. -/
inductive Process (γ : Type)
  | waiting
  | running
  /-- In `WriteChunk`, committed, with the target still to be called. -/
  | storing (chunk : γ)
  /-- In `WriteChunk`, with the activity still to be signalled. -/
  | wrote
  | finished (error : Option String)
  deriving DecidableEq

/-- The `trackingWriter` of an attempt and the process that has it. -/
structure Tracking (γ : Type) where
  process : Process γ
  (committed activity : Bool)

def Tracking.new : Tracking γ := ⟨.waiting, false, false⟩

inductive ProcessStep (γ : Type)
  | store (chunk : γ)
  | write
  /-- Back from the target, which took the chunk or did not. -/
  | signal (taken : Bool)
  | finish (error : Option String)

/-- A step of the process, if it is one it can do now. -/
def Tracking.step (t : Tracking γ) (a : ProcessStep γ) : Tracking γ :=
  match t.process, a with
  | .running, .store chunk => { t with process := .storing chunk, committed := true }
  | .storing _, .write => { t with process := .wrote }
  | .wrote, .signal taken => { t with process := .running, activity := t.activity || taken }
  | .running, .finish error => { t with process := .finished error }
  | _, _ => t

/-- The chunk that reaches the target in a step. -/
def Tracking.delivers (t : Tracking γ) (a : ProcessStep γ) : Option γ :=
  match t.process, a with
  | .storing chunk, .write => some chunk
  | _, _ => none

/-! ### How an attempt ends -/

/-- The deadlines of a stream. -/
structure StreamPolicy where
  (firstTokenTimeout streamIdleTimeout : Int)

/-- Never longer for the first byte than for a gap between chunks. -/
def StreamPolicy.firstTokenDeadline (p : StreamPolicy) : Int :=
  if p.firstTokenTimeout ≤ 0 ∨
    (p.streamIdleTimeout > 0 ∧ p.firstTokenTimeout > p.streamIdleTimeout) then
    p.streamIdleTimeout
  else p.firstTokenTimeout

/-- There is a timer. -/
def StreamPolicy.timed (p : StreamPolicy) : Bool := 0 < p.firstTokenDeadline

inductive StreamError
  /-- An error of the process or of the context. -/
  | passed (error : String)
  | deadlineExceeded
  | firstTokenTimeout (timeout : Int)
  deriving DecidableEq

variable (print : Int → String)

/-- The text of an error, given how a duration is printed. -/
def StreamError.text : StreamError → String
  | .passed error => error
  | .deadlineExceeded => "context deadline exceeded"
  | .firstTokenTimeout timeout => "stream first token timeout after " ++ print timeout

def StreamError.isFirstToken : StreamError → Bool
  | .firstTokenTimeout _ => true
  | _ => false

/-- What `streamAttempt` returns: a first-token timeout only of a stream that was not committed. -/
structure StreamEnd where
  committed : Bool
  error : Option StreamError
  uncommitted : error.any StreamError.isFirstToken = true → committed = false

/-- The process has returned. -/
def StreamEnd.result (committed : Bool) (error : Option String) : StreamEnd where
  committed := committed
  error := error.map .passed
  uncommitted := by cases error <;> simp [StreamError.isFirstToken]

/-- The timer fired, and the process has returned since. -/
def StreamEnd.timedOut (p : StreamPolicy) (committed firstToken : Bool) : StreamEnd where
  committed := committed
  error := some (if !committed && firstToken then .firstTokenTimeout p.firstTokenDeadline
    else .deadlineExceeded)
  uncommitted := by cases committed <;> simp [StreamError.isFirstToken]

/-- A call ends so, as the plan sees it. -/
def StreamEnd.gives (r : StreamEnd) : CallOutcome ρ → Bool
  | .ok response => r.error.isNone && response.isNone
  | .failed f =>
    r.error.map (StreamError.text print) = some f.error &&
      f.firstToken = r.error.any StreamError.isFirstToken && f.committed = r.committed

/-! ### The execution -/

/-- Where the goroutine of the plan is. -/
inductive PlanState
  /-- Before, between or after attempts. -/
  | between
  /-- In the `select`; the timer may be armed. -/
  | selecting (firstToken armed : Bool)
  /-- The timer fired; waiting for the result. -/
  | draining (firstToken : Bool)
  | returned
  deriving DecidableEq

/-- A chunk that reached the client's writer. -/
structure Delivery (γ : Type) where
  attempt : Nat
  chunk : γ
  /-- `ExecuteStream` had returned. -/
  late : Bool
  deriving DecidableEq

structure StreamState (γ : Type) where
  plan : PlanState
  /-- The error of the context, once it is done. -/
  done : Option String
  /-- How many attempts have ended; the number of the one under way. -/
  ended : Nat
  tracking : Nat → Tracking γ
  reached : List (Delivery γ)

inductive StreamStep (γ : Type)
  | start
  | takeResult
  | takeActivity
  | timerFires
  | drained
  | ctxDone
  | leave
  | process (attempt : Nat) (step : ProcessStep γ)
  /-- The client goes away, or the stream's overall deadline passes. -/
  | cancel (error : String)

namespace StreamState

def new : StreamState γ := ⟨.between, none, 0, fun _ => .new, []⟩

def current (s : StreamState γ) : Tracking γ := s.tracking s.ended

/-- The attempt under way ends, if the plan is told so. -/
def close (outcomes : List (CallOutcome ρ)) (s : StreamState γ) (r : StreamEnd) : StreamState γ :=
  match outcomes[s.ended]? with
  | none => s
  | some outcome =>
    if r.gives print outcome then { s with plan := .between, ended := s.ended + 1 } else s

/-- One step of one of the goroutines, or of the context; one that cannot be taken changes
nothing. -/
def step (policy : StreamPolicy) (outcomes : List (CallOutcome ρ)) (s : StreamState γ) :
    StreamStep γ → StreamState γ
  | .start =>
    if s.plan = .between ∧ s.ended < outcomes.length then
      { s with
        plan := .selecting true policy.timed
        tracking := Function.update s.tracking s.ended ⟨.running, false, false⟩ }
    else s
  | .takeResult =>
    match s.plan, s.current.process with
    | .selecting .., .finished error => s.close print outcomes (.result s.current.committed error)
    | _, _ => s
  | .takeActivity =>
    match s.plan, s.current.activity with
    | .selecting .., true =>
      { s with
        plan := .selecting false (policy.timed && 0 < policy.streamIdleTimeout)
        tracking := Function.update s.tracking s.ended { s.current with activity := false } }
    | _, _ => s
  | .timerFires =>
    match s.plan with
    | .selecting firstToken true => { s with plan := .draining firstToken }
    | _ => s
  | .drained =>
    match s.plan, s.current.process with
    | .draining firstToken, .finished _ =>
      s.close print outcomes (.timedOut policy s.current.committed firstToken)
    | _, _ => s
  | .ctxDone =>
    match s.plan, s.done with
    | .selecting .., some error => s.close print outcomes (.result s.current.committed (some error))
    | _, _ => s
  | .leave => if s.plan = .between ∧ s.ended = outcomes.length then { s with plan := .returned }
    else s
  | .process k a =>
    { s with
      tracking := Function.update s.tracking k ((s.tracking k).step a)
      reached := s.reached ++ ((s.tracking k).delivers a).toList.map fun chunk =>
        ⟨k, chunk, s.plan = .returned⟩ }
  | .cancel error => if s.done = none then { s with done := some error } else s

end StreamState

end LiteAIG.Execution
