/-
The runner of the seven fixed stages.

A handler works on the request and returns a directive or an error; what it changed
before an error stays changed.  The first error ends the run, and the preflight's
directive may leave out two stages.  Accounting is not one of the stages in the
chain: it is deferred, so it is called once on every path, with the error that the
chain ended with.
-/
import Mathlib

namespace LiteAIG.Pipeline

variable {ρ ε : Type}

inductive Stage
  | admission | inputGuardrail | policyCostPreflight | resolution | executionResilience
  | outputStreamGuardrail | accountingTelemetry
  deriving DecidableEq

/-- `proceed` is `Continue`; `other` is a value that no stage should return. -/
inductive Directive
  | proceed
  | skipResolutionExecution
  | other (value : UInt8)
  deriving DecidableEq

abbrev Handler (ρ ε : Type) := ρ → Except ε Directive × ρ

structure Handlers (ρ ε : Type) where
  admission : Handler ρ ε
  inputGuardrail : Handler ρ ε
  policyCostPreflight : Handler ρ ε
  (resolution executionResilience outputStreamGuardrail accountingAndTelemetry : Handler ρ ε)

/-- How the chain of stages ends, when it does not end well. -/
inductive StageError (ε : Type)
  | failed (stage : Stage) (err : ε)
  | unsupported (stage : Stage) (directive : Directive)
  deriving DecidableEq

def runStage (stage : Stage) (handler : Handler ρ ε) (request : ρ) : Option (StageError ε) × ρ :=
  match handler request with
  | (.error err, request) => (some (.failed stage err), request)
  | (.ok directive, request) =>
    if directive ≠ .proceed then (some (.unsupported stage directive), request)
    else (none, request)

theorem runStage_snd (stage : Stage) (handler : Handler ρ ε) (request : ρ) :
    (runStage stage handler request).2 = (handler request).2 := by
  unfold runStage
  rcases handler request with ⟨err | directive, request'⟩
  · rfl
  · dsimp only
    split <;> rfl

theorem runStage_eq_none {stage : Stage} {handler : Handler ρ ε} {request : ρ} :
    (runStage stage handler request).1 = none ↔ (handler request).1 = .ok .proceed := by
  unfold runStage
  rcases handler request with ⟨err | directive, request'⟩
  · simp
  · by_cases h : directive = .proceed
    · simp [h]
    · simp [h]

/-- The second part, unless the first one failed. -/
def andThen (first next : ρ → Option ε × ρ) (request : ρ) : Option ε × ρ :=
  match first request with
  | (some err, request) => (some err, request)
  | (none, request) => next request

theorem andThen_eq (first next : ρ → Option ε × ρ) (request : ρ) :
    (∃ err, (first request).1 = some err ∧ andThen first next request = first request) ∨
      ((first request).1 = none ∧ andThen first next request = next (first request).2) := by
  unfold andThen
  rcases first request with ⟨_ | err, request⟩
  · exact Or.inr ⟨rfl, rfl⟩
  · exact Or.inl ⟨err, rfl, rfl⟩

/-- From the preflight on. -/
def Handlers.fromPreflight (h : Handlers ρ ε) (request : ρ) : Option (StageError ε) × ρ :=
  let output := runStage .outputStreamGuardrail h.outputStreamGuardrail
  match h.policyCostPreflight request with
  | (.error err, request) => (some (.failed .policyCostPreflight err), request)
  | (.ok .proceed, request) =>
    andThen (runStage .resolution h.resolution)
      (andThen (runStage .executionResilience h.executionResilience) output) request
  | (.ok .skipResolutionExecution, request) => output request
  | (.ok (.other value), request) =>
    (some (.unsupported .policyCostPreflight (.other value)), request)

/-- The stages before the deferred one. -/
def Handlers.stages (h : Handlers ρ ε) : ρ → Option (StageError ε) × ρ :=
  andThen (runStage .admission h.admission)
    (andThen (runStage .inputGuardrail h.inputGuardrail) h.fromPreflight)

/-- `Run`: the error of the chain joined with the one of accounting.  `capture` stores the first
in the request, where accounting finds it. -/
def Handlers.run (h : Handlers ρ ε) (capture : Option (StageError ε) → ρ → ρ) (request : ρ) :
    (Option (StageError ε) × Option ε) × ρ :=
  let (err, request) := h.stages request
  match h.accountingAndTelemetry (capture err request) with
  | (.error accountingErr, request) => ((err, some accountingErr), request)
  | (.ok _, request) => ((err, none), request)

theorem run_snd (h : Handlers ρ ε) (capture : Option (StageError ε) → ρ → ρ) (request : ρ) :
    (h.run capture request).2
      = (h.accountingAndTelemetry (capture (h.stages request).1 (h.stages request).2)).2 := by
  unfold Handlers.run
  dsimp only
  split
  · rename_i haccounting
    rw [haccounting]
  · rename_i haccounting
    rw [haccounting]

end LiteAIG.Pipeline
