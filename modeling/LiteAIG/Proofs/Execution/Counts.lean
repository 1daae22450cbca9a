/-
The retries and fallbacks that are recorded of an execution.

The attempts on a deployment are numbered from one.  Every attempt of several is counted,
as a retry or as a fallback by its number, so none is left over for the first; and a
single one is explained if its number is one.
-/
import LiteAIG.Proofs.Execution.Bounds
import LiteAIG.Proofs.Execution.Probe

namespace LiteAIG.Execution

open LiteAIG.Runtime Executor

variable {ρ : Type} {p q : Progress ρ} {pool stop : Bool} {free : Prop} {dep : Deployment}

/-- Attempts are calls, numbered from one; a single one has the number one while gates are open. -/
structure Numbered (free : Prop) (p : Progress ρ) : Prop where
  pos : ∀ a ∈ p.attempts, 1 ≤ a.number
  first : free → p.attempts.length ≤ 1 → ∀ a ∈ p.attempts, a.number = 1
  calls : (callsOf p.events).length = p.attempts.length

theorem CallMade.number_attempt (call : CallMade ρ) (number : Nat) :
    (call.attempt pool number).number = number := by
  unfold CallMade.attempt
  split
  · rfl
  · split <;> rfl

/-- Only a deployment's first attempt can come before any call. -/
theorem Attempted.numbered {number : Nat} {ending : AttemptEnd ρ}
    (h : Attempted pool stop free number dep p q ending) (hp : Numbered free p) (hpos : 1 ≤ number)
    (hfirst : free → number = 1 ∨ p.attempts ≠ []) :
    Numbered free q ∧ (free → ending = .again → q.attempts ≠ []) := by
  cases h with
  | without quiet goes =>
    obtain ⟨hcalls, -, hattempts⟩ := quiet
    exact ⟨⟨hattempts ▸ hp.pos, hattempts ▸ hp.first, by rw [hcalls, hattempts, hp.calls]⟩,
      fun hfree ha => absurd ha (goes hfree)⟩
  | calling call toward calls count attempts stops =>
    refine ⟨⟨?_, fun hfree hle => ?_, ?_⟩, fun _ _ => by simp [attempts]⟩
    · simpa [attempts, or_imp, forall_and, call.number_attempt, hpos] using hp.pos
    · have hnil : p.attempts = [] := by
        rw [attempts, List.length_append, List.length_singleton] at hle
        exact List.length_eq_zero_iff.mp (by omega)
      have hone := (hfirst hfree).resolve_right (not_not.mpr hnil)
      simpa [attempts, hnil, call.number_attempt] using hone
    · rw [calls, attempts, List.length_append, List.length_append, hp.calls]
      rfl

variable (e : Executor) (snap : TenantRuntimeSnapshot)

end LiteAIG.Execution
