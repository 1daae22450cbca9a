/-
Calls that take turns on a shared state.

Each call has a state of its own beside the one that is shared.  A step is one action
of one call; it sees the shared state and the call's own, and no other call's.  An
invariant has two parts: what holds of the shared state, and what a call may rely on
about the shared state from where it is.  The second has to survive the steps of all
the others, and that is what `Threads.Sound.run` asks of a single action.
-/
import LiteAIG.Lib.Run

namespace Lib

/-- How a write of a database may fail: without effect, or with an effect that the caller is not
told of. -/
inductive Fault
  | refused
  | unconfirmed
  deriving DecidableEq

structure Threads (σ κ τ : Type*) where
  shared : σ
  own : κ → τ

namespace Threads

variable {σ κ τ α : Type*} [DecidableEq κ] {act : σ → τ → α → σ × τ}

/-- One action of one call. -/
def step (act : σ → τ → α → σ × τ) (w : Threads σ κ τ) (a : κ × α) : Threads σ κ τ where
  shared := (act w.shared (w.own a.1) a.2).1
  own := Function.update w.own a.1 (act w.shared (w.own a.1) a.2).2

/-- A condition on an action, in the state its call takes it in. -/
def Meets (ok : σ → τ → α → Prop) (w : Threads σ κ τ) (a : κ × α) : Prop :=
  ok w.shared (w.own a.1) a.2

instance Meets.decidable {ok : σ → τ → α → Prop} [∀ s t a, Decidable (ok s t a)]
    (w : Threads σ κ τ) (a : κ × α) : Decidable (Meets ok w a) :=
  inferInstanceAs (Decidable (ok _ _ _))

@[simp] theorem step_own_self (w : Threads σ κ τ) (k : κ) (a : α) :
    (w.step act (k, a)).own k = (act w.shared (w.own k) a).2 := by
  simp [step]

@[simp] theorem step_own_ne (w : Threads σ κ τ) {k k' : κ} (h : k' ≠ k) (a : α) :
    (w.step act (k, a)).own k' = w.own k' := by
  simp [step, h]

/-- `I` holds of the shared state, and every call may rely on `J`. -/
structure Sound (I : σ → Prop) (J : σ → τ → Prop) (w : Threads σ κ τ) : Prop where
  shared : I w.shared
  own : ∀ k, J w.shared (w.own k)

variable {I : σ → Prop} {J : σ → τ → Prop} {ok : σ → τ → α → Prop} {w : Threads σ κ τ}

theorem Sound.step {k : κ} {a : α} (hs : I (act w.shared (w.own k) a).1)
    (hse : J (act w.shared (w.own k) a).1 (act w.shared (w.own k) a).2)
    (ho : ∀ k' ≠ k, J (act w.shared (w.own k) a).1 (w.own k')) : (w.step act (k, a)).Sound I J := by
  exact ⟨hs, (Function.forall_update_iff _ fun _ t => J _ t).mpr ⟨hse, ho⟩⟩

/-- What an action keeps, for its own call and for the others, every run keeps. -/
theorem Sound.run
    (ha : ∀ s t a, I s → J s t → ok s t a →
      I (act s t a).1 ∧ J (act s t a).1 (act s t a).2 ∧ ∀ t', J s t' → J (act s t a).1 t')
    (steps : List (κ × α)) (w : Threads σ κ τ) (h : w.Sound I J)
    (hok : Allowed (Threads.step act) (Meets ok) w steps) :
    (Lib.run (Threads.step act) w steps).Sound I J := by
  refine Allowed.invariant (fun w a hw hm => ?_) steps w h hok
  obtain ⟨hs, hse, ho⟩ := ha w.shared (w.own a.1) a.2 hw.shared (hw.own a.1) hm
  exact .step hs hse fun k _ => ho _ (hw.own k)

/-- Beside that, what any two calls may rely on about each other. -/
structure Apart (I : σ → Prop) (J : σ → τ → Prop) (K : τ → τ → Prop) (w : Threads σ κ τ) : Prop
    extends w.Sound I J where
  apart : ∀ k k', k ≠ k' → K (w.own k) (w.own k')

variable {K : τ → τ → Prop}

theorem Apart.step (hsy : ∀ t t', K t t' → K t' t) {k : κ} {a : α} (h : w.Apart I J K)
    (hs : I (act w.shared (w.own k) a).1)
    (hse : J (act w.shared (w.own k) a).1 (act w.shared (w.own k) a).2)
    (ho : ∀ k' ≠ k, J (act w.shared (w.own k) a).1 (w.own k') ∧
      K (act w.shared (w.own k) a).2 (w.own k')) :
    (w.step act (k, a)).Apart I J K := by
  refine ⟨.step hs hse fun k' hk => (ho k' hk).1, fun k₁ k₂ hne => ?_⟩
  by_cases h₁ : k₁ = k
  · subst h₁
    rw [step_own_self, step_own_ne w (Ne.symm hne)]
    exact (ho k₂ (Ne.symm hne)).2
  · rw [step_own_ne w h₁]
    by_cases h₂ : k₂ = k
    · subst h₂
      rw [step_own_self]
      exact hsy _ _ (ho k₁ h₁).2
    · rw [step_own_ne w h₂]
      exact h.apart k₁ k₂ hne

theorem Apart.run (hsy : ∀ t t', K t t' → K t' t)
    (ha : ∀ s t a, I s → J s t → ok s t a →
      I (act s t a).1 ∧ J (act s t a).1 (act s t a).2 ∧
        ∀ t', J s t' → K t t' → J (act s t a).1 t' ∧ K (act s t a).2 t')
    (steps : List (κ × α)) (w : Threads σ κ τ) (h : w.Apart I J K)
    (hok : Allowed (Threads.step act) (Meets ok) w steps) :
    (Lib.run (Threads.step act) w steps).Apart I J K := by
  refine Allowed.invariant (fun w a hw hm => ?_) steps w h hok
  obtain ⟨k, a⟩ := a
  obtain ⟨hs, hse, ho⟩ := ha w.shared (w.own k) a hw.shared (hw.own k) hm
  exact hw.step hsy hs hse fun k' hk =>
    ho _ (hw.own k') (hw.apart k k' (Ne.symm hk))

end Threads

end Lib
