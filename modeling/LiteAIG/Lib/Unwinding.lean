/-
What one actor is told, and who can influence it.

A machine answers the inputs it is given.  If a relation between two states is kept by
the inputs of an actor, who is told the same in both, and by the inputs of all the
others taken in the first state alone, then the actor is told what it would be told
without the others.
-/
import LiteAIG.Lib.Run

namespace Lib

variable {σ α ω : Type*}

/-- The answers to the inputs of one actor, in order. -/
def answers (step : σ → α → σ) (answer : σ → α → Option ω) (mine : α → Bool) : σ → List α → List ω
  | _, [] => []
  | s, a :: rest =>
    (if mine a then (answer s a).toList else []) ++ answers step answer mine (step s a) rest

variable {step : σ → α → σ} {answer : σ → α → Option ω} {mine : α → Bool}

theorem answers_cons_mine (s : σ) {a : α} (h : mine a) (rest : List α) :
    answers step answer mine s (a :: rest)
      = (answer s a).toList ++ answers step answer mine (step s a) rest := by
  simp [answers, h]

theorem answers_cons_other (s : σ) {a : α} (h : mine a = false) (rest : List α) :
    answers step answer mine s (a :: rest) = answers step answer mine (step s a) rest := by
  simp [answers, h]

/-- An actor is told what it would be told without the others. -/
theorem answers_purge {ok : σ → α → Prop} {R : σ → σ → Prop}
    (hm : ∀ s s' a, R s s' → ok s a → mine a = true →
      answer s a = answer s' a ∧ R (step s a) (step s' a))
    (ho : ∀ s s' a, R s s' → ok s a → mine a = false → R (step s a) s') :
    ∀ (inputs : List α) (s s' : σ), R s s' → Allowed step ok s inputs →
      answers step answer mine s inputs = answers step answer mine s' (inputs.filter mine) := by
  intro inputs
  induction inputs with
  | nil => intro s s' _ _; rfl
  | cons a rest ih =>
    intro s s' hR hok
    cases ha : mine a with
    | true =>
      obtain ⟨hs, hn⟩ := hm s s' a hR hok.1 ha
      rw [List.filter_cons_of_pos ha, answers_cons_mine s ha, answers_cons_mine s' ha, hs,
        ih _ _ hn hok.2]
    | false =>
      rw [List.filter_cons_of_neg (by simp [ha]), answers_cons_other s ha]
      exact ih _ _ (ho s s' a hR hok.1 ha) hok.2

end Lib
