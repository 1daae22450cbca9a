/-
Runs of a machine driven by a list of inputs.

Everything that is proved about whole runs goes through here.  A machine is a
total step function; an input that is not enabled leaves the state alone, so a
schedule is any list of inputs at all.  `Allowed` says that every input of a run
is taken in a state that meets a condition, and `Allowed.invariant` is the one
induction: what holds at the start and survives every allowed input holds at the
end of every allowed run.
-/
import Mathlib

namespace Lib

variable {σ τ α : Type*}

/-- The state a machine is in after a list of inputs. -/
def run (step : σ → α → σ) (s : σ) (inputs : List α) : σ :=
  inputs.foldl step s

/-- Every input is taken in a state that meets the condition `ok`. -/
def Allowed (step : σ → α → σ) (ok : σ → α → Prop) : σ → List α → Prop
  | _, [] => True
  | s, a :: rest => ok s a ∧ Allowed step ok (step s a) rest

variable {step : σ → α → σ} {ok : σ → α → Prop} {I : σ → Prop} {ok₁ ok₂ : σ → α → Prop}
  {ok' : σ → α → Prop} (s : σ)

@[simp] theorem run_nil : run step s [] = s := rfl

@[simp] theorem run_cons (a : α) (rest : List α) :
    run step s (a :: rest) = run step (step s a) rest := rfl

@[simp] theorem run_append (xs ys : List α) :
    run step s (xs ++ ys) = run step (run step s xs) ys := by
  simp [run, List.foldl_append]

@[simp] theorem allowed_nil : Allowed step ok s [] := trivial

@[simp] theorem allowed_cons (a : α) (rest : List α) :
    Allowed step ok s (a :: rest) ↔ ok s a ∧ Allowed step ok (step s a) rest := Iff.rfl

theorem allowed_append : ∀ (xs ys : List α) (s : σ),
    Allowed step ok s (xs ++ ys) ↔
      Allowed step ok s xs ∧ Allowed step ok (run step s xs) ys := by
  intro xs
  induction xs with
  | nil => intro ys s; simp
  | cons a rest ih =>
    intro ys s
    simp only [List.cons_append, allowed_cons, run_cons, ih, and_assoc]

theorem allowed_and : ∀ {xs : List α} {s : σ},
    Allowed step (fun s a => ok s a ∧ ok' s a) s xs ↔
      Allowed step ok s xs ∧ Allowed step ok' s xs := by
  intro xs
  induction xs with
  | nil => intro s; simp
  | cons a rest ih =>
    intro s
    simp only [allowed_cons, ih]
    exact and_and_and_comm

theorem allowed_of_mem :
    ∀ (xs : List α) (s : σ), (∀ a ∈ xs, ∀ s, ok s a) → Allowed step ok s xs := by
  intro xs
  induction xs with
  | nil => intro s _; trivial
  | cons a rest ih =>
    intro s h
    exact ⟨h a List.mem_cons_self s, ih _ fun x hx => h x (List.mem_cons_of_mem _ hx)⟩

instance Allowed.decidable [∀ s a, Decidable (ok s a)] :
    ∀ (s : σ) (inputs : List α), Decidable (Allowed step ok s inputs)
  | _, [] => isTrue trivial
  | s, a :: rest =>
    @instDecidableAnd _ _ _ (Allowed.decidable (step s a) rest)

/-- What survives every input holds after every run. -/
theorem run_invariant (hs : ∀ s a, I s → I (step s a)) (inputs : List α) {s : σ} (hI : I s) :
    I (run step s inputs) :=
  List.foldlRecOn inputs step hI fun s hI a _ => hs s a hI

/-- What survives every allowed input holds after every allowed run. -/
theorem Allowed.invariant (hs : ∀ s a, I s → ok s a → I (step s a)) :
    ∀ (inputs : List α) (s : σ), I s → Allowed step ok s inputs → I (run step s inputs) := by
  intro inputs
  induction inputs with
  | nil => intro s hI _; exact hI
  | cons a rest ih =>
    intro s hI hok
    exact ih _ (hs s a hI hok.1) hok.2

/-- A condition that an invariant and the first condition give holds along the same runs. -/
theorem Allowed.mono (hs : ∀ s a, I s → ok s a → I (step s a))
    (ho : ∀ s a, I s → ok s a → ok' s a) :
    ∀ (inputs : List α) (s : σ), I s → Allowed step ok s inputs → Allowed step ok' s inputs := by
  intro inputs
  induction inputs with
  | nil => intro s _ _; trivial
  | cons a rest ih =>
    intro s hI hok
    exact ⟨ho s a hI hok.1, ih _ (hs s a hI hok.1) hok.2⟩

/-- Two conditions that say the same in every state an invariant allows hold along the same
runs. -/
theorem allowed_congr (hi : ∀ s a, I s → ok s a → (ok₁ s a ↔ ok₂ s a))
    (hs : ∀ s a, I s → ok s a → ok₂ s a → I (step s a)) :
    ∀ (inputs : List α) (s : σ), I s → Allowed step ok s inputs →
      (Allowed step ok₁ s inputs ↔ Allowed step ok₂ s inputs) := by
  intro inputs
  induction inputs with
  | nil => intro s _ _; exact Iff.rfl
  | cons a rest ih =>
    intro s hI hok
    rw [allowed_cons, allowed_cons, hi s a hI hok.1]
    exact and_congr_right fun h₂ => ih _ (hs s a hI hok.1 h₂) hok.2

theorem allowed_congr_of_invariant (hi : ∀ s a, I s → (ok₁ s a ↔ ok₂ s a))
    (hs : ∀ s a, I s → ok₂ s a → I (step s a)) (inputs : List α) (s : σ) (hI : I s) :
    Allowed step ok₁ s inputs ↔ Allowed step ok₂ s inputs := by
  have ha : Allowed step (fun _ _ => True) s inputs := allowed_of_mem _ _ fun _ _ _ => trivial
  exact allowed_congr (fun s a h _ => hi s a h) (fun s a h _ => hs s a h) inputs s hI ha

end Lib
