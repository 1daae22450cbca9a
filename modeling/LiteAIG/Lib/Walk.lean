/-
Programs as walks of a partial automaton, and interleavings of them.

A transition that may not be taken is `none`, so a list of actions is a program of the
automaton if it can be walked to its end.  Where several actors take turns on one
machine, what each of them did is a walk of its own; `allowed_of_walks` turns that into
a condition on the single steps of the run.
-/
import LiteAIG.Lib.Run

namespace Lib

variable {σ τ α β ι : Type*}

/-! ### Walks -/

/-- Where a list of actions leads from a state. -/
def walk (take : σ → α → Option σ) : σ → List α → Option σ
  | s, [] => some s
  | s, a :: rest => (take s a).bind fun s' => walk take s' rest

section

variable {take : σ → α → Option σ} {s s' : σ} {actions : List α}

theorem walk_cons_eq_some {a : α} :
    walk take s (a :: actions) = some s' ↔ ∃ t, take s a = some t ∧ walk take t actions = some s' :=
  Option.bind_eq_some_iff

theorem walk_append (s : σ) (xs ys : List α) :
    walk take s (xs ++ ys) = (walk take s xs).bind fun s' => walk take s' ys := by
  induction xs generalizing s with
  | nil => rfl
  | cons a rest ih =>
    simp only [List.cons_append, walk, Option.bind_assoc]
    exact congrArg _ (funext fun s' => ih s')

theorem walk_of_prefix {part : List α} (h : walk take s actions = some s')
    (hp : part <+: actions) : ∃ t, walk take s part = some t := by
  obtain ⟨rest, rfl⟩ := hp
  rw [walk_append] at h
  obtain ⟨t, ht, -⟩ := Option.bind_eq_some_iff.mp h
  exact ⟨t, ht⟩

/-- What is counted up and down along a walk is the change of a quantity of the state. -/
theorem walk_count {up down : α → Bool} (amount : σ → Nat)
    (ht : ∀ s s' a, take s a = some s' →
      amount s + (if up a then 1 else 0) = amount s' + if down a then 1 else 0)
    (h : walk take s actions = some s') :
    amount s + actions.countP up = amount s' + actions.countP down := by
  induction actions generalizing s with
  | nil =>
    obtain rfl := Option.some.inj h
    rfl
  | cons a rest ih =>
    obtain ⟨t, ho, hr⟩ := walk_cons_eq_some.mp h
    have hs := ht s t a ho
    have hm := ih hr
    rw [List.countP_cons, List.countP_cons]
    omega

/-- A walk taken apart: each action is a walk of a finer automaton. -/
theorem walk_flatMap {fine : τ → β → Option τ} (view : σ → τ) {parts : α → List β}
    (ht : ∀ s s' a, take s a = some s' → walk fine (view s) (parts a) = some (view s'))
    (h : walk take s actions = some s') :
    walk fine (view s) (actions.flatMap parts) = some (view s') := by
  induction actions generalizing s with
  | nil =>
    obtain rfl := Option.some.inj h
    rfl
  | cons a rest ih =>
    obtain ⟨t, ho, hr⟩ := walk_cons_eq_some.mp h
    rw [List.flatMap_cons, walk_append, ht s t a ho]
    exact ih hr

end

/-! ### Taking turns -/

section

variable [DecidableEq ι] (actor : α → ι) (op : α → β)

/-- What one of the actors did in a run. -/
def doneBy (i : ι) (steps : List α) : List β :=
  (steps.filter fun a => actor a = i).map op

variable {actor op}

theorem doneBy_cons_self (a : α) (steps : List α) :
    doneBy actor op (actor a) (a :: steps) = op a :: doneBy actor op (actor a) steps := by
  simp [doneBy]

theorem doneBy_cons_ne {i : ι} {a : α} (h : actor a ≠ i) (steps : List α) :
    doneBy actor op i (a :: steps) = doneBy actor op i steps := by
  simp [doneBy, h]

/-- Where a step moves the place of its own actor and of nobody else, and every actor does a walk,
each step of the run may be taken in the place its actor is in. -/
theorem allowed_of_walks {step : σ → α → σ} {ok : σ → α → Prop} {take : τ → β → Option τ}
    {place : σ → ι → τ}
    (hs : ∀ s a t, ok s a → take (place s (actor a)) (op a) = some t →
      place (step s a) = Function.update (place s) (actor a) t) :
    ∀ (steps : List α) (s : σ), Allowed step ok s steps →
      (∀ i, ∃ t, walk take (place s i) (doneBy actor op i steps) = some t) →
      Allowed step (fun s a => ∃ t, take (place s (actor a)) (op a) = some t) s steps := by
  intro steps
  induction steps with
  | nil => intro s _ _; trivial
  | cons a rest ih =>
    intro s hok hw
    obtain ⟨t', ho⟩ := hw (actor a)
    rw [doneBy_cons_self] at ho
    obtain ⟨t, ht, hr⟩ := walk_cons_eq_some.mp ho
    refine ⟨⟨t, ht⟩, ih _ hok.2 fun i => ?_⟩
    rw [hs s a t hok.1 ht]
    by_cases hi : actor a = i
    · subst hi
      rw [Function.update_self]
      exact ⟨t', hr⟩
    · rw [Function.update_of_ne (Ne.symm hi), ← doneBy_cons_ne hi]
      exact hw i

end

end Lib
