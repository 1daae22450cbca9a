/-
Facts about lists that several models lean on.

A log is a list whose entries are told apart by some key.  What is summed over it
changes by one term when one entry changes, and it is the sum over the keys of what
is summed over the entries with each key.
-/
import Mathlib

namespace Lib

open List

variable {α κ M : Type*} {l : List α} {R : α → α → Prop} {p : α → Bool} {keys : List κ}

/-- Entries with distinct keys are the same entry when they have the same key. -/
theorem eq_of_pairwise (hs : ∀ a b, R a b → R b a) (h : l.Pairwise fun a b => ¬ R a b) {a b : α}
    (ha : a ∈ l) (hb : b ∈ l) (hR : R a b) :
    a = b := by
  by_contra hne
  have : Std.Symm fun a b => ¬ R a b := ⟨fun x y hxy hc => hxy (hs y x hc)⟩
  exact List.Pairwise.forall h ha hb hne hR

/-- A search for what only one entry can be finds that entry. -/
theorem find_eq_some_of_unique (hu : ∀ a ∈ l, ∀ b ∈ l, p a → p b → a = b) {a : α} :
    l.find? p = some a ↔ a ∈ l ∧ p a := by
  constructor
  · intro h
    exact ⟨mem_of_find?_eq_some h, List.find?_some h⟩
  · rintro ⟨ha, hp⟩
    obtain ⟨b, hb⟩ := Option.isSome_iff_exists.mp (List.find?_isSome.mpr ⟨a, ha, hp⟩)
    rw [hb, hu b (mem_of_find?_eq_some hb) a ha (List.find?_some hb) hp]

/-- A sum over a log after one entry was changed. -/
theorem sum_map_change [AddCommGroup M] (f : α → M) (g : α → α) {e : α} (hme : e ∈ l)
    (hs : ∀ a b, R a b → R b a) (hd : l.Pairwise fun a b => ¬ R a b)
    (ho : ∀ a ∈ l, ¬ R a e → g a = a) :
    ((l.map g).map f).sum = (l.map f).sum + (f (g e) - f e) := by
  obtain ⟨pre, post, rfl⟩ := append_of_mem hme
  rw [pairwise_append, pairwise_cons] at hd
  obtain ⟨-, ⟨hp, -⟩, hpr⟩ := hd
  have hk : ∀ m : List α, (∀ a ∈ m, a ∈ pre ++ e :: post ∧ ¬ R a e) → m.map g = m := by
    intro m hm
    rw [map_congr_left fun a ha => ho a (hm a ha).1 (hm a ha).2, map_id']
  have h₁ : pre.map g = pre := hk pre fun a ha =>
    ⟨mem_append_left _ ha, hpr a ha e mem_cons_self⟩
  have h₂ : post.map g = post := hk post fun a ha =>
    ⟨mem_append_right _ (mem_cons_of_mem _ ha), fun hc => hp a ha (hs _ _ hc)⟩
  rw [map_append, map_cons, h₁, h₂]
  simp only [map_append, map_cons, sum_append, sum_cons]
  abel

theorem sum_map_ite_eq [DecidableEq κ] [AddCommMonoid M] (hke : keys.Nodup) {k : κ}
    (hk : k ∈ keys) (x : M) : (keys.map fun k' => if k = k' then x else 0).sum = x := by
  rw [← sum_toFinset _ hke, Finset.sum_ite_eq, if_pos (mem_toFinset.mpr hk)]

/-- What counts for nothing can be left out of a sum. -/
theorem sum_map_filter [AddCommMonoid M] {f : α → M}
    (h : ∀ a ∈ l, p a = false → f a = 0) : ((l.filter p).map f).sum = (l.map f).sum := by
  have hz : ((l.filter fun a => ¬ p a).map f).sum = 0 := by
    refine sum_eq_zero fun x hx => ?_
    obtain ⟨a, ha, rfl⟩ := mem_map.mp hx
    obtain ⟨hm, hp⟩ := mem_filter.mp ha
    exact h a hm (by simpa using hp)
  rw [← sum_map_filter_add_sum_map_filter_not (p ·) f l, hz, add_zero]
  simp

theorem flatMap_filter {β : Type*} {f : α → List β}
    (h : ∀ a ∈ l, p a = false → f a = []) : (l.filter p).flatMap f = l.flatMap f := by
  induction l with
  | nil => rfl
  | cons a rest ih =>
    have hr := ih fun a ha => h a (mem_cons_of_mem _ ha)
    cases hp : p a with
    | true => simp [hp, hr]
    | false => simp [hp, hr, h a mem_cons_self hp]

/-- A sum over a log, key by key. -/
theorem sum_by_key [DecidableEq κ] [AddCommMonoid M] (key : α → κ) (f : α → M)
    (hke : keys.Nodup) : ∀ l : List α, (∀ a ∈ l, key a ∈ keys) →
      (keys.map fun k => ((l.filter fun a => key a = k).map f).sum).sum = (l.map f).sum := by
  intro l
  induction l with
  | nil => intro _; simp
  | cons a rest ih =>
    intro h
    -- Each entry counts under one key.
    have hc : ∀ k, (((a :: rest).filter fun a => key a = k).map f).sum
        = (if key a = k then f a else 0) + ((rest.filter fun a => key a = k).map f).sum := by
      intro k
      by_cases hk : key a = k
      · simp [hk]
      · simp [hk]
    simp only [hc, sum_map_add, map_cons, sum_cons]
    rw [sum_map_ite_eq hke (h a mem_cons_self),
      ih fun a' ha' => h a' (mem_cons_of_mem _ ha')]

end Lib
