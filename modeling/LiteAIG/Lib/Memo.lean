/-
Values that are made once and kept under a key.

A call has a key, if it is accepted at all.  The first call with a key that can make
its value leaves it for all later ones.  Whether a call is given the value it would
have made depends on what the key says about it, and on nothing else: `allFit_iff`
says that every call of a sequence gets what it wants exactly if no two calls under
one key want different things.
-/
import LiteAIG.Lib.Assoc
import LiteAIG.Lib.Run

namespace Lib

open List

section

variable {α κ β γ : Type} [DecidableEq κ] (key : α → Option κ) (make : α → Option β)
  (values : Assoc κ β)

/-- What a call is given, and the values after it. -/
def memo (a : α) : Option β × Assoc κ β :=
  match key a with
  | none => (none, values)
  | some k =>
    match values.lookup k with
    | some b => (some b, values)
    | none =>
      match make a with
      | none => (none, values)
      | some b => (some b, values.insert k b)

def memoStep (a : α) : Assoc κ β := (memo key make values a).2

/-- The first value that was made under a key. -/
def firstMade (history : List α) (k : κ) : Option β :=
  history.findSome? fun a => if key a = some k then make a else none

variable {key make} {hi : List α} {k : κ} {a : α}

theorem lookup_memoStep :
    (memoStep key make values a).lookup k
      = (values.lookup k).or (if key a = some k then make a else none) := by
  unfold memoStep memo
  cases hke : key a with
  | none => simp
  | some k' =>
    by_cases hk : k' = k
    · subst hk
      cases hl : values.lookup k' with
      | some b => simp [hl]
      | none => cases hm : make a <;> simp [hl]
    · have hne : k ≠ k' := fun h => hk h.symm
      cases hl : values.lookup k' with
      | some b => simp [hl, hk]
      | none => cases hm : make a <;> simp [hl, hk, Assoc.lookup_insert_ne hne]

theorem lookup_memo_run (k : κ) : ∀ (hi : List α) (values : Assoc κ β),
    (run (memoStep key make) values hi).lookup k
      = (values.lookup k).or (firstMade key make hi k) := by
  intro hi
  induction hi with
  | nil => intro values; simp [firstMade]
  | cons a rest ih =>
    intro values
    rw [run_cons, ih, lookup_memoStep, Option.or_assoc]
    congr 1
    unfold firstMade
    rw [List.findSome?_cons]
    cases (if key a = some k then make a else none) <;> rfl

/-- A call after a history is given what was made first, or else makes its own. -/
theorem memo_answer (hk : key a = some k) (hi : List α) :
    (memo key make (run (memoStep key make) .empty hi) a).1
      = (firstMade key make hi k).or (make a) := by
  have hl : (run (memoStep key make) .empty hi).lookup k = firstMade key make hi k := by
    rw [lookup_memo_run, Assoc.lookup_empty, Option.none_or]
  unfold memo
  rw [hk]
  simp only [hl]
  cases firstMade key make hi k with
  | some b => rfl
  | none => cases make a <;> rfl

theorem memo_refused (hk : key a = none) (values : Assoc κ β) :
    (memo key make values a).1 = none := by
  simp [memo, hk]

theorem firstMade_some {b : β} (h : firstMade key make hi k = some b) :
    ∃ a ∈ hi, key a = some k ∧ make a = some b := by
  obtain ⟨a, ha, hb⟩ := exists_of_findSome?_eq_some h
  split at hb
  · rename_i hk
    exact ⟨a, ha, hk, hb⟩
  · cases hb

theorem firstMade_ne_none (ha : a ∈ hi) (hk : key a = some k) (hm : make a ≠ none) :
    firstMade key make hi k ≠ none := by
  intro hn
  have ht := List.findSome?_eq_none_iff.mp hn a ha
  rw [if_pos hk] at ht
  exact hm ht

/-! ### What a call wants -/

variable (key make) (fits : β → α → Prop)

/-- A call after a history that is given a value is given one that fits it. -/
def Fits (history : List α) (a : α) : Prop :=
  ∀ b, (memo key make (run (memoStep key make) .empty history) a).1 = some b → fits b a

/-- That holds of every call of the history. -/
def AllFit (history : List α) : Prop :=
  ∀ before a after, history = before ++ a :: after → Fits key make fits before a

variable {key make}

theorem allFit_append {fits : β → α → Prop} :
    AllFit key make fits (hi ++ [a]) ↔
      AllFit key make fits hi ∧ Fits key make fits hi a := by
  constructor
  · intro h
    refine ⟨fun before x after hs => h before x (after ++ [a]) (by simp [hs]), ?_⟩
    exact h hi a [] rfl
  · rintro ⟨ha, hl⟩ before x after hs
    cases after using List.reverseRecOn with
    | nil =>
      obtain ⟨rfl, hx⟩ := append_inj' hs rfl
      obtain rfl := List.cons.inj hx |>.1
      exact hl
    | append_singleton after y =>
      rw [← cons_append, ← append_assoc] at hs
      exact ha before x after (append_inj' hs rfl).1

/-- If the first call can make a value and the second has its key, they want the same. -/
def Agree (key : α → Option κ) (make : α → Option β) (want : α → γ) (a a' : α) : Prop :=
  make a ≠ none → ∀ k, key a = some k → key a' = some k → want a = want a'

section

variable {got : β → γ} {want : α → γ}

omit [DecidableEq κ] in
/-- Of two calls that can make a value the order does not matter. -/
theorem Agree.of_pairwise (h : hi.Pairwise (Agree key make want)) {a a' : α} (ha : a ∈ hi)
    (ha' : a' ∈ hi) (hma : make a ≠ none) (hm : make a' ≠ none) (hke : key a = some k)
    (hk : key a' = some k) : want a = want a' := by
  let Both (x y : α) : Prop := make x ≠ none → make y ≠ none → ∀ k, key x = some k →
    key y = some k → want x = want y
  have hb : hi.Pairwise Both := h.imp fun hag hx _ => hag hx
  have hs : Std.Symm Both := ⟨fun x y hxy hy hx k hky hkx => (hxy hx hy k hkx hky).symm⟩
  exact List.Pairwise.forall_of_forall (fun _ _ _ _ _ _ _ => rfl) hb ha ha' hma hm k
    hke hk

theorem fits_iff (hg : ∀ a b, make a = some b → got b = want a)
    (h : hi.Pairwise (Agree key make want)) (a : α) :
    Fits key make (fun b a => got b = want a) hi a ↔
      ∀ x ∈ hi, Agree key make want x a := by
  constructor
  · intro hfit x hx hm k hke hk
    obtain ⟨b, hfi⟩ := Option.ne_none_iff_exists'.mp (firstMade_ne_none hx hke hm)
    obtain ⟨f, hf, hfk, hfm⟩ := firstMade_some hfi
    have hb : got b = want a := hfit b (by rw [memo_answer hk, hfi, Option.some_or])
    calc want x = want f :=
          Agree.of_pairwise h hx hf hm (by simp [hfm]) hke hfk
      _ = got b := (hg f b hfm).symm
      _ = want a := hb
  · intro hag b ha
    cases hke : key a with
    | none =>
      rw [memo_refused hke] at ha
      cases ha
    | some k =>
      rw [memo_answer hke] at ha
      rcases Option.or_eq_some_iff.mp ha with hfi | ⟨-, ho⟩
      · obtain ⟨f, hf, hfk, hfm⟩ := firstMade_some hfi
        exact (hg f b hfm).trans (hag f hf (by simp [hfm]) k hfk hke)
      · exact hg a b ho

/-- **What a key has to say.**  All calls are given what they want exactly if a call that can make
a value and a later one with the same key want the same. -/
theorem allFit_iff (hg : ∀ a b, make a = some b → got b = want a) (hi : List α) :
    AllFit key make (fun b a => got b = want a) hi ↔
      hi.Pairwise (Agree key make want) := by
  induction hi using List.reverseRecOn with
  | nil =>
    refine iff_of_true ?_ List.Pairwise.nil
    intro before a after hs
    simp at hs
  | append_singleton hi a ih =>
    rw [allFit_append, ih, pairwise_append]
    simp only [mem_singleton, forall_eq, pairwise_singleton, true_and]
    exact and_congr_right fun h => fits_iff hg h a

end

end

end Lib
