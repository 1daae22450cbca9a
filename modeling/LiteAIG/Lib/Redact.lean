/-
Replacing every occurrence of a word in a list, and what that leaves behind.

`replaceAll` is the left-to-right, non-overlapping replacement every string
library has.  Two things about it are needed.

  * If the replacement shares no element with the word, the word is gone from the
    result: `not_infix_replaceAll`.
  * After several replacements in a row, the letters that are left are the ones of
    the original list that no replacement touched.  `Redacted` states that: a mask
    has one entry for each original position, `some a` where the letter `a`
    survived and `none` where it was replaced, and the text is the mask with each
    replaced stretch filled by foreign letters.  Words made of letters that are
    not foreign occur in the text exactly where they occur in the mask.
-/
import LiteAIG.Lib.Run

namespace Lib

open List

section

variable {α : Type*} [DecidableEq α] {old new : List α}

/-- Replace from here on, after passing over `skip` elements of a match. -/
def replaceFrom (old new : List α) : Nat → List α → List α
  | _, [] => []
  | skip + 1, _ :: s => replaceFrom old new skip s
  | 0, a :: s =>
    if old <+: a :: s then new ++ replaceFrom old new (old.length - 1) s
    else a :: replaceFrom old new 0 s

/-- Every non-overlapping occurrence of `old`, from the left, becomes `new`. -/
def replaceAll (old new s : List α) : List α := replaceFrom old new 0 s

theorem replaceFrom_drop : ∀ (skip : Nat) (s : List α),
    replaceFrom old new skip s = replaceAll old new (s.drop skip) := by
  intro skip
  induction skip with
  | zero => intro s; rfl
  | succ skip ih =>
    intro s
    cases s with
    | nil => simp [replaceFrom, replaceAll]
    | cons a s => simp only [replaceFrom, drop_succ_cons, ih]

theorem replaceAll_match {old new s : List α} (hold : old ≠ []) (h : old <+: s) :
    replaceAll old new s = new ++ replaceAll old new (s.drop old.length) := by
  cases s with
  | nil => exact absurd (prefix_nil.mp h) hold
  | cons a s =>
    obtain ⟨n, hn⟩ : ∃ n, old.length = n + 1 :=
      Nat.exists_eq_succ_of_ne_zero fun hc => hold (length_eq_zero_iff.mp hc)
    have hs : replaceAll old new (a :: s) = new ++ replaceFrom old new (old.length - 1) s := by
      simp only [replaceAll, replaceFrom, if_pos h]
    rw [hs, replaceFrom_drop, hn, drop_succ_cons, Nat.add_sub_cancel]

theorem replaceAll_skip {a : α} {s : List α} (h : ¬ old <+: a :: s) :
    replaceAll old new (a :: s) = a :: replaceAll old new s := by
  simp only [replaceAll, replaceFrom, if_neg h]

theorem replaceAll_of_absent :
    ∀ (s : List α), ¬ old <:+: s → replaceAll old new s = s := by
  intro s
  induction s with
  | nil => intro _; rfl
  | cons a s ih =>
    intro h
    rw [infix_cons_iff, not_or] at h
    rw [replaceAll_skip h.1, ih h.2]

/-- The replacement walk, as an induction rule: a match is passed over in one go. -/
theorem replaceAll_induction {old : List α} (hold : old ≠ []) {P : List α → Prop}
    (hni : P []) (hm : ∀ s, old <+: s → P (s.drop old.length) → P s)
    (hs : ∀ a s, ¬ old <+: a :: s → P s → P (a :: s)) : ∀ s, P s := by
  intro s
  induction hl : s.length using Nat.strong_induction_on generalizing s with
  | _ n ih =>
    cases s with
    | nil => exact hni
    | cons a s =>
      by_cases h : old <+: a :: s
      · have hp : 0 < old.length := length_pos_of_ne_nil hold
        have hn : s.length + 1 = n := by simpa using hl
        exact hm _ h (ih _ (by simp only [length_drop, length_cons]; omega) _ rfl)
      · exact hs a s h (ih _ (by rw [← hl]; simp) _ rfl)

/-- A prefix of the result that holds no replacement letter was there before. -/
theorem prefix_of_prefix_replaceAll (hold : old ≠ []) (hn : new ≠ []) :
    ∀ (p s : List α), (∀ a ∈ p, a ∉ new) → p <+: replaceAll old new s → p <+: s := by
  intro p
  induction p with
  | nil => intro s _ _; exact nil_prefix
  | cons x p ih =>
    intro s hp h
    cases s with
    | nil => cases prefix_nil.mp h
    | cons a s =>
      by_cases hm : old <+: a :: s
      · rw [replaceAll_match hold hm] at h
        obtain ⟨y, ys, rfl⟩ := exists_cons_of_ne_nil hn
        rw [cons_append, cons_prefix_cons] at h
        exact absurd (by simp [h.1]) (hp x (by simp))
      · rw [replaceAll_skip hm, cons_prefix_cons] at h
        obtain ⟨rfl, h⟩ := h
        exact cons_prefix_cons.mpr
          ⟨rfl, ih s (fun b hb => hp b (mem_cons_of_mem _ hb)) h⟩

omit [DecidableEq α] in
/-- A word whose letters avoid `pre` and that occurs after it occurs in the rest. -/
theorem infix_append_of_disjoint {w : List α} (hw : w ≠ []) :
    ∀ (pre s : List α), (∀ a ∈ pre, a ∉ w) → (w <:+: pre ++ s ↔ w <:+: s) := by
  intro pre
  induction pre with
  | nil => intro s _; simp
  | cons b pre ih =>
    intro s hp
    rw [cons_append, infix_cons_iff, ih s fun a ha => hp a (by simp [ha])]
    refine ⟨?_, Or.inr⟩
    rintro (h | h)
    · obtain ⟨x, xs, rfl⟩ := exists_cons_of_ne_nil hw
      rw [cons_prefix_cons] at h
      exact absurd (by simp [h.1]) (hp b (by simp))
    · exact h

theorem replaceAll_append (hold : old ≠ []) :
    ∀ (pre s : List α), (∀ a ∈ pre, a ∉ old) →
      replaceAll old new (pre ++ s) = pre ++ replaceAll old new s := by
  intro pre
  induction pre with
  | nil => intro s _; rfl
  | cons b pre ih =>
    intro s hp
    have hs : ¬ old <+: b :: (pre ++ s) := by
      intro h
      obtain ⟨x, xs, rfl⟩ := exists_cons_of_ne_nil hold
      rw [cons_prefix_cons] at h
      exact hp b (by simp) (by simp [h.1])
    rw [cons_append, replaceAll_skip hs, ih s fun a ha => hp a (by simp [ha]),
      cons_append]

/-- The word is gone, when the replacement brings none of its letters back. -/
theorem not_infix_replaceAll (hold : old ≠ []) (hn : new ≠ []) (hd : ∀ a ∈ old, a ∉ new)
    (s : List α) : ¬ old <:+: replaceAll old new s := by
  refine replaceAll_induction (P := fun s => ¬ old <:+: replaceAll old new s) hold ?_ ?_ ?_ s
  · exact fun h => hold (infix_nil.mp h)
  · intro s hm ih
    rw [replaceAll_match hold hm,
      infix_append_of_disjoint hold new _ fun a ha hc => hd a hc ha]
    exact ih
  · intro a s hm ih
    rw [replaceAll_skip hm, infix_cons_iff]
    rintro (h | h)
    · have hs : replaceAll old new (a :: s) = a :: replaceAll old new s := replaceAll_skip hm
      rw [← hs] at h
      exact hm (prefix_of_prefix_replaceAll hold hn old _ hd h)
    · exact ih h

end

/-! ### Masks

A mask entry is `some a` for a letter that is still there and `none` for one that
has been replaced.  The filling of a replaced stretch is made of foreign letters,
and it is never empty: a match is never closed up.
-/

section

variable {α : Type*}

/-- The text is the mask with its replaced stretches filled by foreign letters. -/
inductive Redacted (foreign : α → Prop) : List (Option α) → List α → Prop
  | nil : Redacted foreign [] []
  | keep (a : α) {m : List (Option α)} {c : List α} (h : Redacted foreign m c) :
      Redacted foreign (some a :: m) (a :: c)
  | cut (n : Nat) (t : List α) {m : List (Option α)} {c : List α} (ht : t ≠ [])
      (hfor : ∀ a ∈ t, foreign a) (h : Redacted foreign m c) :
      Redacted foreign (List.replicate (n + 1) none ++ m) (t ++ c)

variable {foreign : α → Prop} {m : List (Option α)} {c : List α}

theorem Redacted.refl : ∀ c : List α, Redacted foreign (c.map some) c := by
  intro c
  induction c with
  | nil => exact .nil
  | cons a c ih => exact .keep a ih

theorem Redacted.append {m' : List (Option α)} {c' : List α} (h : Redacted foreign m c)
    (h' : Redacted foreign m' c') : Redacted foreign (m ++ m') (c ++ c') := by
  induction h with
  | nil => exact h'
  | keep a _ ih => exact .keep a ih
  | cut n t ht hf _ ih =>
    rw [append_assoc, append_assoc]
    exact .cut n t ht hf ih

variable {w : List α}

/-- A word without foreign letters starts the text where it starts the mask. -/
theorem Redacted.prefix_iff (hw : ∀ a ∈ w, ¬ foreign a) :
    Redacted foreign m c → (w <+: c ↔ w.map some <+: m) := by
  intro h
  induction w generalizing m c with
  | nil => simp
  | cons x w ih =>
    cases h with
    | nil => simp
    | keep a h =>
      rw [map_cons, cons_prefix_cons, cons_prefix_cons,
        ih (fun b hb => hw b (mem_cons_of_mem _ hb)) h, Option.some.injEq]
    | cut n t ht hf h =>
      obtain ⟨y, ys, rfl⟩ := exists_cons_of_ne_nil ht
      have hxy : x ≠ y := by
        rintro rfl
        exact hw x (by simp) (hf x (by simp))
      simp [replicate_succ, hxy]

theorem infix_replicate_none_append (hw : w ≠ []) (n : Nat) :
    w.map some <:+: List.replicate n none ++ m ↔ w.map some <:+: m := by
  refine infix_append_of_disjoint (by simpa using hw) _ _ ?_
  intro a ha
  rw [eq_of_mem_replicate ha]
  simp

/-- A word without foreign letters occurs in the text exactly when it occurs in the mask. -/
theorem Redacted.infix_iff (hne : w ≠ []) (hw : ∀ a ∈ w, ¬ foreign a) (h : Redacted foreign m c) :
    w <:+: c ↔ w.map some <:+: m := by
  induction h with
  | nil => simp
  | keep a h ih =>
    rw [infix_cons_iff, infix_cons_iff, ih, (Redacted.keep a h).prefix_iff hw]
  | cut n t ht hf h ih =>
    rw [infix_replicate_none_append hne, ← ih]
    exact infix_append_of_disjoint hne t _ fun a ha hc => hw a hc (hf a ha)

/-- Dropping a word that starts the text drops as much of the mask. -/
theorem Redacted.drop (hw : ∀ a ∈ w, ¬ foreign a) :
    Redacted foreign m c → w <+: c → Redacted foreign (m.drop w.length) (c.drop w.length) := by
  intro h
  induction w generalizing m c with
  | nil => intro _; exact h
  | cons x w ih =>
    intro hp
    cases h with
    | nil => simp at hp
    | keep a h =>
      rw [cons_prefix_cons] at hp
      exact ih (fun b hb => hw b (mem_cons_of_mem _ hb)) h hp.2
    | cut n t ht hf h =>
      obtain ⟨y, ys, rfl⟩ := exists_cons_of_ne_nil ht
      rw [cons_append, cons_prefix_cons] at hp
      exact absurd (hf y (by simp)) (by rw [← hp.1]; exact hw x (by simp))

/-- The second mask replaces at least what the first one does. -/
def Refines (m m' : List (Option α)) : Prop :=
  List.Forall₂ (fun x y => y = x ∨ y = none) m m'

theorem Refines.refl (m : List (Option α)) : Refines m m :=
  forall₂_same.mpr fun _ _ => Or.inl rfl

theorem Refines.trans {m₁ m₂ m₃ : List (Option α)} (h₁ : Refines m₁ m₂) (h₂ : Refines m₂ m₃) :
    Refines m₁ m₃ := by
  induction h₁ generalizing m₃ with
  | nil => exact h₂
  | cons hxy h ih =>
    cases h₂ with
    | cons hyz h₂ =>
      refine .cons ?_ (ih h₂)
      rcases hyz with rfl | rfl
      · exact hxy
      · exact Or.inr rfl

theorem Refines.append {m₁ m₁' m₂ m₂' : List (Option α)} (h₁ : Refines m₁ m₁')
    (h₂ : Refines m₂ m₂') : Refines (m₁ ++ m₂) (m₁' ++ m₂') :=
  rel_append h₁ h₂

theorem refines_replicate_none (m : List (Option α)) :
    Refines m (List.replicate m.length none) := by
  induction m with
  | nil => exact .nil
  | cons x m ih => exact .cons (Or.inr rfl) ih

/-- Letters a finer mask still shows are the letters the coarser one shows there. -/
theorem Refines.split {m pre' post' : List (Option α)}
    (h : Refines m (pre' ++ (w.map some ++ post'))) :
    ∃ pre post, m = pre ++ (w.map some ++ post) ∧ pre.length = pre'.length := by
  have hm := forall₂_take_append _ _ _ (forall₂_drop_append _ _ _ h)
  have hle : pre'.length ≤ m.length := by rw [h.length_eq]; simp
  have heq : ∀ (l : List (Option α)) (v : List α), Refines l (v.map some) → l = v.map some := by
    intro l v hl
    rw [← forall₂_eq_eq_eq, forall₂_map_right_iff]
    exact (forall₂_map_right_iff.mp hl).imp fun x a h => by simpa [eq_comm] using h
  refine ⟨m.take pre'.length, (m.drop pre'.length).drop (w.map some).length, ?_, by simp [hle]⟩
  conv_lhs => rw [← take_append_drop pre'.length m,
    ← take_append_drop (w.map some).length (m.drop pre'.length)]
  rw [heq _ _ hm]

/-- A replacement in the finer mask cannot make a word appear. -/
theorem Refines.occurs {m m' : List (Option α)} (h : Refines m m') (hw : w.map some <:+: m') :
    w.map some <:+: m := by
  obtain ⟨pre', post', rfl⟩ := hw
  rw [append_assoc] at h
  obtain ⟨pre, post, rfl, -⟩ := h.split
  exact ⟨pre, post, by rw [append_assoc]⟩

/-- Some position of the stretch of length `n` at `i` has been replaced. -/
def Struck (m : List (Option α)) (i n : Nat) : Prop :=
  ∃ q, i ≤ q ∧ q < i + n ∧ m[q]? = some none

/-- An occurrence no position of which was replaced shows in the mask at its place. -/
theorem Refines.untouched {pre w post : List α} (h : Refines ((pre ++ (w ++ post)).map some) m)
    (hs : ¬ Struck m pre.length w.length) :
    m = m.take pre.length ++ (w.map some ++ m.drop (pre.length + w.length)) := by
  have hl : pre.length + (w.length + post.length) = m.length := by
    rw [← h.length_eq]; simp
  have hm : (m.drop pre.length).take w.length = w.map some := by
    refine ext_getElem? fun i => ?_
    by_cases hi : i < w.length
    · rw [List.getElem?_take_of_lt hi, List.getElem?_drop, List.getElem?_map]
      have hget : pre.length + i < m.length := by omega
      have hr := List.Forall₂.get h (i := pre.length + i) (by simp; omega) hget
      simp only [get_eq_getElem, getElem_map] at hr
      rw [getElem_append_right (by omega),
        getElem_append_left (by omega : pre.length + i - pre.length < w.length)] at hr
      rw [List.getElem?_eq_getElem hget, List.getElem?_eq_getElem hi, Option.map_some]
      rcases hr with hr | hr
      · simpa using hr
      · refine absurd ⟨pre.length + i, by omega, by omega, ?_⟩ hs
        rw [List.getElem?_eq_getElem hget, hr]
    · rw [List.getElem?_eq_none (by simp; omega), List.getElem?_eq_none (by simp; omega)]
  rw [← hm, ← drop_drop, take_append_drop, take_append_drop]

/-- A word shows in the mask exactly when some occurrence of it in the text is untouched. -/
theorem Refines.infix_iff {text w : List α} (h : Refines (text.map some) m) :
    w.map some <:+: m ↔
      ∃ pre post, text = pre ++ (w ++ post) ∧ ¬ Struck m pre.length w.length := by
  constructor
  · rintro ⟨pre', post', rfl⟩
    rw [append_assoc] at h ⊢
    obtain ⟨pre, post, ht, hl⟩ := h.split
    obtain ⟨p, rest, rfl, rfl, hr⟩ := map_eq_append_iff.mp ht
    obtain ⟨v, q, rfl, hv, rfl⟩ := map_eq_append_iff.mp hr
    have hvw : v = w := map_injective_iff.mpr (Option.some_injective α) hv
    subst hvw
    refine ⟨p, q, rfl, ?_⟩
    rw [length_map] at hl
    rintro ⟨k, hlo, hhi, hk⟩
    rw [List.getElem?_append_right (by omega), List.getElem?_append_left (by simp; omega)] at hk
    simp at hk
  · rintro ⟨pre, post, rfl, hs⟩
    exact ⟨_, _, by rw [append_assoc]; exact (h.untouched hs).symm⟩

end

/-! ### Text in parts -/

section

variable {α : Type*}

/-- A stretch of length `n` at `i` runs across a border between two parts. -/
def Straddles (lengths : List Nat) (i n : Nat) : Prop :=
  ∃ pre post, lengths = pre ++ post ∧ i < pre.sum ∧ pre.sum < i + n

/-- What does not run across a border lies inside one of the parts. -/
theorem infix_part_of_not_straddles {w : List α} (hw : w ≠ []) :
    ∀ (parts : List (List α)) (pre post : List α), parts.flatten = pre ++ (w ++ post) →
      ¬ Straddles (parts.map List.length) pre.length w.length → ∃ part ∈ parts, w <:+: part := by
  have hpo : 0 < w.length := length_pos_of_ne_nil hw
  intro parts
  induction parts with
  | nil =>
    intro pre post h _
    have hle := congrArg List.length h
    simp only [flatten_nil, length_nil, length_append] at hle
    omega
  | cons part rest ih =>
    intro pre post h hno
    rw [flatten_cons] at h
    by_cases hin : pre.length + w.length ≤ part.length
    · -- the occurrence ends inside the first part
      refine ⟨part, mem_cons_self, ?_⟩
      have hp : pre ++ w <+: part := by
        have hwh : pre ++ w <+: part ++ rest.flatten := ⟨post, by rw [h, append_assoc]⟩
        exact prefix_of_prefix_length_le hwh (prefix_append _ _) (by simpa using hin)
      exact (suffix_append pre w).isInfix.trans hp.isInfix
    · by_cases ho : part.length ≤ pre.length
      · -- it starts after the first part
        have hwh : pre <+: part ++ rest.flatten := ⟨w ++ post, h.symm⟩
        obtain ⟨pre', rfl⟩ :=
          prefix_of_prefix_length_le (prefix_append _ _) hwh ho
        rw [append_assoc, append_cancel_left_eq] at h
        obtain ⟨v, hv, hm⟩ := ih pre' post h fun ⟨l, r, hl, hlo, hhi⟩ => hno
          ⟨part.length :: l, r, by simp [hl], by simp; omega, by simp; omega⟩
        exact ⟨v, mem_cons_of_mem _ hv, hm⟩
      · exact absurd ⟨[part.length], rest.map List.length, rfl, by simp; omega, by simp; omega⟩ hno

end

/-! ### Masking a word -/

section

variable {α : Type*} [DecidableEq α]

/-- Replace every occurrence of `w` in the mask by replaced positions. -/
def maskWord (w : List α) (m : List (Option α)) : List (Option α) :=
  replaceAll (w.map some) (List.replicate w.length none) m

/-- Masking a word in the mask is replacing it in the text. -/
theorem Redacted.replace {foreign : α → Prop} {w new : List α} (hne : w ≠ [])
    (hw : ∀ a ∈ w, ¬ foreign a) (hnew : new ≠ []) (hfo : ∀ a ∈ new, foreign a) :
    ∀ {m : List (Option α)} {c : List α}, Redacted foreign m c →
      Redacted foreign (maskWord w m) (replaceAll w new c) := by
  intro m c
  have hn : w.map some ≠ [] := by simpa using hne
  induction hl : c.length using Nat.strong_induction_on generalizing m c with
  | _ n ih =>
    intro h
    cases h with
    | nil => exact .nil
    | keep a h =>
      rename_i m c
      have hk := Redacted.keep a h
      by_cases hm : w <+: a :: c
      · -- a match: the mask has it too, and both drop it whole
        have hm' : w.map some <+: some a :: m := (hk.prefix_iff hw).mp hm
        obtain ⟨k, hk'⟩ : ∃ k, w.length = k + 1 :=
          Nat.exists_eq_succ_of_ne_zero fun hc => hne (length_eq_zero_iff.mp hc)
        unfold maskWord
        rw [replaceAll_match hne hm, replaceAll_match hn hm', length_map, hk']
        refine .cut k new hnew hfo ?_
        rw [← hk']
        refine ih _ ?_ rfl (hk.drop hw hm)
        rw [length_drop, hl]
        have : 0 < n := by rw [← hl]; simp
        omega
      · have hm' : ¬ w.map some <+: some a :: m := fun hc => hm ((hk.prefix_iff hw).mpr hc)
        unfold maskWord
        rw [replaceAll_skip hm, replaceAll_skip hm']
        exact .keep a (ih _ (by rw [← hl]; simp) rfl h)
    | cut k t ht hf h =>
      rename_i m c
      unfold maskWord
      rw [replaceAll_append hne t _ fun a ha hc => hw a hc (hf a ha),
        replaceAll_append hn _ _ (by
          intro a ha hc
          rw [eq_of_mem_replicate ha] at hc
          simp at hc)]
      refine .cut k t ht hf (ih _ ?_ rfl h)
      have : 0 < t.length := length_pos_of_ne_nil ht
      rw [← hl, length_append]
      omega

theorem not_infix_maskWord {w : List α} (hne : w ≠ []) (m : List (Option α)) :
    ¬ w.map some <:+: maskWord w m := by
  refine not_infix_replaceAll (by simpa using hne) (by simpa using hne) ?_ m
  intro a ha hc
  rw [eq_of_mem_replicate hc] at ha
  simp at ha

theorem refines_maskWord {w : List α} (hne : w ≠ []) (m : List (Option α)) :
    Refines m (maskWord w m) := by
  have hn : w.map some ≠ [] := by simpa using hne
  refine replaceAll_induction (P := fun m => Refines m (maskWord w m)) hn ?_ ?_ ?_ m
  · exact .nil
  · intro s hm ih
    unfold maskWord at ih ⊢
    rw [replaceAll_match hn hm]
    obtain ⟨rest, rfl⟩ := hm
    rw [drop_left] at ih ⊢
    refine Refines.append ?_ ih
    simpa using refines_replicate_none (w.map some)
  · intro x s hm ih
    unfold maskWord at ih ⊢
    rw [replaceAll_skip hm]
    exact .cons (Or.inl rfl) ih

end

end Lib
