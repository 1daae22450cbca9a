/-
Finite maps as lists of pairs with distinct keys.

An entry that is set goes to the end, whether it is new or not.  Nothing below
depends on the order; it is what lets a map be walked.
-/
import Mathlib

namespace Lib

open List

structure Assoc (κ β : Type) where
  entries : List (κ × β)
  nodup : (entries.map Prod.fst).Nodup
  deriving DecidableEq

namespace Assoc

variable {κ β : Type} [DecidableEq κ] {m : Assoc κ β} {k : κ} {v : β}

def empty : Assoc κ β := ⟨[], List.nodup_nil⟩

def lookup (m : Assoc κ β) (k : κ) : Option β :=
  (m.entries.find? (·.1 = k)).map Prod.snd

/-- Set the value under a key. -/
def insert (m : Assoc κ β) (k : κ) (v : β) : Assoc κ β where
  entries := m.entries.filter (·.1 ≠ k) ++ [(k, v)]
  nodup := by
    rw [List.map_append, List.nodup_append]
    refine ⟨m.nodup.sublist (List.filter_sublist.map _), by simp, ?_⟩
    intro a ha b hb
    obtain ⟨e, he, rfl⟩ := List.mem_map.mp ha
    rw [List.mem_singleton.mp hb]
    simpa using (List.mem_filter.mp he).2

def erase (m : Assoc κ β) (k : κ) : Assoc κ β where
  entries := m.entries.filter (·.1 ≠ k)
  nodup := m.nodup.sublist (List.filter_sublist.map _)

/-- Keep the entries whose value passes. -/
def filter (m : Assoc κ β) (p : β → Bool) : Assoc κ β where
  entries := m.entries.filter (p ·.2)
  nodup := m.nodup.sublist (List.filter_sublist.map _)

/-- Change every value. -/
def map {γ : Type} (m : Assoc κ β) (f : β → γ) : Assoc κ γ where
  entries := m.entries.map fun e => (e.1, f e.2)
  nodup := by
    rw [List.map_map]
    exact m.nodup

@[simp, grind =] theorem lookup_empty (k : κ) : (empty : Assoc κ β).lookup k = none := rfl

theorem lookup_eq_none : m.lookup k = none ↔ ∀ e ∈ m.entries, e.1 ≠ k := by
  simp [lookup]

theorem mem_of_lookup (h : m.lookup k = some v) :
    (k, v) ∈ m.entries := by
  obtain ⟨e, he, rfl⟩ := Option.map_eq_some_iff.mp h
  have hk : e.1 = k := by simpa using List.find?_some he
  rw [← hk]
  exact mem_of_find?_eq_some he

theorem lookup_of_mem {e : κ × β} (he : e ∈ m.entries) : m.lookup e.1 = some e.2 := by
  cases hl : m.lookup e.1 with
  | none => exact absurd rfl (lookup_eq_none.mp hl e he)
  | some v =>
    unfold lookup at hl
    obtain ⟨x, hx, rfl⟩ := Option.map_eq_some_iff.mp hl
    have hm := mem_of_find?_eq_some hx
    have hk : x.1 = e.1 := by simpa using List.find?_some hx
    rw [inj_on_of_nodup_map m.nodup hm he hk]

theorem lookup_eq_some : m.lookup k = some v ↔ (k, v) ∈ m.entries :=
  ⟨mem_of_lookup, lookup_of_mem⟩

@[simp] theorem lookup_insert_self : (m.insert k v).lookup k = some v := by
  simp [lookup_eq_some, insert]

@[simp] theorem lookup_insert_ne {k' : κ} (h : k' ≠ k) :
    (m.insert k v).lookup k' = m.lookup k' := by
  ext x
  simp [lookup_eq_some, insert, h]

@[grind =] theorem lookup_insert (j : κ) :
    (m.insert k v).lookup j = if j = k then some v else m.lookup j := by
  by_cases h : j = k
  · simp [h]
  · simp [h]

theorem lookup_insert_eq_update :
    (m.insert k v).lookup = Function.update m.lookup k (some v) := by
  funext j
  rw [lookup_insert, Function.update_apply]

@[simp, grind =] theorem lookup_map {γ : Type} (f : β → γ) :
    (m.map f).lookup k = (m.lookup k).map f := by
  simp only [lookup, map, List.find?_map, Option.map_map]
  rfl

/-- A value that is filtered out is no longer there: its key had no other. -/
@[grind =] theorem lookup_filter (p : β → Bool) :
    (m.filter p).lookup k = (m.lookup k).filter p := by
  ext v
  simp [lookup_eq_some, filter, Option.filter_eq_some_iff]

@[simp] theorem lookup_erase_self : (m.erase k).lookup k = none := by
  simp [lookup_eq_none, erase]

@[simp] theorem lookup_erase_ne {k' : κ} (h : k' ≠ k) :
    (m.erase k).lookup k' = m.lookup k' := by
  ext x
  simp [lookup_eq_some, erase, h]

@[grind =] theorem lookup_erase (j : κ) :
    (m.erase k).lookup j = if j = k then none else m.lookup j := by
  by_cases h : j = k
  · simp [h]
  · simp [h]

theorem lookup_insert_some {k j : κ} {v x : β} (h : (m.insert k v).lookup j = some x) :
    j = k ∧ x = v ∨ j ≠ k ∧ m.lookup j = some x := by
  grind

theorem lookup_erase_some {k j : κ} {x : β} (h : (m.erase k).lookup j = some x) :
    j ≠ k ∧ m.lookup j = some x := by
  grind

/-- Distinct keys that are all there are no more than the entries. -/
theorem length_le_of_lookup {keys : List κ} (hnd : keys.Nodup)
    (h : ∀ k ∈ keys, ∃ v, m.lookup k = some v) : keys.length ≤ m.entries.length := by
  have hs : keys ⊆ m.entries.map Prod.fst := by
    intro k hk
    obtain ⟨v, hv⟩ := h k hk
    exact mem_map.mpr ⟨(k, v), mem_of_lookup hv, rfl⟩
  simpa using (hnd.subperm hs).length_le

/-- An entry that neither is nor was one of those picked leaves them as they are. -/
theorem filter_values_insert {p : β → Bool} (hv : p v = false)
    (hold : ∀ old, m.lookup k = some old → p old = false) :
    ((m.insert k v).entries.map Prod.snd).filter p = (m.entries.map Prod.snd).filter p := by
  have hke : (m.entries.filter (·.1 ≠ k)).filter (p ∘ Prod.snd) =
    m.entries.filter (p ∘ Prod.snd) := by
    rw [filter_filter]
    refine filter_congr ?_
    intro e he
    by_cases hk : e.1 = k
    · simp [hold e.2 (hk ▸ lookup_of_mem he)]
    · simp [hk]
  have hn : [v].filter p = [] := by simp [hv]
  show ((m.entries.filter (·.1 ≠ k) ++ [(k, v)]).map Prod.snd).filter p = _
  rw [map_append, filter_append, map_singleton, hn, append_nil,
    filter_map, hke, filter_map]

/-! ### Sums over the values -/

section

variable {M : Type*} [AddCommMonoid M] (f : β → M)

def sum (m : Assoc κ β) : M := (m.entries.map fun e => f e.2).sum

theorem sum_insert : (m.insert k v).sum f = (m.erase k).sum f + f v := by
  simp [sum, insert, erase]

theorem sum_erase_none (h : m.lookup k = none) :
    (m.erase k).sum f = m.sum f := by
  have hk : m.entries.filter (·.1 ≠ k) = m.entries := by
    rw [filter_eq_self]
    intro e he
    simpa using lookup_eq_none.mp h e he
  show ((m.entries.filter (·.1 ≠ k)).map fun e => f e.2).sum = _
  rw [hk]
  rfl

theorem sum_erase_some (h : m.lookup k = some v) :
    (m.erase k).sum f + f v = m.sum f := by
  have hnd := List.Nodup.of_map _ m.nodup
  have hm := mem_of_lookup h
  have hp : m.entries.Perm ((k, v) :: m.entries.filter (·.1 ≠ k)) := by
    refine (perm_ext_iff_of_nodup hnd (nodup_cons.mpr ⟨by simp, hnd.filter _⟩)).mpr ?_
    intro e
    have hk : e ∈ m.entries → e.1 = k → e = (k, v) := fun he =>
      inj_on_of_nodup_map m.nodup he hm
    by_cases he : e = (k, v)
    · simp [he, hm]
    · simpa [he] using fun hin hc => he (hk hin hc)
  rw [add_comm]
  exact (hp.map fun e => f e.2).sum_eq.symm

theorem sum_eq_zero (h : ∀ k v, m.lookup k = some v → f v = 0) : m.sum f = 0 := by
  unfold sum
  rw [map_congr_left fun e he => h e.1 e.2 (lookup_of_mem he), map_const']
  simp

end

end Assoc

end Lib
