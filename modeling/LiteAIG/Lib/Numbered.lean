/-
Rows that are numbered, and the newest of them.

The newest row is the one with the highest number, and a row that gets the number
after it is the newest in turn.
-/
import Mathlib

namespace Lib

open List

variable {α κ : Type*} (number : α → Int)

/-- The row with the higher number; the first where they are the same. -/
def newer (best : Option α) (row : α) : Option α :=
  match best with
  | none => some row
  | some old => if number old < number row then some row else some old

variable (rows : List α)

/-- The row with the highest number. -/
def newest : Option α := rows.foldl (newer number) none

/-- The number after the highest one; the first is 1. -/
def nextNumber : Int := ((newest number rows).map number).getD 0 + 1

variable {number} {rows : List α} {row : α}

theorem newest_append_singleton (row : α) :
    newest number (rows ++ [row]) = newer number (newest number rows) row := by
  simp [newest, foldl_append]

theorem newest_eq_argmax : newest number rows = rows.argmax number := by
  unfold newest List.argmax
  congr
  funext best row
  cases best <;> rfl

theorem newest_eq_none : newest number rows = none ↔ rows = [] := by
  rw [newest_eq_argmax, argmax_eq_none]

/-- The newest row is one of the rows, and none has a higher number. -/
theorem newest_spec (h : newest number rows = some row) :
    row ∈ rows ∧ ∀ r ∈ rows, number r ≤ number row := by
  rw [newest_eq_argmax] at h
  exact ⟨argmax_mem h, fun r hr => le_of_mem_argmax hr h⟩

theorem lt_nextNumber (h : row ∈ rows) :
    number row < nextNumber number rows := by
  cases hb : newest number rows with
  | none =>
    rw [newest_eq_none.mp hb] at h
    exact absurd h not_mem_nil
  | some best =>
    have hle := (newest_spec hb).2 row h
    simp only [nextNumber, hb, Option.map_some, Option.getD_some]
    omega

theorem newest_append_of_lt (h : ∀ r ∈ rows, number r < number row) :
    newest number (rows ++ [row]) = some row := by
  rw [newest_append_singleton]
  cases hb : newest number rows with
  | none => rfl
  | some best => simp [newer, h best (newest_spec hb).1]

theorem newest_append_next (h : number row = nextNumber number rows) :
    newest number (rows ++ [row]) = some row :=
  newest_append_of_lt fun _ hr => h ▸ lt_nextNumber hr

/-- Of the rows that are fetched key by key, those with one key are the one fetched under it. -/
theorem filter_filterMap_key [DecidableEq κ] {fetch : κ → Option α} {key : α → κ}
    (hke : ∀ k a, fetch k = some a → key a = k) (k : κ) {keys : List κ} (hnd : keys.Nodup)
    (hn : k ∉ keys → fetch k = none) :
    (keys.filterMap fetch).filter (fun a => key a = k) = (fetch k).toList := by
  have hf : (keys.filterMap fetch).filter (fun a => key a = k)
      = (keys.filter (· = k)).filterMap fetch := by
    rw [filter_filterMap, filterMap_filter]
    congr 1
    funext k'
    cases hf : fetch k' with
    | none => simp
    | some a => simp [hke k' a hf, Option.filter_some]
  rw [hf, filter_eq, hnd.count]
  by_cases hk : k ∈ keys
  · cases hf : fetch k <;> simp [hk, hf]
  · simp [hk, hn hk]

end Lib
