/-
Which policy a request is reserved under.

`budgetPolicyFor` runs once over the policies and keeps the best one so far, already
turned into a policy for the window of the moment.  The choice does not depend on the
moment, so it is stated here for the items: one item is selected for a caller, and
the time only decides which of its windows it is.
-/
import LiteAIG.Budget.Manager

namespace LiteAIG.Budget

variable {items : List PolicyItem} {caller : Caller} {item : PolicyItem}

/-- The limit of an item in tokens. -/
def PolicyItem.limit (item : PolicyItem) : Int := Lib.truncToInt item.tokenLimit

/-- The best of an item and the best so far. -/
def better (caller : Caller) (best : Option PolicyItem × Int) (item : PolicyItem) :
    Option PolicyItem × Int :=
  if !item.applies caller || item.score < best.2 then best else (some item, item.score)

/-- The item that is selected for a caller. -/
def selected (items : List PolicyItem) (caller : Caller) : Option PolicyItem :=
  (items.foldl (better caller) (none, -1)).1

theorem budgetPolicyFor_eq (items : List PolicyItem) (caller : Caller) (now : Int) :
    budgetPolicyFor items caller now = (selected items caller).map (·.at now) := by
  -- Both runs keep the same score, and the one keeps the other's item at `now`.
  let at_now (best : Option PolicyItem × Int) : Option Policy × Int :=
    (best.1.map (·.at now), best.2)
  refine congrArg Prod.fst
    (@List.foldl_hom _ _ _ at_now (better caller) _ items (none, -1) fun best item => ?_)
  simp only [at_now, better]
  split <;> rfl

theorem score_nonneg (item : PolicyItem) : 0 ≤ item.score := by
  unfold PolicyItem.score
  split <;> split <;> omega

theorem selected_spec (h : selected items caller = some item) :
    item ∈ items ∧ item.applies caller = true := by
  refine List.foldlRecOn (motive := fun best : Option PolicyItem × Int =>
    ∀ x, best.1 = some x → x ∈ items ∧ x.applies caller = true)
    items (better caller) (fun _ hx => by cases hx) ?_ item h
  intro best hb y hy x hx
  unfold better at hx
  by_cases hc : (!y.applies caller || decide (y.score < best.2)) = true
  · rw [if_pos hc] at hx
    exact hb x hx
  · rw [if_neg hc] at hx
    cases hx
    simp only [Bool.or_eq_true, Bool.not_eq_true', not_or, Bool.not_eq_false] at hc
    exact ⟨hy, hc.1⟩

theorem exists_selected (hm : item ∈ items) (ha : item.applies caller) :
    ∃ item', selected items caller = some item' := by
  obtain ⟨before, after, rfl⟩ := List.append_of_mem hm
  -- Without a best one so far there is no score to beat.
  have hs := List.foldlRecOn (motive := fun best : Option PolicyItem × Int =>
      best.1 = none → best.2 < 0) before (better caller) (b := (none, -1))
    (fun _ => neg_one_lt_zero) fun best hb y _ => by
      unfold better
      split
      · exact hb
      · exact fun hc => by cases hc
  rw [selected, List.foldl_append, List.foldl_cons]
  generalize before.foldl (better caller) (none, -1) = best at hs ⊢
  refine Option.isSome_iff_exists.mp (List.foldlRecOn
    (motive := fun best : Option PolicyItem × Int => best.1.isSome) after _ ?_ ?_)
  · unfold better
    split
    · rename_i hc
      rw [ha, Bool.not_true, Bool.false_or, decide_eq_true_eq] at hc
      by_contra hn
      have := hs (Option.not_isSome_iff_eq_none.mp hn)
      have := score_nonneg item
      omega
    · rfl
  · intro best hb y _
    unfold better
    split
    · exact hb
    · rfl

theorem at_same_window {t now : Int} (ha : item.applies caller)
    (hf : (item.at t).windowStart ≤ now) (hu : now < (item.at t).windowEnd) :
    item.at now = item.at t := by
  have hd : 0 < item.windowHours * (3600 * 1000000000) := by
    simp only [PolicyItem.applies, Bool.and_eq_true, Bool.not_eq_true',
      decide_eq_false_iff_not] at ha
    omega
  simp only [PolicyItem.at, truncate, if_neg (not_le.mpr hd)] at hf hu ⊢
  generalize item.windowHours * (3600 * 1000000000) = d at hd hf hu ⊢
  have hdi : d * (t / d) + t % d = t := Int.mul_ediv_add_emod t d
  have hn : now / d = t / d ∧ now % d = now - d * (t / d) :=
    (Int.ediv_emod_unique hd).mpr ⟨by omega, by omega, by omega⟩
  have hs : now - now % d = t - t % d := by omega
  rw [hs]

end LiteAIG.Budget
