/-
When there is always an administrator.

A request that could end an administrator's rights writes only after it has counted
more than one.  Between the count and the write others may write too, so what the
guard gives depends on whether what was read still holds at the write: the account is
not an administrator that it was not then, and there are not fewer than were counted.
-/
import LiteAIG.Identity.Users

namespace LiteAIG.Identity

open Lib

variable {users : Users} {id : String}

theorem countActiveAdmins_write {user : LocalUser} (h : users.lookup id = some user)
    (change : UserChange) :
    countActiveAdmins (change.write users id).2 + (if isLastActiveAdmin user then 1 else 0) =
      countActiveAdmins users + if (change.result user).any isLastActiveAdmin then 1 else 0 := by
  have he := Assoc.sum_erase_some (fun user => if isLastActiveAdmin user then 1 else 0) h
  unfold countActiveAdmins UserChange.write
  rw [h]
  dsimp only
  cases change.result user with
  | none => simpa using he
  | some user' =>
    simp only [Assoc.sum_insert, Option.any_some]
    omega

/-- There is an active administrator. -/
def Administered (users : Users) : Prop := 0 < countActiveAdmins users
  deriving Decidable

/-- At a write, what the request has read still holds. -/
def Current (users : Users) : UserProgress → UserAction → Prop
  | .writing id _ target counted, .write =>
    (∀ user ∈ users.lookup id, isLastActiveAdmin user = true → isLastActiveAdmin target = true) ∧
      ∀ count ∈ counted, count ≤ countActiveAdmins users
  | _, _ => True

instance (users : Users) : ∀ progress a, Decidable (Current users progress a)
  | .writing .., .write => inferInstanceAs (Decidable ((∀ _ ∈ _, _ → _) ∧ ∀ _ ∈ _, _))
  | .writing .., .find .. | .writing .., .count | .idle, _ | .counting .., _ | .answered _, _ =>
    isTrue trivial

/-- What is about to be written was guarded: there was more than one administrator. -/
def UserProgress.Guarded : UserProgress → Prop
  | .writing _ change target counted => change.guards target = true → ∃ count ∈ counted, 1 < count
  | _ => True

theorem userAct_guarded {progress : UserProgress} (h : progress.Guarded) (a : UserAction) :
    (userAct users progress a).2.Guarded := by
  unfold userAct
  split
  · split
    · split
      · trivial
      · split
        · trivial
        · split
          · trivial
          · rename_i hguards
            exact fun hg => absurd hg hguards
    · trivial
  · dsimp only
    split
    · trivial
    · rename_i hcount
      exact fun _ => ⟨_, rfl, not_le.mp hcount⟩
  · trivial
  · exact h

/-- Only an account that is to be an administrator still is not guarded. -/
theorem UserChange.guards_or_keeps (change : UserChange) {user target : LocalUser}
    (huser : isLastActiveAdmin user = true) (htarget : isLastActiveAdmin target = true) :
    change.guards target = true ∨ (change.result user).any isLastActiveAdmin = true := by
  cases change with
  | setStatus status =>
    cases status with
    | active =>
      refine .inr ?_
      simp_all [result, isLastActiveAdmin]
    | disabled => exact .inl htarget
  | setRole role => exact .inl htarget
  | delete => exact .inl htarget

theorem userAct_administered {progress : UserProgress} {a : UserAction} (h : Administered users)
    (hg : progress.Guarded) (hcurrent : Current users progress a) :
    Administered (userAct users progress a).1 := by
  unfold userAct
  split
  · repeat' split
    all_goals exact h
  · dsimp only
    split <;> exact h
  · rename_i id change target counted
    show Administered (change.write users id).2
    cases hu : users.lookup id with
    | none => simpa [UserChange.write, hu] using h
    | some user =>
      have hc := countActiveAdmins_write hu change
      unfold Administered at h ⊢
      cases hadmin : isLastActiveAdmin user with
      | false =>
        rw [hadmin] at hc
        simp only [Bool.false_eq_true, if_false] at hc
        omega
      | true =>
        rw [hadmin, if_pos rfl] at hc
        rcases change.guards_or_keeps hadmin (hcurrent.1 user hu hadmin) with hguards | hkeeps
        · obtain ⟨count, hcounted, hmore⟩ := hg hguards
          have hle := hcurrent.2 count hcounted
          omega
        · rw [if_pos hkeeps] at hc
          omega
  · exact h

/-- **There is always an administrator as long as every write finds what its request has read**,
in whatever way requests interleave. -/
theorem administered_while_current {κ : Type} [DecidableEq κ] (users : Users)
    (steps : List (κ × UserAction)) (h : Administered users)
    (hcurrent : Allowed (Threads.step userAct) (Threads.Meets Current)
      ⟨users, fun _ => .idle⟩ steps) :
    Administered (run (Threads.step userAct) ⟨users, fun _ => .idle⟩ steps).shared := by
  have hstart : (⟨users, fun _ => .idle⟩ : Threads Users κ UserProgress).Sound Administered
      fun _ progress => progress.Guarded := ⟨h, fun _ => trivial⟩
  refine (hstart.run (fun users progress a hu hg hok => ?_) steps _ hcurrent).shared
  exact ⟨userAct_administered hu hg hok, userAct_guarded hg a, fun _ h => h⟩

/-- Two administrators, and two requests with which each takes away the rights of the other. -/
def twoAdmins : Threads Users Bool UserProgress where
  shared := (Assoc.empty.insert "a" ⟨.tenantAdmin, .active⟩).insert "b" ⟨.tenantAdmin, .active⟩
  own := fun _ => .idle

def demoteEachOther : List (Bool × UserAction) :=
  [(true, .find "a" "b" (.setRole .viewer)), (false, .find "b" "a" (.setRole .viewer))]

/-- One after the other, the second request is refused. -/
theorem administered_one_by_one :
    Administered (run (Threads.step userAct) twoAdmins (demoteEachOther ++
      [(true, .count), (true, .write), (false, .count), (false, .write)])).shared :=
  administered_while_current _ _ (by decide +kernel) (by decide +kernel)

/-- Both count before either writes, and nobody is left. -/
theorem admins_demote_each_other : Administered twoAdmins.shared ∧
    ¬ Administered (run (Threads.step userAct) twoAdmins (demoteEachOther ++
      [(true, .count), (false, .count), (true, .write), (false, .write)])).shared := by
  decide +kernel

end LiteAIG.Identity
