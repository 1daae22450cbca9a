/-
What one operation of the lifecycle does.

An operation looks up one relationship, the one its tenant sees under its id, and
then saves one relationship or none.  `Op.written` says which one, from what the
operation was given and what it saw, and `Effect` lists the ways there are.  The
operations are taken apart here and nowhere else: every invariant of the lifecycle
is a case analysis of `Effect`.
-/
import LiteAIG.Lib.Run
import LiteAIG.Federation.Lifecycle

namespace LiteAIG.Federation

open Lib Lifecycle

inductive Op
  | get (tenantID id : String)
  | discover (now : Int) (r : Relationship)
  | review (now : Int) (r : Relationship) (approved : Bool)
  | activate (now : Int) (r : Relationship)
  | suspend (now : Int) (tenantID id : String)
  | revoke (now : Int) (tenantID id : String)
  | reviewMaterialChange (now : Int) (tenantID id : String) (change : MaterialChange)

/-- The tenant an operation is performed for. -/
def Op.tenantID : Op → String
  | .get tenantID _ | .suspend _ tenantID _ | .revoke _ tenantID _
  | .reviewMaterialChange _ tenantID _ _ => tenantID
  | .discover _ r | .review _ r _ | .activate _ r => r.tenantID

def Op.id : Op → String
  | .get _ id | .suspend _ _ id | .revoke _ _ id | .reviewMaterialChange _ _ id _ => id
  | .discover _ r | .review _ r _ | .activate _ r => r.id

section

variable {σ : Type} [Store σ] {r : Relationship} (l : Lifecycle σ)

def Lifecycle.apply : Op → Lifecycle σ
  | .get tenantID id => (l.get tenantID id).2
  | .discover now r => (l.discover now r).2
  | .review now r approved => (l.review now r approved).2
  | .activate now r => (l.activate now r).2
  | .suspend now tenantID id => (l.suspend now tenantID id).2
  | .revoke now tenantID id => (l.revoke now tenantID id).2
  | .reviewMaterialChange now tenantID id change =>
    (l.reviewMaterialChange now tenantID id change).2

/-- What `Activate` asks of the relationship it is given. -/
def Relationship.activatable (r : Relationship) : Bool :=
  r.hasVerifiedAnchor ∧ r.projectGrants.length ≠ 0 ∧ r.capabilityGrants.length ≠ 0

theorem activate_refused {l : Lifecycle σ} {now : Int} (h : r.activatable = false) :
    (l.activate now r).2 = l := by
  unfold activate
  simp only [Relationship.activatable, decide_eq_false_iff_not] at h
  split
  · rfl
  · split
    · rfl
    · rename_i ha hg
      exact absurd ⟨by simpa using ha, not_or.mp hg⟩ h

/-- What an operation saves, given the relationship it saw. -/
def Op.written (seen : Option Relationship) : Op → Option Relationship
  | .get _ _ => none
  | .discover now r =>
    match seen with
    | some _ => none
    | none => some { r with status := .candidate, updatedAt := now, version := 1 }
  | .review now r approved => do
    let current ← seen
    if current.status ≠ .candidate ∧ current.status ≠ .pendingReview then none
    else if !approved then
      some { current with
        status := .pendingReview, reviewStatus := "rejected", updatedAt := now,
        version := current.version + 1 }
    else if r.version ≠ current.version then none
    else
      some { r with
        status := .active, reviewStatus := "approved", updatedAt := now,
        version := current.version + 1 }
  | .activate now r =>
    if !r.activatable then none
    else
      match seen with
      | some current =>
        if r.version ≠ current.version then none
        else
          some { r with
            status := .active, reviewStatus := "approved", updatedAt := now,
            version := current.version + 1 }
      | none =>
        some { r with
          status := .active, reviewStatus := "approved", updatedAt := now, version := 1 }
  | .suspend now _ _ => do
    let r ← seen
    if r.status = .revoked then none
    else some { r with status := .suspended, updatedAt := now, version := r.version + 1 }
  | .revoke now _ _ => do
    let r ← seen
    some { r with
      status := .revoked, reviewStatus := "revoked", updatedAt := now, version := r.version + 1 }
  | .reviewMaterialChange now _ _ change => do
    let r ← seen
    if !change.requiresReview then none
    else
      some { r with
        status := .pendingReview, reviewStatus := "material_change:" ++ change.fields.headD "",
        updatedAt := now, version := r.version + 1 }

/-- What may be saved, and when: one case for each way an operation has of saving. -/
inductive Effect : Option Relationship → Op → Relationship → Prop
  | discovered {now : Int} {r : Relationship} :
      Effect none (.discover now r) { r with status := .candidate, updatedAt := now, version := 1 }
  | rejected {now : Int} {r current : Relationship}
      (open_ : current.status = .candidate ∨ current.status = .pendingReview) :
      Effect (some current) (.review now r false) { current with
        status := .pendingReview, reviewStatus := "rejected", updatedAt := now,
        version := current.version + 1 }
  | approved {now : Int} {r current : Relationship}
      (open_ : current.status = .candidate ∨ current.status = .pendingReview)
      (latest : r.version = current.version) :
      Effect (some current) (.review now r true) { r with
        status := .active, reviewStatus := "approved", updatedAt := now,
        version := current.version + 1 }
  | activated {now : Int} {r : Relationship} {seen : Option Relationship}
      (activatable : r.activatable = true)
      (latest : ∀ current, seen = some current → r.version = current.version) :
      Effect seen (.activate now r) { r with
        status := .active, reviewStatus := "approved", updatedAt := now,
        version := (seen.map fun current => current.version + 1).getD 1 }
  | suspended {now : Int} {tenantID id : String} {r : Relationship}
    (notRevoked : r.status ≠ .revoked) :
      Effect (some r) (.suspend now tenantID id)
        { r with status := .suspended, updatedAt := now, version := r.version + 1 }
  | revoked {now : Int} {tenantID id : String} {r : Relationship} :
      Effect (some r) (.revoke now tenantID id) { r with
        status := .revoked, reviewStatus := "revoked", updatedAt := now, version := r.version + 1 }
  | changed {now : Int} {tenantID id : String} {change : MaterialChange} {r : Relationship}
      (material : change.requiresReview = true) :
      Effect (some r) (.reviewMaterialChange now tenantID id change) { r with
        status := .pendingReview, reviewStatus := "material_change:" ++ change.fields.headD "",
        updatedAt := now, version := r.version + 1 }

theorem effect_of_written {op : Op} {seen : Option Relationship} (h : op.written seen = some r) :
    Effect seen op r := by
  cases op with
  | get tid id => cases h
  | discover now given =>
    cases seen with
    | some current => cases h
    | none => cases h; exact .discovered
  | review now given approved =>
    obtain ⟨current, rfl, hs⟩ := Option.bind_eq_some_iff.mp h
    split_ifs at hs with hst hr hv
    all_goals
      cases hs
      have ho : current.status = .candidate ∨ current.status = .pendingReview := by
        by_contra hc
        exact hst (not_or.mp hc)
    · have hf : approved = false := by simpa using hr
      subst hf
      exact .rejected ho
    · have ht : approved = true := by simpa using hr
      subst ht
      exact .approved ho (not_not.mp hv)
  | activate now given =>
    simp only [Op.written] at h
    cases ha : given.activatable with
    | false => simp [ha] at h
    | true =>
      simp only [ha, Bool.not_true, Bool.false_eq_true, if_false] at h
      cases seen with
      | none => cases h; exact .activated ha (fun _ hc => by cases hc)
      | some current =>
        simp only at h
        split_ifs at h with hv
        cases h
        exact .activated ha (fun _ hc => by cases hc; exact not_not.mp hv)
  | suspend now tid id =>
    obtain ⟨current, rfl, hs⟩ := Option.bind_eq_some_iff.mp h
    split_ifs at hs with hst
    cases hs
    exact .suspended hst
  | revoke now tid id =>
    obtain ⟨current, rfl, hs⟩ := Option.bind_eq_some_iff.mp h
    cases hs
    exact .revoked
  | reviewMaterialChange now tid id change =>
    obtain ⟨current, rfl, hs⟩ := Option.bind_eq_some_iff.mp h
    split_ifs at hs with hm
    cases hs
    exact .changed (by simpa using hm)

/-- The relationship an operation sees, and the state once it has looked. -/
def Lifecycle.looked (op : Op) : Option Relationship × Lifecycle σ :=
  l.loadLocked op.tenantID op.id

/-- **An operation saves what `Op.written` says, or it does no more than look.** -/
theorem apply_cases (op : Op) :
    (∃ r, op.written (l.looked op).1 = some r ∧ l.apply op = ((l.looked op).2.saveLocked r).2) ∨
    (op.written (l.looked op).1 = none ∧ (l.apply op = l ∨ l.apply op = (l.looked op).2)) := by
  unfold looked
  obtain ⟨seen, l', hl⟩ : ∃ seen l', l.loadLocked op.tenantID op.id = (seen, l') :=
    ⟨_, _, rfl⟩
  rw [hl]
  cases op <;> simp only [Op.tenantID, Op.id] at hl
  case get tid id =>
    refine .inr ⟨rfl, .inr ?_⟩
    exact congrArg Prod.snd hl
  case discover now r =>
    simp only [Lifecycle.apply, discover, hl, Op.written]
    cases seen with
    | none => exact .inl ⟨_, rfl, rfl⟩
    | some current => exact .inr ⟨rfl, .inr rfl⟩
  case review now r approved =>
    simp only [Lifecycle.apply, review, hl, Op.written]
    cases seen with
    | none => exact .inr ⟨rfl, .inr rfl⟩
    | some current =>
      simp only [Option.bind_eq_bind, Option.bind_some]
      split
      · exact .inr ⟨rfl, .inr rfl⟩
      · split
        · exact .inl ⟨_, rfl, rfl⟩
        · split
          · exact .inr ⟨rfl, .inr rfl⟩
          · exact .inl ⟨_, rfl, rfl⟩
  case activate now r =>
    simp only [Lifecycle.apply, Op.written]
    cases ha : r.activatable with
    | false => exact .inr ⟨rfl, .inl (by rw [activate_refused ha])⟩
    | true =>
      obtain ⟨hv, hp, hc⟩ := of_decide_eq_true ha
      simp only [activate, hv, hp, hc, hl, Bool.not_true, Bool.false_eq_true, or_self,
        if_false]
      cases seen with
      | none => exact .inl ⟨_, rfl, rfl⟩
      | some current =>
        dsimp only
        split
        · exact .inr ⟨rfl, .inr rfl⟩
        · exact .inl ⟨_, rfl, rfl⟩
  case suspend now tid id =>
    simp only [Lifecycle.apply, suspend, hl, Op.written]
    cases seen with
    | none => exact .inr ⟨rfl, .inr rfl⟩
    | some current =>
      simp only [Option.bind_eq_bind, Option.bind_some]
      split
      · exact .inr ⟨rfl, .inr rfl⟩
      · exact .inl ⟨_, rfl, rfl⟩
  case revoke now tid id =>
    simp only [Lifecycle.apply, revoke, hl, Op.written]
    cases seen with
    | none => exact .inr ⟨rfl, .inr rfl⟩
    | some current => exact .inl ⟨_, rfl, rfl⟩
  case reviewMaterialChange now tid id change =>
    simp only [Lifecycle.apply, Lifecycle.reviewMaterialChange, Lifecycle.get, hl, Op.written]
    cases seen with
    | none => exact .inr ⟨rfl, .inr (by split <;> rfl)⟩
    | some current =>
      simp only [Option.bind_eq_bind, Option.bind_some]
      split
      · exact .inr ⟨rfl, .inr rfl⟩
      · exact .inl ⟨_, rfl, rfl⟩

end

end LiteAIG.Federation
