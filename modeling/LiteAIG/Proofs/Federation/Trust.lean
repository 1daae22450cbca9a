/-
Whether an active relationship is provably trusted.

Two operations make a relationship active, and both save what the caller handed in.
`Activate` asks for a verified anchor and for grants; an approving `Review` asks only
for the status and the version of the relationship it replaces.  So what is active is
trusted exactly as far as the callers of `Review` vouch for it.
-/
import LiteAIG.Proofs.Federation.Effects

namespace LiteAIG.Federation

open Lib

/-- A relationship is kept in the hot map or in the store. -/
def Lifecycle.Stores (l : Lifecycle MemoryStore) (r : Relationship) : Prop :=
  (∃ id, l.states.lookup id = some r) ∨ ∃ id, l.store.rows.lookup id = some r

/-- Everything that is active has a verified anchor, a project grant and a capability grant. -/
def Trusted (l : Lifecycle MemoryStore) : Prop :=
  ∀ r, l.Stores r → r.status = .active →
    r.hasVerifiedAnchor = true ∧ r.projectGrants ≠ [] ∧ r.capabilityGrants ≠ []

/-- An approving review that will go through brings an anchor and grants of its own. -/
def Vouched (l : Lifecycle MemoryStore) : Op → Prop
  | .review _ r true => ∀ current, (l.get r.tenantID r.id).1 = some current →
      current.status = .candidate ∨ current.status = .pendingReview →
      r.version = current.version →
      r.hasVerifiedAnchor = true ∧ r.projectGrants ≠ [] ∧ r.capabilityGrants ≠ []
  | _ => True

variable {r : Relationship}

theorem activatable_iff : r.activatable = true ↔
    r.hasVerifiedAnchor = true ∧ r.projectGrants ≠ [] ∧ r.capabilityGrants ≠ [] := by
  simp [Relationship.activatable]

variable {l : Lifecycle MemoryStore} {op : Op}

theorem stores_looked (h : (l.looked op).2.Stores r) : l.Stores r := by
  unfold Lifecycle.looked Lifecycle.loadLocked at h
  split at h
  · split at h <;> exact h
  · split at h
    · rename_i found hget
      rcases h with ⟨id, hid⟩ | hs
      · rcases Assoc.lookup_insert_some hid with ⟨-, rfl⟩ | ⟨-, hold⟩
        · exact .inr ⟨op.id, (Option.filter_eq_some_iff.mp hget).1⟩
        · exact .inl ⟨id, hold⟩
      · exact .inr hs
    · exact h

theorem stores_saved {r saved : Relationship} :
    (l.saveLocked saved).2.Stores r → r = saved ∨ l.Stores r := by
  rintro (⟨id, hid⟩ | ⟨id, hid⟩)
  · rcases Assoc.lookup_insert_some hid with ⟨-, rfl⟩ | ⟨-, hold⟩
    · exact .inl rfl
    · exact .inr (.inl ⟨id, hold⟩)
  · rcases Assoc.lookup_insert_some hid with ⟨-, rfl⟩ | ⟨-, hold⟩
    · exact .inl rfl
    · exact .inr (.inr ⟨id, hold⟩)

theorem saved_stores : (l.saveLocked r).2.Stores r :=
  .inl ⟨r.id, Assoc.lookup_insert_self⟩

/-- What an operation makes active has what the relationship it was handed has. -/
theorem written_active (hv : Vouched l op) (hw : op.written (l.looked op).1 = some r)
    (hac : r.status = .active) :
    r.hasVerifiedAnchor = true ∧ r.projectGrants ≠ [] ∧ r.capabilityGrants ≠ [] := by
  generalize hs : (l.looked op).1 = seen at hw
  cases effect_of_written hw with
  | approved ho hl => exact hv _ hs ho hl
  | activated ha => exact activatable_iff.mp ha
  | discovered | rejected | suspended | revoked | changed => cases hac

theorem Trusted.apply (ht : Trusted l) (hv : Vouched l op) : Trusted (l.apply op) := by
  have hl : Trusted (l.looked op).2 := fun r hr => ht r (stores_looked hr)
  rcases apply_cases l op with ⟨saved, hw, ha⟩ | ⟨-, ha | ha⟩
  · intro r hr hac
    rw [ha] at hr
    rcases stores_saved hr with rfl | hold
    · exact written_active hv hw hac
    · exact hl r hold hac
  · rw [ha]
    exact ht
  · rw [ha]
    exact hl

/-- A review that went through without a voucher shows. -/
theorem Trusted.vouched (ht : Trusted (l.apply op)) : Vouched l op := by
  match op, ht with
  | .review now r true, ht =>
    intro current hse hst hv
    have hw : (Op.review now r true).written (l.looked (.review now r true)).1 = some { r with
            status := .active, reviewStatus := "approved", updatedAt := now,
            version := current.version + 1 } := by
      have hl : (l.looked (.review now r true)).1 = some current := hse
      have ho : ¬ (current.status ≠ .candidate ∧ current.status ≠ .pendingReview) :=
        fun hc => hst.elim hc.1 hc.2
      simp [Op.written, hl, ho, hv]
    rcases apply_cases l (.review now r true) with ⟨saved, hs, ha⟩ | ⟨hn, -⟩
    · rw [hw, Option.some.injEq] at hs
      rw [ha, ← hs] at ht
      have hso := ht _ saved_stores rfl
      exact hso
    · rw [hw] at hn
      cases hn
  | .review _ _ false, _ | .get _ _, _ | .discover _ _, _ | .activate _ _, _ | .suspend _ _ _, _
  | .revoke _ _ _, _ | .reviewMaterialChange _ _ _ _, _ => exact trivial

/-- **Everything active is trusted in every state of a run exactly when every approving review
that goes through brings an anchor and grants.** -/
theorem active_trusted_iff_vouched (ops : List Op) :
    Allowed Lifecycle.apply (fun l op => Trusted (l.apply op)) Lifecycle.new ops ↔
      Allowed Lifecycle.apply Vouched Lifecycle.new ops := by
  refine allowed_congr_of_invariant (I := Trusted) ?_ ?_ ops _ ?_
  · intro l op ht
    exact ⟨Trusted.vouched, ht.apply⟩
  · intro l op ht hv
    exact ht.apply hv
  · rintro r (⟨id, h⟩ | ⟨id, h⟩) <;> cases h

/-- A relationship without an anchor and without grants. -/
def strangerRelationship : Relationship :=
  { Relationship.zero with id := "rel-1", tenantID := "t", version := 1 }

/-- The approving review of what was just discovered makes it active: nobody has verified an
anchor, and nothing is granted. -/
theorem unverified_relationship_approved :
    ¬ Trusted (run Lifecycle.apply Lifecycle.new
      [.discover 0 strangerRelationship, .review 0 strangerRelationship true]) := by
  intro ht
  have ha := ht { strangerRelationship with
    status := .active, reviewStatus := "approved", updatedAt := 0, version := 2 }
    (Or.inl ⟨"rel-1", by decide +kernel⟩) rfl
  exact absurd ha.1 (by decide)

end LiteAIG.Federation
