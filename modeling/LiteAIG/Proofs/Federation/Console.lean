/-
What the console does is a run of lifecycle operations, none of them an approving
review, so it keeps what those keep.  An approval goes to `Activate` with the
relationship as it is stored: it always carries the latest version, and a revoked
relationship is approved like any other.
-/
import LiteAIG.Federation.Console
import LiteAIG.Proofs.Federation.Tenants
import LiteAIG.Proofs.Federation.Trust

namespace LiteAIG.Federation

open Lib

/-- The console has no approving review: it activates instead. -/
def Op.unapproving : Op → Bool
  | .review _ _ approved => !approved
  | _ => true

section

variable {σ κ : Type} [Store σ]

inductive ConsoleCall (κ : Type)
  | discover (peers : Peers κ) (tenantID : String) (input : FederationDiscoverInput)
  | review (tenantID id : String) (input : FederationReviewInput)
  | suspend (tenantID id : String)

/-- What a call leaves, at the time it is made. -/
def Lifecycle.console (l : Lifecycle σ) : Int × ConsoleCall κ → Lifecycle σ
  | (now, .discover peers tid input) => (consoleDiscover peers l now tid input).2
  | (now, .review tid id input) => (consoleReview l now tid id input).2
  | (now, .suspend tid id) => (consoleSuspend l now tid id).2

section

variable {I : Lifecycle σ → Prop}

/-- The operations but an approving review keep the property. -/
def Keeps (I : Lifecycle σ → Prop) : Prop :=
  ∀ l op, op.unapproving = true → I l → I (l.apply op)

theorem Keeps.answer {α : Type} {l l' : Lifecycle σ} {answer : α × Lifecycle σ} {a : α}
    (hI : Keeps I) (op : Op) (hu : op.unapproving) (hl : I l) (h : answer = (a, l'))
    (ha : answer.2 = l.apply op) : I l' := by
  have hk := hI l op hu hl
  rwa [← ha, h] at hk

/-- What the operations keep, a call of the console keeps. -/
theorem Keeps.console (hI : Keeps I) (l : Lifecycle σ) (c : Int × ConsoleCall κ) (hl : I l) :
    I (l.console c) := by
  obtain ⟨now, c⟩ := c
  cases c with
  | suspend tid id =>
    show I (consoleSuspend l now tid id).2
    unfold consoleSuspend
    split <;> exact hI.answer (.suspend now tid id) rfl hl (by assumption) rfl
  | review tid id input =>
    show I (consoleReview l now tid id input).2
    unfold consoleReview
    split <;> rename_i hget <;> have hg := hI.answer (.get tid id) rfl hl hget rfl
    · exact hg
    · split
      · split <;> exact hI.answer (.review now _ false) rfl hg (by assumption) rfl
      · dsimp only
        split <;> exact hI.answer (.activate now _) rfl hg (by assumption) rfl
  | discover peers tid input =>
    show I (consoleDiscover peers l now tid input).2
    unfold consoleDiscover
    split
    · exact hl
    · split
      · exact hl
      · dsimp only
        split <;> rename_i hget <;> have hg := hI.answer (.get tid _) rfl hl hget rfl
        · split
          · -- a card that changed is reported, and then the relationship is read again
            split <;> rename_i hr <;>
              have hc := hI.answer (.reviewMaterialChange now tid _ _) rfl hg hr rfl
            · exact hc
            · exact hI _ (.get tid _) rfl hc
          · exact hI _ (.get tid _) rfl hg
        · split <;> exact hI.answer (.discover now _) rfl hg (by assumption) rfl

end

theorem Trusted.unapproving {l : Lifecycle MemoryStore} {op : Op} (h : op.unapproving)
    (ht : Trusted l) : Trusted (l.apply op) := by
  refine ht.apply ?_
  cases op with
  | review _ _ approved =>
    cases approved with
    | false => trivial
    | true => cases h
  | _ => trivial

/-- **Whatever is asked of the console, everything active is trusted.** -/
theorem console_trusted (calls : List (Int × ConsoleCall κ)) :
    Trusted (run Lifecycle.console .new calls) := by
  refine run_invariant (Keeps.console fun _ _ => Trusted.unapproving) calls ?_
  rintro r (⟨id, h⟩ | ⟨id, h⟩) <;> cases h

/-- **An approval makes a relationship active that has a verified anchor and grants, whatever
its status was: revoked too.** -/
theorem consoleReview_activates {rows : Rows σ} {l : Lifecycle σ} (hc : Coherent rows l) (now : Int)
    {tid id : String} {r : Relationship} (hr : (l.get tid id).1 = some r)
    (hac : r.activatable = true) :
    (consoleReview l now tid id ⟨true, [], []⟩).2.active tid id = true := by
  obtain ⟨l', hget⟩ : ∃ l', l.get tid id = (some r, l') := ⟨_, by rw [← hr]⟩
  have hl' : l' = (l.loadLocked tid id).2 := (congrArg Prod.snd hget).symm
  obtain ⟨hh, hid, ht⟩ := hc.seen (show (l.looked (.get tid id)).1 = some r from hr)
  have hc' : Coherent rows l' := hl' ▸ hc.looked tid id
  have hs : (l'.looked (.activate now r)).1 = some r := by
    refine (hc'.get_eq r.tenantID r.id).trans ?_
    rw [hl', looked_store, hid]
    show (rows.held l.store id).filter _ = some r
    rw [show rows.held l.store id = some r from hh, Option.filter_some, if_pos (by simp)]
  have hst : (consoleReview l now tid id ⟨true, [], []⟩).2 = l'.apply (.activate now r) := by
    unfold consoleReview
    rw [hget]
    show _ = (l'.activate now r).2
    simp only [Bool.not_true, Bool.false_eq_true, if_false, List.length_nil, lt_irrefl]
    split <;> (rename_i heq; rw [heq])
  rw [hst]
  rcases apply_cases l' (.activate now r) with ⟨saved, hw, ha⟩ | ⟨hn, -⟩
  · have hho := saveLocked_hot (l'.looked (.activate now r)).2 saved
    rw [← ha] at hho
    rw [hs] at hw
    cases effect_of_written hw
    simp only [hid, Op.id] at hho
    simp [Lifecycle.active, Lifecycle.get, Lifecycle.loadLocked, hho, ht, Op.tenantID]
  · rw [hs] at hn
    simp [Op.written, hac] at hn

def revokedPeer : Lifecycle MemoryStore :=
  .withStore (MemoryStore.put ⟨.empty⟩ { peerRelationship "a" 2 with status := .revoked })

theorem revoked_approved :
    (consoleReview revokedPeer 0 "a" "rel-1" ⟨true, [], []⟩).2.active "a" "rel-1" = true := by
  have hc : Coherent MemoryStore.asRows revokedPeer := by
    refine ⟨fun id r h => ?_, fun _ _ h => by cases h⟩
    rcases Assoc.lookup_insert_some h with ⟨rfl, rfl⟩ | ⟨-, h⟩
    · rfl
    · cases h
  exact consoleReview_activates hc 0 rfl (by decide)

end

end LiteAIG.Federation
