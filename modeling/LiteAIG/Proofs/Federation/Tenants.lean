/-
Tenants that share the ids, and revocation.

The hot map and the stores keep one relationship per id, whoever's it is.  For a
tenant that does not see it, an id that another tenant holds is free, and `Discover`
and `Activate` then write over it.  As long as that does not happen the lifecycle is
one table, `Rows.held`, of which each tenant sees its own rows: that is `Coherent`,
and both stores are instances of it.

Revocation is a status like any other: `Activate` does not look at the status of what
it replaces, and a material change takes a revoked relationship back to review.
-/
import LiteAIG.Proofs.Federation.Effects

namespace LiteAIG.Federation

open Lib FederationStore Function Lifecycle Option

/-! ### Stores as tables -/

/-- A store read as a table from ids to relationships, as long as every row belongs to the
tenant of the relationship in it. -/
structure Rows (σ : Type) [Store σ] where
  new : σ
  Sound : σ → Prop
  held : σ → String → Option Relationship
  sound_new : Sound new
  held_new : ∀ id, held new id = none
  held_id : ∀ {s id r}, Sound s → held s id = some r → r.id = id
  get_eq : ∀ {s} (tenantID id : String), Sound s →
    Store.get tenantID id s = (held s id).filter (·.tenantID = tenantID)
  put : ∀ {s} (r : Relationship), Sound s →
    (∀ old, held s r.id = some old → old.tenantID = r.tenantID) →
    ∃ s', Store.put r s = .ok s' ∧ Sound s' ∧ held s' = Function.update (held s) r.id (some r) ∧
      ∀ tenantID, tenantID ≠ r.tenantID → Store.list tenantID s' = Store.list tenantID s

def MemoryStore.asRows : Rows MemoryStore where
  new := ⟨.empty⟩
  Sound m := ∀ id r, m.rows.lookup id = some r → r.id = id
  held m id := m.rows.lookup id
  sound_new := by
    intro id r h
    cases h
  held_new _ := rfl
  held_id hs h := hs _ _ h
  get_eq _ _ _ := rfl
  put := by
    intro m r hs howner
    refine ⟨m.put r, rfl, ?_, ?_, ?_⟩
    · intro id x hx
      rcases Assoc.lookup_insert_some hx with ⟨rfl, rfl⟩ | ⟨-, hold⟩
      · rfl
      · exact hs id x hold
    · exact Assoc.lookup_insert_eq_update
    · intro tenantID hne
      refine congrArg Except.ok (Assoc.filter_values_insert ?_ ?_)
      · exact decide_eq_false hne.symm
      · intro old hold
        exact decide_eq_false fun hc => hne (hc.symm.trans (howner old hold))

theorem rowFor_body (s : FederationStore) (r : Relationship) : (s.rowFor r).body = r := by
  unfold rowFor
  split <;> rfl

variable {r : Relationship} {c : Relationship}

/-- A row keeps its tenant, which is the relationship's own where nobody else holds the id. -/
theorem rowFor_tenantID {s : FederationStore}
    (h : ∀ row, s.rows.lookup r.id = some row → row.tenantID = r.tenantID) :
    (s.rowFor r).tenantID = r.tenantID := by
  unfold rowFor
  split
  · rfl
  · rename_i old hold
    exact h old hold

def FederationStore.asRows : Rows FederationStore where
  new := ⟨.empty, true⟩
  Sound s := s.available = true ∧
    ∀ id row, s.rows.lookup id = some row → row.body.id = id ∧ row.tenantID = row.body.tenantID
  held s id := (s.rows.lookup id).map Row.body
  sound_new := by
    refine ⟨rfl, ?_⟩
    intro id row h
    cases h
  held_new _ := rfl
  held_id := by
    intro s id r hs h
    obtain ⟨row, hrow, rfl⟩ := map_eq_some_iff.mp h
    exact (hs.2 id row hrow).1
  get_eq := by
    intro s tenantID id hs
    show FederationStore.get s tenantID id = _
    unfold FederationStore.get
    rw [if_pos hs.1]
    cases h : s.rows.lookup id with
    | none => rfl
    | some row => simp [filter_some, (hs.2 id row h).2, apply_ite (Option.map Row.body)]
  put := by
    intro s r hs howner
    have htenant : ∀ row, s.rows.lookup r.id = some row → row.tenantID = r.tenantID := by
      intro row hrow
      rw [(hs.2 _ row hrow).2]
      exact howner row.body (by rw [hrow]; rfl)
    refine ⟨s.upsert r, if_pos hs.1, ⟨hs.1, ?_⟩, ?_, ?_⟩
    · intro id row hrow
      rcases Assoc.lookup_insert_some hrow with ⟨rfl, rfl⟩ | ⟨-, hold⟩
      · exact ⟨by rw [rowFor_body], by rw [rowFor_body, rowFor_tenantID htenant]⟩
      · exact hs.2 id row hold
    · show Option.map Row.body ∘ (s.rows.insert r.id (s.rowFor r)).lookup = _
      rw [Assoc.lookup_insert_eq_update, Function.comp_update, map_some, rowFor_body]
      rfl
    · intro tenantID hne
      have hrows : ((s.upsert r).rows.entries.map Prod.snd).filter (·.tenantID = tenantID)
          = (s.rows.entries.map Prod.snd).filter (·.tenantID = tenantID) := by
        refine Assoc.filter_values_insert ?_ ?_
        · exact decide_eq_false fun hc => hne (hc.symm.trans (rowFor_tenantID htenant))
        · intro old hold
          exact decide_eq_false fun hc => hne (hc.symm.trans (htenant old hold))
      show FederationStore.list (s.upsert r) tenantID = FederationStore.list s tenantID
      unfold FederationStore.list
      simp only [hrows]
      rfl

/-! ### One table behind the hot map -/

section

variable {σ : Type} [Store σ] {rows : Rows σ} {l : Lifecycle σ}

/-- The hot map has nothing that the store does not have. -/
structure Coherent (rows : Rows σ) (l : Lifecycle σ) : Prop where
  sound : rows.Sound l.store
  hot : ∀ id r, l.states.lookup id = some r → rows.held l.store id = some r

theorem Coherent.get_eq (hc : Coherent rows l) (tenantID id : String) :
    (l.get tenantID id).1 = (rows.held l.store id).filter (·.tenantID = tenantID) := by
  unfold Lifecycle.get Lifecycle.loadLocked
  cases hh : l.states.lookup id with
  | some r =>
    rw [hc.hot id r hh]
    by_cases ht : r.tenantID = tenantID <;> simp [filter_some, ht]
  | none =>
    rw [← rows.get_eq tenantID id hc.sound]
    cases Store.get tenantID id l.store <;> rfl

theorem Coherent.get_eq_some (hc : Coherent rows l) {tenantID id : String} :
    (l.get tenantID id).1 = some c ↔ rows.held l.store id = some c ∧ c.tenantID = tenantID := by
  rw [hc.get_eq, filter_eq_some_iff, decide_eq_true_iff]

theorem looked_store (l : Lifecycle σ) (tenantID id : String) :
    (l.loadLocked tenantID id).2.store = l.store := by
  unfold loadLocked
  split
  · split <;> rfl
  · split <;> rfl

theorem Coherent.looked (hc : Coherent rows l) (tenantID id : String) :
    Coherent rows (l.loadLocked tenantID id).2 := by
  refine ⟨by rw [looked_store]; exact hc.sound, ?_⟩
  rw [looked_store]
  intro key r hk
  unfold loadLocked at hk
  split at hk
  · split at hk <;> exact hc.hot key r hk
  · split at hk
    · rename_i found hget
      rcases Assoc.lookup_insert_some hk with ⟨rfl, rfl⟩ | ⟨-, hold⟩
      · rw [rows.get_eq _ _ hc.sound] at hget
        exact (filter_eq_some_iff.mp hget).1
      · exact hc.hot key r hold
    · exact hc.hot key r hk

theorem saveLocked_hot (l : Lifecycle σ) (r : Relationship) :
    (l.saveLocked r).2.states.lookup r.id = some r := by
  unfold saveLocked
  simp only
  split <;> exact Assoc.lookup_insert_self

/-- A relationship is saved under an id that is free or the tenant's own. -/
theorem Coherent.saved (hc : Coherent rows l)
    (ho : ∀ old, rows.held l.store r.id = some old → old.tenantID = r.tenantID) :
    Coherent rows (l.saveLocked r).2 ∧
      rows.held (l.saveLocked r).2.store = update (rows.held l.store) r.id (some r) ∧
      ∀ tenantID, tenantID ≠ r.tenantID → (l.saveLocked r).2.list tenantID = l.list tenantID := by
  obtain ⟨s', hp, hs, hh, hl⟩ := rows.put r hc.sound ho
  have hsa : (l.saveLocked r).2 = ⟨l.states.insert r.id r, s'⟩ := by
    simp only [saveLocked, hp]
  rw [hsa]
  refine ⟨⟨hs, ?_⟩, hh, hl⟩
  intro id x hx
  show rows.held s' id = some x
  rw [hh]
  rcases Assoc.lookup_insert_some hx with ⟨rfl, rfl⟩ | ⟨hne, hold⟩
  · exact update_self ..
  · rw [update_of_ne hne]
    exact hc.hot id x hold

theorem Coherent.new (rows : Rows σ) : Coherent rows (.withStore rows.new) := by
  refine ⟨rows.sound_new, ?_⟩
  intro id r h
  cases h

end

/-! ### Operations for different tenants -/

/-- The operations that may write an id under which their tenant sees nothing. -/
def Op.Claims : Op → Prop
  | .discover _ _ => True
  | .activate _ r => r.activatable = true
  | _ => False

/-- What is saved is under the id and the tenant of the operation. -/
theorem written_scope {op : Op} {seen : Option Relationship} (hw : op.written seen = some r)
    (hse : ∀ c, seen = some c → c.id = op.id ∧ c.tenantID = op.tenantID) :
    (r.id = op.id ∧ r.tenantID = op.tenantID) ∧ (seen = none → op.Claims) := by
  cases effect_of_written hw with
  | discovered => exact ⟨⟨rfl, rfl⟩, fun _ => trivial⟩
  | approved => exact ⟨⟨rfl, rfl⟩, fun h => by cases h⟩
  | activated ha => exact ⟨⟨rfl, rfl⟩, fun _ => ha⟩
  | rejected | suspended | revoked | changed =>
    have hs := hse _ rfl
    exact ⟨hs, fun h => by cases h⟩

/-- An operation that claims an id saves under it when its tenant sees nothing there. -/
theorem written_of_claims {op : Op} (h : op.Claims) : ∃ r, op.written none = some r := by
  cases op with
  | discover now r => exact ⟨_, rfl⟩
  | activate now r =>
    have ha : r.activatable = true := h
    exact ⟨_, by simp only [Op.written, ha]; rfl⟩
  | get _ _ | review _ _ _ | suspend _ _ _ | revoke _ _ _ | reviewMaterialChange _ _ _ _ => cases h

section

variable {σ : Type} [Store σ] {rows : Rows σ} {l : Lifecycle σ} {op : Op}

/-- An operation that claims an id finds no other tenant under it. -/
def Unclaimed (l : Lifecycle σ) (op : Op) : Prop :=
  op.Claims → ∀ tenantID, tenantID ≠ op.tenantID → (l.get tenantID op.id).1 = none

/-- No other tenant can tell that the operation was performed. -/
def Isolated (l : Lifecycle σ) (op : Op) : Prop :=
  ∀ tenantID, tenantID ≠ op.tenantID →
    (∀ id, ((l.apply op).get tenantID id).1 = (l.get tenantID id).1) ∧
    (l.apply op).list tenantID = l.list tenantID ∧
    ∀ id, (l.apply op).active tenantID id = l.active tenantID id

theorem Coherent.seen (hc : Coherent rows l) (h : (l.looked op).1 = some c) :
    rows.held l.store op.id = some c ∧ c.id = op.id ∧ c.tenantID = op.tenantID := by
  obtain ⟨hh, ht⟩ := hc.get_eq_some.mp h
  exact ⟨hh, rows.held_id hc.sound hh, ht⟩

variable {tenantID id : String}

section

variable (hc : Coherent rows l)
include hc

theorem Coherent.written_scope (hw : op.written (l.looked op).1 = some r) :
    (r.id = op.id ∧ r.tenantID = op.tenantID) ∧ ((l.looked op).1 = none → op.Claims) :=
  Federation.written_scope hw fun _ h => (hc.seen h).2

/-- What an operation writes over is free or its own tenant's. -/
theorem Coherent.owner (hu : Unclaimed l op)
    (hw : op.written (l.looked op).1 = some r) {old : Relationship}
    (hold : rows.held l.store r.id = some old) : old.tenantID = r.tenantID := by
  obtain ⟨⟨hid, ht⟩, hcl⟩ := hc.written_scope hw
  rw [hid] at hold
  by_contra hne
  rw [ht] at hne
  have hs : (l.looked op).1 = none := by
    refine (hc.get_eq op.tenantID op.id).trans ?_
    rw [hold, filter_some, if_neg (by simpa using hne)]
  have ho := hu (hcl hs) old.tenantID hne
  rw [hc.get_eq_some.mpr ⟨hold, rfl⟩] at ho
  cases ho

/-- The table after an operation: one row is written, or none. -/
theorem Coherent.step (hu : Unclaimed l op) :
    Coherent rows (l.apply op) ∧
    ((∃ r, op.written (l.looked op).1 = some r ∧ r.id = op.id ∧ r.tenantID = op.tenantID ∧
        (∀ old, rows.held l.store r.id = some old → old.tenantID = r.tenantID) ∧
        rows.held (l.apply op).store = update (rows.held l.store) r.id (some r)) ∨
      op.written (l.looked op).1 = none ∧ rows.held (l.apply op).store = rows.held l.store) ∧
    ∀ tenantID, tenantID ≠ op.tenantID → (l.apply op).list tenantID = l.list tenantID := by
  have hs := looked_store l op.tenantID op.id
  have hl := hc.looked op.tenantID op.id
  rcases apply_cases l op with ⟨r, hw, ha⟩ | ⟨hn, ha | ha⟩
  · obtain ⟨⟨hid, ht⟩, -⟩ := hc.written_scope hw
    have ho := fun old (hold : rows.held l.store r.id = some old) => hc.owner hu hw hold
    obtain ⟨hco, hh, hli⟩ := hl.saved (r := r) (by rwa [hs])
    rw [hs] at hh
    rw [ha]
    refine ⟨hco, Or.inl ⟨r, hw, hid, ht, ho, hh⟩, ?_⟩
    intro tenantID hne
    refine (hli tenantID (by rwa [ht])).trans ?_
    unfold Lifecycle.list
    rw [hs]
  · rw [ha]
    exact ⟨hc, Or.inr ⟨hn, rfl⟩, fun _ _ => rfl⟩
  · rw [ha]
    refine ⟨hl, Or.inr ⟨hn, congrArg rows.held hs⟩, fun tenantID _ => ?_⟩
    exact congrArg (Store.list tenantID) hs

theorem Coherent.isolated (hu : Unclaimed l op) : Isolated l op := by
  obtain ⟨hco, he, hl⟩ := hc.step hu
  intro tenantID hne
  have hget : ∀ id, ((l.apply op).get tenantID id).1 = (l.get tenantID id).1 := by
    intro id
    rw [hco.get_eq, hc.get_eq]
    rcases he with ⟨r, -, -, ht, ho, hh⟩ | ⟨-, hh⟩
    · rw [hh]
      by_cases hid : id = r.id
      · -- under the written id the other tenant sees nothing, before and after
        subst hid
        rw [update_self, filter_some, if_neg (by simpa [ht] using hne.symm)]
        symm
        rw [filter_eq_none_iff]
        intro old hold
        simpa [ho old hold, ht] using hne.symm
      · rw [update_of_ne hid]
    · rw [hh]
  exact ⟨hget, hl tenantID hne, fun id => by simp only [active, hget]⟩

/-- A claim on an id that another tenant holds takes it away from that tenant. -/
theorem Coherent.unclaimed (hi : Isolated l op) : Unclaimed l op := by
  intro hcl tenantID hne
  by_contra hh
  obtain ⟨old, hold⟩ := ne_none_iff_exists'.mp hh
  obtain ⟨hro, ht⟩ := hc.get_eq_some.mp hold
  have hse : (l.looked op).1 = none := by
    refine (hc.get_eq op.tenantID op.id).trans ?_
    rw [hro, filter_some, if_neg (by simpa [ht] using hne)]
  obtain ⟨r, hw⟩ := written_of_claims hcl
  rw [← hse] at hw
  obtain ⟨⟨hid, hr⟩, -⟩ := hc.written_scope hw
  rcases apply_cases l op with ⟨saved, hs, ha⟩ | ⟨hn, -⟩
  · have heq : saved = r := Option.some.inj (hs.symm.trans hw)
    subst heq
    have hho : (l.apply op).states.lookup op.id = some saved := by
      rw [ha, ← hid]
      exact saveLocked_hot _ _
    have haf : ((l.apply op).get tenantID op.id).1 = none := by
      simp only [Lifecycle.get, Lifecycle.loadLocked, hho]
      rw [if_pos (by rw [hr]; exact hne.symm)]
    exact hh ((hi tenantID hne).1 op.id ▸ haf)
  · rw [hw] at hn
    cases hn

end

theorem isolated_iff_unclaimed (rows : Rows σ) (ops : List Op) :
    Allowed apply Isolated (withStore rows.new) ops ↔
      Allowed apply Unclaimed (withStore rows.new) ops := by
  refine allowed_congr_of_invariant (I := Coherent rows) ?_ ?_ ops _ (Coherent.new rows)
  · intro l op hc
    exact ⟨hc.unclaimed, hc.isolated⟩
  · intro l op hc hu
    exact (hc.step hu).1

/-! ### Revocation -/

/-- A claim finds no other tenant; a relationship that is revoked is not activated on its latest
version, and no material change is reported for it. -/
def Lasting (l : Lifecycle σ) (op : Op) : Prop :=
  Unclaimed l op ∧ ∀ current, (l.get op.tenantID op.id).1 = some current →
    match op with
    | .activate _ r =>
      r.activatable = true → r.version = current.version → current.status ≠ .revoked
    | .reviewMaterialChange _ _ _ change =>
      change.requiresReview = true → current.status ≠ .revoked
    | _ => True

/-- The tenant's relationship under the id is revoked. -/
def Revoked (rows : Rows σ) (l : Lifecycle σ) (tenantID id : String) : Prop :=
  ∃ r, rows.held l.store id = some r ∧ r.tenantID = tenantID ∧ r.status = .revoked

/-- What is saved over a revoked relationship is revoked. -/
theorem written_revoked (hl : Lasting l op) {current : Relationship}
    (hs : (l.looked op).1 = some current) (hr : current.status = .revoked)
    (hw : op.written (l.looked op).1 = some r) : r.status = .revoked := by
  have hc := hl.2 current hs
  rw [hs] at hw
  cases effect_of_written hw with
  | revoked => rfl
  | rejected ho | approved ho => rw [hr] at ho; simp at ho
  | activated ha hla => exact absurd hr (hc ha (hla _ rfl))
  | suspended hn => exact absurd hr hn
  | changed hm => exact absurd hr (hc hm)

theorem Revoked.step (hc : Coherent rows l) (hl : Lasting l op) (hr : Revoked rows l tenantID id) :
    Revoked rows (l.apply op) tenantID id := by
  obtain ⟨current, hh, ht, hre⟩ := hr
  obtain ⟨-, he, -⟩ := hc.step hl.1
  rcases he with ⟨r, hw, hid, hsc, ho, hwr⟩ | ⟨-, hs⟩
  · by_cases hs : id = r.id
    · subst hs
      have how : r.tenantID = tenantID := (ho current hh).symm.trans ht
      have hse : (l.looked op).1 = some current :=
        hc.get_eq_some.mpr ⟨hid ▸ hh, (ho current hh).trans hsc⟩
      refine ⟨r, ?_, how, written_revoked hl hse hre hw⟩
      rw [hwr]
      exact update_self ..
    · refine ⟨current, ?_, ht, hre⟩
      rw [hwr, update_of_ne hs]
      exact hh
  · exact ⟨current, by rw [hs]; exact hh, ht, hre⟩

theorem Revoked.not_active (hc : Coherent rows l) (hr : Revoked rows l tenantID id) :
    l.active tenantID id = false := by
  obtain ⟨r, hh, ht, hre⟩ := hr
  simp [active, hc.get_eq_some.mpr ⟨hh, ht⟩, hre]

theorem revoked_of_revoke (hc : Coherent rows l) {now : Int} (hf : (l.get tenantID id).1 ≠ none) :
    Revoked rows (l.apply (.revoke now tenantID id)) tenantID id := by
  obtain ⟨current, hcu⟩ := ne_none_iff_exists'.mp hf
  have hse : (l.looked (.revoke now tenantID id)).1 = some current := hcu
  have hu : Unclaimed l (.revoke now tenantID id) := fun h => by cases h
  obtain ⟨-, he, -⟩ := hc.step hu
  rw [hse] at he
  rcases he with ⟨r, hw, hid, ht, -, hwr⟩ | ⟨hn, -⟩
  · have hs : r.status = .revoked := by
      cases effect_of_written hw
      rfl
    have hid : r.id = id := hid
    refine ⟨r, ?_, ht, hs⟩
    rw [hwr, ← hid, update_self]
  · cases hn

theorem revocation_lasts (rows : Rows σ) (before after : List Op) (now : Int)
    (tenantID id : String)
    (hl : Allowed apply Lasting (withStore rows.new)
      (before ++ .revoke now tenantID id :: after))
    (hf : ((run apply (.withStore rows.new) before).get tenantID id).1 ≠ none) :
    (run apply (.withStore rows.new) (before ++ .revoke now tenantID id :: after)).active
      tenantID id = false := by
  rw [allowed_append, allowed_cons] at hl
  obtain ⟨hb, -, ha⟩ := hl
  have hs : ∀ (l : Lifecycle σ) op, Coherent rows l → Lasting l op → Coherent rows (l.apply op) :=
    fun l op hc hla => (hc.step hla.1).1
  have hc := Allowed.invariant hs before _ (Coherent.new rows) hb
  have hr : Unclaimed (run apply (.withStore rows.new) before)
      (.revoke now tenantID id) := fun h => by cases h
  -- from the revocation on: coherent, and revoked
  have he := Allowed.invariant (I := fun l => Coherent rows l ∧ Revoked rows l tenantID id)
    (fun l op hI hla => ⟨hs l op hI.1 hla, Revoked.step hI.1 hla hI.2⟩) after _
    ⟨(hc.step hr).1, revoked_of_revoke hc hf⟩ ha
  rw [run_append, run_cons]
  exact he.2.not_active he.1

end

/-! ### Both stores -/

/-- An empty table that answers. -/
def FederationStore.new : FederationStore := ⟨.empty, true⟩

/-- **Over either store: no operation can be told by another tenant, all through a run, exactly
when no operation of the run claims an id that another tenant holds.** -/
theorem tenants_isolated_iff (ops : List Op) :
    (Allowed Lifecycle.apply Isolated Lifecycle.new ops ↔
      Allowed Lifecycle.apply Unclaimed Lifecycle.new ops) ∧
    (Allowed Lifecycle.apply Isolated (.withStore FederationStore.new) ops ↔
      Allowed Lifecycle.apply Unclaimed (.withStore FederationStore.new) ops) :=
  ⟨isolated_iff_unclaimed MemoryStore.asRows ops, isolated_iff_unclaimed asRows ops⟩

/-- A relationship that may be activated. -/
def peerRelationship (tenantID : String) (version : Int64) : Relationship :=
  { Relationship.zero with
    id := "rel-1"
    tenantID
    anchors := [⟨"card", .jws, "peer", true, 0⟩]
    projectGrants := [⟨"p", "p", "admin", 0⟩]
    capabilityGrants := [⟨"read", "read", 0⟩]
    version }

/-- Tenant `a` has activated a peer; tenant `b` discovers the same peer, under the same id. -/
theorem discovery_takes_foreign_id :
    ¬ Isolated (run Lifecycle.apply Lifecycle.new [.activate 0 (peerRelationship "a" 0)])
      (.discover 1 (peerRelationship "b" 0)) ∧
    ¬ Isolated (run Lifecycle.apply (.withStore FederationStore.new)
      [.activate 0 (peerRelationship "a" 0)]) (.discover 1 (peerRelationship "b" 0)) := by
  refine ⟨fun h => ?_, fun h => ?_⟩
  · exact absurd ((h "a" (by decide)).2.2 "rel-1") (by decide +kernel)
  · exact absurd ((h "a" (by decide)).2.2 "rel-1") (by decide +kernel)

/-- **Over either store: in a run in which no claim finds another tenant and no operation goes
through that takes a revoked relationship back, a relationship that was revoked is never active
again.** -/
theorem revocation_final (before after : List Op) (now : Int) (tenantID id : String) :
    (Allowed Lifecycle.apply Lasting Lifecycle.new (before ++ .revoke now tenantID id :: after) →
      ((run Lifecycle.apply Lifecycle.new before).get tenantID id).1 ≠ none →
      (run Lifecycle.apply Lifecycle.new (before ++ .revoke now tenantID id :: after)).active
        tenantID id = false) ∧
    (Allowed Lifecycle.apply Lasting (.withStore FederationStore.new)
        (before ++ .revoke now tenantID id :: after) →
      ((run Lifecycle.apply (.withStore FederationStore.new) before).get tenantID id).1 ≠ none →
      (run Lifecycle.apply (.withStore FederationStore.new)
        (before ++ .revoke now tenantID id :: after)).active tenantID id = false) :=
  ⟨revocation_lasts MemoryStore.asRows before after now tenantID id,
    revocation_lasts asRows before after now tenantID id⟩

/-- The first relationship of an empty lifecycle claims a free id; the others claim nothing. -/
theorem suspended_in_vain_lasting {σ : Type} [Store σ] (rows : Rows σ) :
    Allowed apply Lasting (withStore rows.new)
      ([.activate 0 (peerRelationship "a" 0)] ++
        .revoke 1 "a" "rel-1" :: [.suspend 2 "a" "rel-1"]) := by
  have hn : ∀ tenantID id, ((withStore rows.new).get tenantID id).1 = none := by
    intro tenantID id
    rw [(Coherent.new rows).get_eq]
    exact congrArg (Option.filter _) (rows.held_new id)
  refine ⟨⟨fun _ tenantID _ => hn tenantID _, fun _ h => ?_⟩,
    ⟨fun h => h.elim, fun _ _ => trivial⟩, ⟨fun h => h.elim, fun _ _ => trivial⟩, trivial⟩
  rw [hn] at h
  cases h

theorem revoked_then_suspended :
    (run Lifecycle.apply Lifecycle.new ([.activate 0 (peerRelationship "a" 0)] ++
      .revoke 1 "a" "rel-1" :: [.suspend 2 "a" "rel-1"])).active "a" "rel-1" = false ∧
    (run Lifecycle.apply (.withStore FederationStore.new) ([.activate 0 (peerRelationship "a" 0)] ++
      .revoke 1 "a" "rel-1" :: [.suspend 2 "a" "rel-1"])).active "a" "rel-1" = false :=
  ⟨(revocation_final [.activate 0 (peerRelationship "a" 0)]
    [.suspend 2 "a" "rel-1"] 1 "a" "rel-1").1
      (suspended_in_vain_lasting MemoryStore.asRows) (by decide +kernel),
    (revocation_final [.activate 0 (peerRelationship "a" 0)]
      [.suspend 2 "a" "rel-1"] 1 "a" "rel-1").2
      (suspended_in_vain_lasting asRows) (by decide +kernel)⟩

/-- An approval on the latest version makes a revoked relationship active again. -/
theorem revoked_relationship_reactivated :
    (run Lifecycle.apply Lifecycle.new [.activate 0 (peerRelationship "a" 0), .revoke 1 "a" "rel-1",
        .activate 2 (peerRelationship "a" 2)]).active "a" "rel-1" = true ∧
    (run Lifecycle.apply (.withStore FederationStore.new)
      [.activate 0 (peerRelationship "a" 0), .revoke 1 "a" "rel-1",
        .activate 2 (peerRelationship "a" 2)]).active "a" "rel-1" = true := by
  decide +kernel

end LiteAIG.Federation
