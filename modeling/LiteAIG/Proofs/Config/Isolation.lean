/-
Whose snapshot a change replaces.

A change that succeeds puts one snapshot into the registry, under the reference that
the document names.  The checks hold the document's tenant id against the caller's
and do not look at the reference, so another tenant keeps its snapshots exactly if the
reference is not one of its own.
-/
import LiteAIG.Proofs.Config.Publish

namespace LiteAIG.Config

open Lib
open LiteAIG.Runtime (ActiveRegistry TenantRuntimeSnapshot TenantSnapshotData newTenantSnapshot)

variable {lib : Library} {s s' : Server} {req : Request} {version : Version}
  {snapshot : TenantRuntimeSnapshot}

/-! ### What a change that succeeds has done -/

/-- A call that came to its end with nobody in between. -/
structure Performed (lib : Library) (s : Server) (request : Request) (s' : Server)
    (version : Version) (snapshot : TenantRuntimeSnapshot) : Prop where
  wrote : s.store.Wrote request s'.store version
  valid : hasErrors (validateForTenantWithSystemDefaults lib s.store.system version.config
    request.tenantID) = false
  compiled : ∃ keys, s.store.listActive request.tenantID = .ok keys ∧
    compile lib s.store.system version.config version.version request.now keys = .ok snapshot
  registry : s'.registry = s.registry.activateTenant snapshot.tenantRef snapshot
  guardrails : s'.guardrails = s.guardrails

theorem performed_of_perform {cfg : TenantConfig} {system : SystemConfig} {keys : List KeyRecord}
    (h : perform lib s req = (s', .activated cfg system keys version snapshot)) :
    Performed lib s req s' version snapshot := by
  simp only [perform, List.replicate, run_cons, run_nil] at h
  -- a call that fails at some step has not come to its end
  have h₁ := advanced_advance lib req s .started none
  generalize advance lib req s .started none = r₁ at h h₁
  obtain ⟨s₁, p₁⟩ := r₁
  dsimp only at h h₁
  cases h₁ with
  | fails => simp [advance] at h
  | rests hr => simp at hr
  | @reads doc _ hd =>
    have h₂ := advanced_advance lib req s (.read doc) none
    generalize advance lib req s (.read doc) none = r₂ at h h₂
    obtain ⟨s₂, p₂⟩ := r₂
    dsimp only at h h₂
    cases h₂ with
    | fails => simp [advance] at h
    | rests hr => simp at hr
    | validates hv =>
      have h₃ := advanced_advance lib req s (.validated doc s.store.system) none
      generalize advance lib req s (.validated doc s.store.system) none = r₃ at h h₃
      obtain ⟨s₃, p₃⟩ := r₃
      dsimp only at h h₃
      cases h₃ with
      | fails => simp [advance] at h
      | rests hr => simp at hr
      | @tries _ _ active _ _ ha ht =>
        have h₄ := advanced_advance lib req s (.tried doc s.store.system active) none
        generalize advance lib req s (.tried doc s.store.system active) none = r₄ at h h₄
        obtain ⟨s₄, p₄⟩ := r₄
        dsimp only at h h₄
        cases h₄ with
        | fails => simp [advance] at h
        | rests hr => simp at hr
        | @writes _ _ _ _ stored _ hw =>
          have hs : doc = stored.config := Except.ok.inj (hd.symm.trans hw.source)
          simp only [advance] at h
          split at h
          · simp at h
          · rename_i compiled hc
            simp only [Prod.mk.injEq, Phase.activated.injEq] at h
            obtain ⟨rfl, -, -, -, rfl, rfl⟩ := h
            exact ⟨hw, hs ▸ hv, ⟨active, ha, hw.publishedAt ▸ hc⟩, rfl, rfl⟩

/-- What `compileAndActivate` has checked of a stored version. -/
theorem compileVersion_eq_ok {store : Store} {tid : String}
    {overlay : Option Runtime.GuardrailPolicy} :
    compileVersion lib store tid version overlay = .ok snapshot ↔ tid ≠ "" ∧
        hasErrors (validateForTenantWithSystemDefaults lib store.system
          ((overlay.map version.config.overlaid).getD version.config) tid) = false ∧
        ∃ keys, store.listActive tid = .ok keys ∧
          compile lib store.system ((overlay.map version.config.overlaid).getD version.config)
            version.version version.publishedAt keys = .ok snapshot := by
  simp only [compileVersion, throw_bind, bind_eq_ok, ite_throw_eq_ok, mapError_eq_ok,
    Bool.not_eq_true, ne_eq]

theorem overlayGuardrail_eq_ok {tid : String} {p : Runtime.GuardrailPolicy} :
    overlayGuardrail lib s tid p = .ok (s', snapshot) ↔
      ∃ version, s.store.latest tid = some version ∧
        compileVersion lib s.store tid version (some p) = .ok snapshot ∧
        s.activate snapshot = s' := by
  simp only [overlayGuardrail, throw_bind, ite_throw_eq_ok]
  cases hl : s.store.latest tid with
  | none => simp [throw, throwThe, MonadExceptOf.throw]
  | some version =>
    simp only [compileAndActivate, bind_eq_ok, pure_eq_ok, Prod.mk.injEq, Option.some.injEq,
      exists_eq_left']
    constructor
    · rintro ⟨-, _, hc, rfl, rfl⟩
      exact ⟨hc, rfl⟩
    · rintro ⟨hc, rfl⟩
      exact ⟨(compileVersion_eq_ok.mp hc).1, snapshot, hc, rfl, rfl⟩

/-! ### Changes -/

/-- What a tenant can do to its live configuration. -/
inductive Change
  | call (request : Request)
  | overlay (tenantID : String) (policy : Runtime.GuardrailPolicy)

def Change.tenantID : Change → String
  | .call request => request.tenantID
  | .overlay tenantID _ => tenantID

/-- The process after the change, if it succeeds. -/
def Change.apply (lib : Library) (s : Server) : Change → Option Server
  | .call request =>
    match perform lib s request with
    | (s', .activated ..) => some s'
    | _ => none
  | .overlay tenantID policy =>
    match overlayGuardrail lib s tenantID policy with
    | .ok (s', _) => some s'
    | .error _ => none

/-- The document that the change makes live. -/
def Change.document (s : Store) : Change → Option TenantConfig
  | .call request => (s.document request).toOption
  | .overlay tenantID _ => (s.latest tenantID).map (·.config)

/-- A call that succeeds, as one change. -/
theorem performed_of_apply (h : (Change.call req).apply lib s = some s') :
    ∃ version snapshot, Performed lib s req s' version snapshot := by
  simp only [Change.apply] at h
  split at h
  · rename_i s₁ cfg system keys version snapshot hp
    obtain rfl := Option.some.inj h
    exact ⟨version, snapshot, performed_of_perform hp⟩
  · simp at h

/-- One snapshot of the tenant is activated, under the reference that the document names. -/
theorem Change.activates {change : Change} (h : change.apply lib s = some s') :
    ∃ doc snapshot, change.document s.store = some doc ∧
      snapshot.tenantID = change.tenantID ∧
      s'.registry = s.registry.activateTenant doc.tenant.publicRef snapshot := by
  cases change with
  | call req =>
    obtain ⟨version, snapshot, hd⟩ := performed_of_apply h
    obtain ⟨active, -, hc⟩ := hd.compiled
    have ht := (hasErrors_validateForTenant.mp hd.valid).2
    refine ⟨version.config, snapshot, ?_, (compile_names hc).2.1.trans ht, ?_⟩
    · simp [Change.document, hd.wrote.source, Except.toOption]
    · rw [hd.registry, (compile_names hc).1]
  | overlay tid p =>
    simp only [Change.apply] at h
    split at h
    · rename_i s₁ snapshot ho
      obtain rfl := Option.some.inj h
      obtain ⟨version, hl, hco, rfl⟩ := overlayGuardrail_eq_ok.mp ho
      obtain ⟨-, hv, active, -, hc⟩ := compileVersion_eq_ok.mp hco
      have ht := (hasErrors_validateForTenant.mp hv).2
      refine ⟨version.config, snapshot, ?_, (compile_names hc).2.1.trans ht, ?_⟩
      · simp [Change.document, hl]
      · rw [Server.activate, (compile_names hc).1]
        rfl
    · simp at h

/-- **A change leaves the live configuration of another tenant alone** exactly if the reference that
the document names does not resolve to a snapshot of that tenant. -/
theorem others_unchanged_iff (lib : Library) (s s' : Server) (change : Change) (other : String)
    (h : change.apply lib s = some s') (hother : other ≠ change.tenantID) :
    (∀ ref snapshot, s.registry.tenant ref = some snapshot → snapshot.tenantID = other →
        s'.registry.tenant ref = some snapshot) ↔
      ∀ document ∈ change.document s.store, ∀ snapshot,
        s.registry.tenant document.tenant.publicRef = some snapshot →
          snapshot.tenantID ≠ other := by
  obtain ⟨document, activated, hd, ht, hr⟩ := Change.activates h
  rw [hd, hr]
  constructor
  · intro hs document' hm snapshot hl ho
    obtain rfl := Option.some.inj hm
    have hk := hs _ snapshot hl ho
    rw [ActiveRegistry.tenant_activateTenant_self] at hk
    obtain rfl := Option.some.inj hk
    exact hother (ho.symm.trans ht)
  · intro hf ref snapshot hl ho
    have hne : ref ≠ document.tenant.publicRef := by
      rintro rfl
      exact hf document rfl snapshot hl ho
    exact (Assoc.lookup_insert_ne hne).trans hl

/-- The tenant `a` is live as `acme`, and `b` has a draft that names a reference. -/
def neighbours (publicRef : String) : Server where
  store := { Store.empty with
    drafts := Assoc.empty.insert "d" ⟨"d", "b", 1, .editing, plainDocument "b" publicRef⟩ }
  registry := ActiveRegistry.new.activateTenant "acme"
    (newTenantSnapshot { TenantSnapshotData.zero with tenantID := "a", tenantRef := "acme" })
  guardrails := .empty

/-- `b` publishes its draft. -/
def publishOfB : Change := .call ⟨"b", .publish "d" 1, "bob", "v", ⟨0, 0⟩⟩

theorem own_reference_leaves_others :
    ∃ s', publishOfB.apply plainLibrary (neighbours "beta") = some s' ∧
      ∀ ref snapshot, (neighbours "beta").registry.tenant ref = some snapshot →
        snapshot.tenantID = "a" → s'.registry.tenant ref = some snapshot := by
  refine ⟨_, rfl, ?_⟩
  refine (others_unchanged_iff plainLibrary (neighbours "beta") _ publishOfB "a" rfl
    (by decide)).mpr ?_
  intro doc hm snapshot hl
  obtain rfl := Option.some.inj hm
  simp [neighbours, plainDocument, ActiveRegistry.tenant, ActiveRegistry.activateTenant,
    ActiveRegistry.new] at hl

/-- Published under the reference of `a`, the document of `b` is what requests of `a` run under. -/
theorem neighbour_replaced :
    ((neighbours "acme").registry.tenant "acme").map (·.tenantID) = some "a" ∧
      ((publishOfB.apply plainLibrary (neighbours "acme")).bind
        fun s' => s'.registry.tenant "acme").map (·.tenantID) = some "b" := by
  decide +kernel

end LiteAIG.Config
