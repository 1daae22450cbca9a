/-
What is published is what was checked.

A call checks the document it has read and later stores the document it finds.  A
draft that is edited gets a higher revision, so the two are the same if the draft was
not yet to reach the revision that the call claims.  Then the stored document compiles
as it did on trial, and a call that has stored a version does not fail any more.
-/
import LiteAIG.Config.Service

namespace LiteAIG.Config

open Lib Threads Store List
open LiteAIG.Runtime (TenantRuntimeSnapshot)

variable {lib : Library} {req : Request} {config : TenantConfig} {system : SystemConfig}
  {keys : List KeyRecord} {version : Version} {snapshot : TenantRuntimeSnapshot}

/-! ### The transactions -/

section

variable {s s' : Store} {tid id : String} {revision : Int} {draft : Draft}

theorem claimable_eq_some :
    s.claimable tid id revision = some draft ↔
      s.drafts.lookup id = some draft ∧ draft.tenantID = tid ∧ draft.revision = revision ∧
        draft.status = .editing := by
  simp [Store.claimable, Option.filter_eq_some_iff]

/-- What a transaction that stores a version has done. -/
structure Store.Wrote (s : Store) (request : Request) (s' : Store) (version : Version) : Prop where
  source : s.document request = .ok version.config
  claimed : ∀ draftID revision, request.target = .publish draftID revision →
    ∃ draft, s.drafts.lookup draftID = some draft ∧ draft.revision = revision ∧
      draft.config = version.config ∧
      s'.drafts = s.drafts.insert draftID { draft with status := .published }
  untouched : ∀ source, request.target = .rollback source → s'.drafts = s.drafts
  versions : s'.versions = s.versions ++ [version]
  rest : s'.system = s.system ∧ s'.keys = s.keys ∧ s'.policies = s.policies
  tenantID : version.tenantID = request.tenantID
  number : version.version = nextNumber Version.version (s.versionsOf request.tenantID)
  publishedAt : version.publishedAt = request.now

theorem wrote_of_write (h : s.write req = .ok (s', version)) :
    s.Wrote req s' version := by
  cases ht : req.target with
  | publish draftID revision =>
    simp only [Store.write, ht, Store.publishDraft] at h
    split at h
    · simp at h
    · rename_i hsc
      split at h
      · simp at h
      · rename_i draft hc
        obtain ⟨hd, hte, hr, -⟩ := claimable_eq_some.mp hc
        simp only [Except.ok.injEq, Prod.mk.injEq] at h
        obtain ⟨rfl, rfl⟩ := h
        refine ⟨?_, ?_, ?_, rfl, ⟨rfl, rfl, rfl⟩, rfl, rfl, rfl⟩
        · simp [Store.document, ht, Store.getDraft, hsc, hd, hte, Except.map]
        · intro id r hs
          obtain ⟨rfl, rfl⟩ := Target.publish.inj (ht.symm.trans hs)
          exact ⟨draft, hd, hr, rfl, rfl⟩
        · intro source hs
          exact absurd (ht.symm.trans hs) (by simp)
  | rollback source =>
    simp only [Store.write, ht, Store.rollbackVersion, bind_eq_ok, pure_eq_ok, Prod.mk.injEq] at h
    obtain ⟨row, hro, rfl, rfl⟩ := h
    refine ⟨?_, ?_, fun _ _ => rfl, rfl, ⟨rfl, rfl, rfl⟩, rfl, rfl, rfl⟩
    · simp [Store.document, ht, hro, Except.map]
    · intro id r hs
      exact absurd (ht.symm.trans hs) (by simp)

theorem versionsOf_append (h : s'.versions = s.versions ++ [version])
    (ht : version.tenantID = tid) :
    s'.versionsOf tid = s.versionsOf tid ++ [version] := by
  simp [Store.versionsOf, h, ht]

theorem Store.Wrote.latest (h : s.Wrote req s' version) :
    s'.latest req.tenantID = some version := by
  rw [Store.latest, versionsOf_append h.versions h.tenantID]
  exact newest_append_next h.number

/-- What the tables may come to: a draft that changes gets a higher revision, and versions are only
added. -/
structure Store.Follows (s s' : Store) : Prop where
  drafts : ∀ id draft, s.drafts.lookup id = some draft → ∃ draft',
    s'.drafts.lookup id = some draft' ∧
      (draft.revision < draft'.revision ∨
        draft'.revision = draft.revision ∧ draft'.config = draft.config)
  versions : s.versions <+: s'.versions

theorem follows_of_same (hd : s'.drafts = s.drafts) (hv : s'.versions = s.versions) :
    s.Follows s' := by
  refine ⟨fun id draft h => ⟨draft, ?_, .inr ⟨rfl, rfl⟩⟩, ?_⟩
  · rw [hd]
    exact h
  · rw [hv]

/-- One draft is set to a row that may take its place. -/
theorem drafts_insert {draft' : Draft} (hold : s.drafts.lookup id = some draft)
    (hn : draft.revision < draft'.revision ∨
      draft'.revision = draft.revision ∧ draft'.config = draft.config) :
    ∀ id' d, s.drafts.lookup id' = some d → ∃ d', (s.drafts.insert id draft').lookup id' = some d' ∧
      (d.revision < d'.revision ∨ d'.revision = d.revision ∧ d'.config = d.config) := by
  intro id' d hd
  by_cases hid : id' = id
  · subst hid
    obtain rfl := Option.some.inj (hold.symm.trans hd)
    exact ⟨draft', Assoc.lookup_insert_self, hn⟩
  · exact ⟨d, (Assoc.lookup_insert_ne hid).trans hd, .inr ⟨rfl, rfl⟩⟩

theorem Store.Wrote.follows (h : s.Wrote req s' version) : s.Follows s' := by
  refine ⟨?_, h.versions ▸ prefix_append _ _⟩
  cases ht : req.target with
  | publish draftID revision =>
    obtain ⟨draft, hdra, -, -, hdr⟩ := h.claimed draftID revision ht
    rw [hdr]
    exact drafts_insert hdra (.inr ⟨rfl, rfl⟩)
  | rollback source =>
    rw [h.untouched source ht]
    exact fun id draft hd => ⟨draft, hd, .inr ⟨rfl, rfl⟩⟩

theorem follows_of_createDraft (h : s.createDraft tid draft = .ok s') :
    s.Follows s' ∧ s'.versions = s.versions := by
  unfold Store.createDraft at h
  split_ifs at h
  split at h
  · simp at h
  · rename_i hn
    obtain rfl := Except.ok.inj h
    refine ⟨⟨fun id d hd => ⟨d, ?_, .inr ⟨rfl, rfl⟩⟩, prefix_rfl⟩, rfl⟩
    have hne : id ≠ draft.id := by
      rintro rfl
      simp [hn] at hd
    exact (Assoc.lookup_insert_ne hne).trans hd

theorem follows_of_updateDraft {doc : TenantConfig}
    (h : s.updateDraft tid id revision doc = .ok s') :
    s.Follows s' ∧ s'.versions = s.versions := by
  unfold Store.updateDraft at h
  split_ifs at h
  split at h
  · simp at h
  · rename_i draft hc
    obtain rfl := Except.ok.inj h
    refine ⟨⟨drafts_insert (claimable_eq_some.mp hc).1 (.inl ?_), prefix_rfl⟩, rfl⟩
    simp

end

/-- Reconciling activates snapshots and leaves the tables alone. -/
theorem reconcileTenant_store (r : Reconciled) :
    (reconcileTenant lib r version).server.store = r.server.store := by
  unfold reconcileTenant
  split
  · rfl
  · rename_i server snapshot h
    simp only [compileAndActivate, bind_eq_ok, pure_eq_ok, Prod.mk.injEq] at h
    obtain ⟨_, -, rfl, -⟩ := h
    rfl

theorem reconcileAll_store (s : Server) :
    (reconcileAll lib s).server.store = s.store := by
  unfold reconcileAll
  apply List.foldlRecOn (motive := fun r : Reconciled => r.server.store = s.store)
  · rfl
  · exact fun r h version _ => (reconcileTenant_store r).trans h

/-! ### The steps of a call -/

/-- The version a call has left in the store. -/
def Phase.stored : Phase → Option Version
  | .written _ _ _ version => some version
  | .activated _ _ _ version _ => some version
  | .failed _ stored => stored
  | _ => none

/-- The ways a step can go. -/
inductive Advanced (lib : Library) (request : Request) (s : Server) :
    Phase → Option Fault → Server → Phase → Prop
  | fails {phase : Phase} {fault : Option Fault} (error : Err) (h : phase.stored = none) :
      Advanced lib request s phase fault s (.failed error none)
  | reads {config : TenantConfig} {fault : Option Fault}
      (h : s.store.document request = .ok config) :
      Advanced lib request s .started fault s (.read config)
  | validates {config : TenantConfig} {fault : Option Fault}
      (h : hasErrors (validateForTenantWithSystemDefaults lib s.store.system config
        request.tenantID) = false) :
      Advanced lib request s (.read config) fault s (.validated config s.store.system)
  | tries {config : TenantConfig} {system : SystemConfig} {keys : List KeyRecord}
      {fault : Option Fault} {trial : TenantRuntimeSnapshot}
      (hkeys : s.store.listActive request.tenantID = .ok keys)
      (h : compile lib system config 0 request.now keys = .ok trial) :
      Advanced lib request s (.validated config system) fault s (.tried config system keys)
  | loses {config : TenantConfig} {system : SystemConfig} {keys : List KeyRecord} {store : Store}
      {version : Version} (h : s.store.Wrote request store version) :
      Advanced lib request s (.tried config system keys) (some .unconfirmed) { s with store }
        (.failed .unavailable (some version))
  | writes {config : TenantConfig} {system : SystemConfig} {keys : List KeyRecord} {store : Store}
      {version : Version} {fault : Option Fault} (h : s.store.Wrote request store version) :
      Advanced lib request s (.tried config system keys) fault { s with store }
        (.written config system keys version)
  | breaks {config : TenantConfig} {system : SystemConfig} {keys : List KeyRecord}
      {version : Version} {fault : Option Fault} (error : Err)
      (h : compile lib system version.config version.version version.publishedAt keys
        = .error error) :
      Advanced lib request s (.written config system keys version) fault s
        (.failed error (some version))
  | activates {config : TenantConfig} {system : SystemConfig} {keys : List KeyRecord}
      {version : Version} {fault : Option Fault} {snapshot : TenantRuntimeSnapshot}
      (h : compile lib system version.config version.version version.publishedAt keys
        = .ok snapshot) :
      Advanced lib request s (.written config system keys version) fault (s.activate snapshot)
        (.activated config system keys version snapshot)
  | rests {phase : Phase} {fault : Option Fault}
      (h : (∃ config system keys version snapshot,
          phase = .activated config system keys version snapshot) ∨
        ∃ error stored, phase = .failed error stored) :
      Advanced lib request s phase fault s phase

theorem attempt_eq_ok {α : Type} {fault : Option Fault} {x : Except Err α} {a : α}
    (h : attempt fault x = .ok a) : x = .ok a := by
  unfold attempt at h
  split at h
  · exact h
  · simp at h

theorem advanced_advance (lib : Library) (req : Request) (s : Server) (phase : Phase)
    (fault : Option Fault) :
    Advanced lib req s phase fault (advance lib req s phase fault).1
      (advance lib req s phase fault).2 := by
  cases phase with
  | started =>
    simp only [advance]
    split
    · exact .fails _ rfl
    · rename_i config h
      exact .reads (attempt_eq_ok h)
  | read config =>
    simp only [advance]
    split
    · exact .fails _ rfl
    · rename_i system h
      obtain rfl := Except.ok.inj (attempt_eq_ok h)
      split
      · exact .fails _ rfl
      · rename_i hp
        exact .validates (Bool.eq_false_iff.mpr hp)
  | validated config system =>
    simp only [advance]
    split
    · exact .fails _ rfl
    · rename_i keys hk
      split
      · exact .fails _ rfl
      · rename_i trial h
        exact .tries (attempt_eq_ok hk) h
  | tried config system keys =>
    simp only [advance]
    split
    · exact .fails _ rfl
    · split
      · exact .fails _ rfl
      · rename_i store version h
        split
        · rename_i hf
          subst hf
          exact .loses (wrote_of_write h)
        · exact .writes (wrote_of_write h)
  | written config system keys version =>
    simp only [advance]
    split
    · rename_i error h
      exact .breaks error h
    · rename_i snapshot h
      exact .activates h
  | activated config system keys version snapshot =>
    exact .rests (.inl ⟨config, system, keys, version, snapshot, rfl⟩)
  | failed error stored => exact .rests (.inr ⟨error, stored, rfl⟩)

/-! ### What a call may rely on -/

/-- The document a call has read is still what its transaction would store, or the draft is past the
revision that the call claims. -/
def Store.Holds (s : Store) (request : Request) (config : TenantConfig) : Prop :=
  (∀ draftID revision, request.target = .publish draftID revision →
    ∃ draft, s.drafts.lookup draftID = some draft ∧ revision ≤ draft.revision ∧
      (draft.revision = revision → draft.config = config)) ∧
  ∀ source, request.target = .rollback source → s.document request = .ok config

/-- The draft is at the revision that the call claims, or past it. -/
def Store.reached (s : Store) (request : Request) : Bool :=
  match request.target with
  | .publish draftID revision => (s.drafts.lookup draftID).all fun draft => revision ≤
      draft.revision
  | .rollback _ => true

section

variable {s s' : Store}

theorem holds_of_document (hr : s.reached req)
    (h : s.document req = .ok config) : s.Holds req config := by
  refine ⟨fun draftID revision ht => ?_, fun _ _ => h⟩
  simp only [Store.document, ht, Store.getDraft] at h
  split_ifs at h
  · simp [Except.map] at h
  · cases hd : s.drafts.lookup draftID with
    | none => simp [hd, Except.map] at h
    | some draft =>
      simp only [hd] at h
      split_ifs at h
      · obtain rfl := Except.ok.inj h
        refine ⟨draft, rfl, ?_, fun _ => rfl⟩
        simpa [Store.reached, ht, hd] using hr
      · simp [Except.map] at h

/-- A version that is found is found however many are added. -/
theorem getVersion_follows {tid : String} {number : Int} {row : Version}
    (hv : s.versions <+: s'.versions) (h : s.getVersion tid number = .ok row) :
    s'.getVersion tid number = .ok row := by
  obtain ⟨added, ha⟩ := hv
  unfold Store.getVersion at h ⊢
  split_ifs at h ⊢
  cases hf : (s.versionsOf tid).find? (·.version = number) with
  | none => simp [hf] at h
  | some found =>
    simp only [hf] at h
    simp only [Store.versionsOf] at hf
    simp [Store.versionsOf, ← ha, List.find?_append, hf, h]

theorem Store.Holds.follows (h : s.Holds req config) (hf : s.Follows s') :
    s'.Holds req config := by
  refine ⟨fun draftID revision ht => ?_, fun source ht => ?_⟩
  · obtain ⟨draft, hdr, hle, hs⟩ := h.1 draftID revision ht
    obtain ⟨draft', hd, hl | ⟨hr, hc⟩⟩ := hf.drafts draftID draft hdr
    · exact ⟨draft', hd, by omega, fun hat => absurd hat (by omega)⟩
    · exact ⟨draft', hd, hr ▸ hle, fun hat => hc.trans (hs (hr ▸ hat))⟩
  · have hold := h.2 source ht
    simp only [Store.document, ht] at hold ⊢
    cases hro : s.getVersion req.tenantID source with
    | error e => simp [hro, Except.map] at hold
    | ok row =>
      rw [getVersion_follows hf.versions hro]
      rwa [hro] at hold

theorem Store.Holds.stored (h : s.Holds req config) (hw : s.Wrote req s' version) :
    version.config = config := by
  cases ht : req.target with
  | publish draftID revision =>
    obtain ⟨draft, hdr, -, hs⟩ := h.1 draftID revision ht
    obtain ⟨draft', hd, hr, hc, -⟩ := hw.claimed draftID revision ht
    obtain rfl := Option.some.inj (hdr.symm.trans hd)
    exact hc.symm.trans (hs hr)
  | rollback source => exact Except.ok.inj (hw.source.symm.trans (h.2 source ht))

end

/-- A document that passed the tenant's checks and compiled, with the defaults and the keys that a
call has read. -/
structure Passed (lib : Library) (request : Request) (config : TenantConfig) (system : SystemConfig)
    (keys : List KeyRecord) : Prop where
  valid : hasErrors (validateForTenantWithSystemDefaults lib system config request.tenantID) = false
  trial : ∃ trial, compile lib system config 0 request.now keys = .ok trial

/-- What a call may rely on, from where it is. -/
def Phase.Sound (lib : Library) (request : Request) (s : Store) : Phase → Prop
  | .started => True
  | .read config => s.Holds request config
  | .validated config system => s.Holds request config ∧
      hasErrors (validateForTenantWithSystemDefaults lib system config request.tenantID) = false
  | .tried config system keys => s.Holds request config ∧ Passed lib request config system keys
  | .written config system keys version => version.config = config ∧
      Passed lib request config system keys
  | .activated config system keys version snapshot => version.config = config ∧
      Passed lib request config system keys ∧
      compile lib system config version.version version.publishedAt keys = .ok snapshot
  | .failed _ stored => stored = none

/-- The condition on a step: the draft it reads is not yet to reach the revision that the call
claims, and a transaction that takes effect is not reported as failed. -/
def Call.inOrder (s : Server) (t : Call) : Action → Bool
  | .step fault =>
    match t.phase with
    | .started => s.store.reached t.request
    | .tried .. => fault ≠ some .unconfirmed
    | _ => true
  | _ => true

section

variable {s s' : Server} {phase phase' : Phase} {fault : Option Fault}

theorem Phase.Sound.follows (h : phase.Sound lib req s.store)
    (hf : s.store.Follows s'.store) : phase.Sound lib req s'.store := by
  cases phase with
  | read config => exact Store.Holds.follows h hf
  | validated config system => exact ⟨Store.Holds.follows h.1 hf, h.2⟩
  | tried config system keys => exact ⟨Store.Holds.follows h.1 hf, h.2⟩
  | started | written | activated | failed => exact h

theorem Advanced.follows (h : Advanced lib req s phase fault s' phase') :
    s.store.Follows s'.store := by
  cases h with
  | loses hw | writes hw => exact hw.follows
  | activates => exact follows_of_same rfl rfl
  | fails | reads | validates | tries | breaks | rests => exact follows_of_same rfl rfl

/-- The document of a version that was written compiles under its number as it did on trial. -/
theorem Passed.compiles (h : Passed lib req config system keys) (number : Int) (now : Time) :
    ∃ snapshot, compile lib system config number now keys = .ok snapshot := by
  obtain ⟨trial, ht⟩ := h.trial
  exact compile_other_version number now ht

theorem Advanced.sound (h : Advanced lib req s phase fault s' phase')
    (hs : phase.Sound lib req s.store)
    (hok : Call.inOrder s ⟨req, phase⟩ (.step fault) = true) :
    phase'.Sound lib req s'.store := by
  cases h with
  | fails error hn => exact rfl
  | reads hd => exact holds_of_document hok hd
  | validates hpa => exact ⟨hs, hpa⟩
  | tries hk ht => exact ⟨hs.1, ⟨hs.2, _, ht⟩⟩
  | loses hw => simp [Call.inOrder] at hok
  | writes hw => exact ⟨hs.1.stored hw, hs.2⟩
  | @breaks _ _ _ version _ error hc =>
    obtain ⟨rfl, hp⟩ := hs
    obtain ⟨snapshot, hsn⟩ := hp.compiles version.version version.publishedAt
    exact absurd (hc.symm.trans hsn) (by simp)
  | activates hc =>
    obtain ⟨rfl, hp⟩ := hs
    exact ⟨rfl, hp, hc⟩
  | rests he => exact hs

/-- What a step leaves of the versions, and of the one its call has stored. -/
theorem Advanced.stores (h : Advanced lib req s phase fault s' phase') :
    s'.store.versions = s.store.versions ∧ phase'.stored = phase.stored ∨
      ∃ version, s'.store.versions = s.store.versions ++ [version] ∧ phase.stored = none ∧
        phase'.stored = some version := by
  cases h with
  | fails error hn => exact .inl ⟨rfl, hn.symm⟩
  | reads | validates | tries | breaks | activates | rests => exact .inl ⟨rfl, rfl⟩
  | loses hw | writes hw => exact .inr ⟨_, hw.versions, rfl, rfl⟩

end

section

variable {κ : Type} [DecidableEq κ]

section

variable (lib : Library) (s : Server) (t : Call) (a : Action)

/-- What some other caller does is not a step of the call, and stores no version. -/
theorem act_cases :
    (∃ fault, a = .step fault) ∨ (act lib s t a).2 = t ∧ s.store.Follows (act lib s t a).1.store ∧
        (act lib s t a).1.store.versions = s.store.versions ∧
        ((act lib s t a).1.registry = s.registry ∨ ∃ doc, a = .setSystemConfig doc) := by
  cases a with
  | step fault => exact .inl ⟨fault, rfl⟩
  | createDraft tid draft =>
    refine .inr ⟨rfl, ?_⟩
    simp only [act, Server.edit]
    split
    · exact ⟨follows_of_same rfl rfl, rfl, .inl rfl⟩
    · rename_i store h
      obtain ⟨hf, hv⟩ := follows_of_createDraft h
      exact ⟨hf, hv, .inl rfl⟩
  | updateDraft tid id revision doc =>
    refine .inr ⟨rfl, ?_⟩
    simp only [act, Server.edit]
    split
    · exact ⟨follows_of_same rfl rfl, rfl, .inl rfl⟩
    · rename_i store h
      obtain ⟨hf, hv⟩ := follows_of_updateDraft h
      exact ⟨hf, hv, .inl rfl⟩
  | setKeys keys => exact .inr ⟨rfl, follows_of_same rfl rfl, rfl, .inl rfl⟩
  | setSystemConfig doc =>
    refine .inr ⟨rfl, ?_⟩
    simp only [act, setSystemConfig]
    split
    · exact ⟨follows_of_same (by rw [reconcileAll_store]) (by rw [reconcileAll_store]),
        by rw [reconcileAll_store], .inr ⟨doc, rfl⟩⟩
    · exact ⟨follows_of_same rfl rfl, rfl, .inl rfl⟩

theorem act_sound (ht : t.phase.Sound lib t.request s.store) (hok : t.inOrder s a) :
    (act lib s t a).2.phase.Sound lib (act lib s t a).2.request (act lib s t a).1.store ∧
      ∀ t' : Call, t'.phase.Sound lib t'.request s.store →
        t'.phase.Sound lib t'.request (act lib s t a).1.store := by
  rcases act_cases lib s t a with ⟨fault, rfl⟩ | ⟨hs, hf, -, -⟩
  · have h := advanced_advance lib t.request s t.phase fault
    exact ⟨h.sound ht hok, fun t' ht' => ht'.follows h.follows⟩
  · rw [hs]
    exact ⟨ht.follows hf, fun t' ht' => ht'.follows hf⟩

theorem act_stores :
    (act lib s t a).1.store.versions = s.store.versions ∧
        (act lib s t a).2.phase.stored = t.phase.stored ∨
      ∃ version, (act lib s t a).1.store.versions = s.store.versions ++ [version] ∧
        t.phase.stored = none ∧ (act lib s t a).2.phase.stored = some version := by
  rcases act_cases lib s t a with ⟨fault, rfl⟩ | ⟨hs, -, hv, -⟩
  · exact (advanced_advance lib t.request s t.phase fault).stores
  · exact .inl ⟨hv, by rw [hs]⟩

end

/-- The versions that were not there at first are those that calls have stored. -/
def Accounted (before : List Version) (w : Threads Server κ Call) : Prop :=
  ∀ version ∈ w.shared.store.versions, version ∈ before ∨
    ∃ k, (w.own k).phase.stored = some version

theorem Accounted.step {before : List Version} {w : Threads Server κ Call} (h : Accounted before w)
    (a : κ × Action) : Accounted before (w.step (act lib) a) := by
  obtain ⟨k, a⟩ := a
  -- A call that has stored a version goes on having stored it.
  have hke : ∀ k' version, (w.own k').phase.stored = some version →
      ((w.step (act lib) (k, a)).own k').phase.stored = some version := by
    intro k' version hs
    by_cases hk : k' = k
    · subst hk
      rw [step_own_self]
      rcases act_stores lib w.shared (w.own k') a with ⟨-, hsa⟩ | ⟨_, -, hn, -⟩
      · exact hsa.trans hs
      · simp [hn] at hs
    · rw [step_own_ne w hk]
      exact hs
  intro version hm
  have hold : version ∈ w.shared.store.versions → version ∈ before ∨
      ∃ k', ((w.step (act lib) (k, a)).own k').phase.stored = some version := by
    intro hin
    rcases h version hin with hb | ⟨k', hs⟩
    · exact .inl hb
    · exact .inr ⟨k', hke k' version hs⟩
  rcases act_stores lib w.shared (w.own k) a with ⟨hsa, -⟩ | ⟨new, hne, -, hs⟩
  · exact hold (hsa ▸ hm)
  · rcases mem_append.mp (hne ▸ hm) with hin | hin
    · exact hold hin
    · obtain rfl := mem_singleton.mp hin
      exact .inr ⟨k, by rw [step_own_self]; exact hs⟩

section

variable (lib : Library) (s : Server) (reqs : κ → Request) (steps : List (κ × Action))

theorem request_run (k : κ) :
    ((run (step (act lib)) (begun s reqs) steps).own k).request = reqs k := by
  refine run_invariant (I := fun w : Threads Server κ Call => (w.own k).request = reqs k)
    (fun w a hw => ?_) steps rfl
  obtain ⟨k', a⟩ := a
  by_cases hk : k = k'
  · subst hk
    rw [step_own_self, ← hw]
    rcases act_cases lib w.shared (w.own k) a with ⟨fault, rfl⟩ | ⟨hs, -, -, -⟩
    · rfl
    · rw [hs]
  · rw [step_own_ne w hk]
    exact hw

theorem sound_run (hok : Allowed (step (act lib)) (Meets fun s t a => t.inOrder s a = true)
      (begun s reqs) steps) (k : κ) :
    ((run (step (act lib)) (begun s reqs) steps).own k).phase.Sound lib (reqs k)
      (run (step (act lib)) (begun s reqs) steps).shared.store := by
  have hs : (begun s reqs).Sound (fun _ => True)
      fun s t => t.phase.Sound lib t.request s.store := ⟨trivial, fun _ => trivial⟩
  have he := hs.run (fun s t a _ ht hok => ⟨trivial, act_sound lib s t a ht hok⟩) steps _ hok
  exact request_run lib s reqs steps k ▸ he.own k

end

/-- A call stands for the version it has stored: the document passed with what the call has read,
and it is active or becomes so with the next step, whatever happens. -/
def Vouched (lib : Library) (request : Request) (s : Server) (phase : Phase) (version : Version) :
    Prop :=
  ∃ config system keys, version.config = config ∧ Passed lib request config system keys ∧
    (phase = .written config system keys version ∧
        (∀ fault, ∃ snapshot, advance lib request s phase fault
          = (s.activate snapshot, .activated config system keys version snapshot)) ∨
      ∃ snapshot, phase = .activated config system keys version snapshot ∧
        compile lib system config version.version version.publishedAt keys = .ok snapshot)

theorem Phase.Sound.vouched {s : Server} {phase : Phase} (h : phase.Sound lib req s.store)
    (hs : phase.stored = some version) : Vouched lib req s phase version := by
  cases phase with
  | started | read | validated | tried => simp [Phase.stored] at hs
  | failed error stored =>
    obtain rfl : stored = none := h
    simp [Phase.stored] at hs
  | written config system keys v =>
    obtain rfl : v = version := Option.some.inj hs
    obtain ⟨rfl, hp⟩ := h
    obtain ⟨snapshot, hsn⟩ := hp.compiles v.version v.publishedAt
    refine ⟨v.config, system, keys, rfl, hp, .inl ⟨rfl, fun fault => ⟨snapshot, ?_⟩⟩⟩
    simp only [advance, hsn]
  | activated config system keys v snapshot =>
    obtain rfl : v = version := Option.some.inj hs
    obtain ⟨rfl, hp, hc⟩ := h
    exact ⟨v.config, system, keys, rfl, hp, .inr ⟨snapshot, rfl, hc⟩⟩

/-- **What is published is what was validated**: every version that is stored was stored by a call
in which its document passed and compiled; a call that has stored one has activated it or does so
with its next step; and a call that failed has stored none.  This is so in every run whose calls
read a draft that is not yet to reach the revision they claim, and whose transactions report what
they did. -/
theorem published_as_validated (lib : Library) (s : Server) (requests : κ → Request)
    (steps : List (κ × Action))
    (hok : Allowed (Threads.step (act lib)) (Threads.Meets fun s t a => t.inOrder s a = true)
      (begun s requests) steps) :
    let w := run (Threads.step (act lib)) (begun s requests) steps
    (∀ version ∈ w.shared.store.versions, version ∈ s.store.versions ∨
      ∃ k, (w.own k).phase.stored = some version) ∧
    ∀ k, (∀ version, (w.own k).phase.stored = some version →
        Vouched lib (requests k) w.shared (w.own k).phase version) ∧
      ∀ error stored, (w.own k).phase = .failed error stored → stored = none := by
  intro w
  refine ⟨run_invariant (I := Accounted _) (fun w a hw => hw.step a) steps fun _ hm => .inl hm,
    fun k => ?_⟩
  have hs := sound_run lib s requests steps hok k
  refine ⟨fun version hst => hs.vouched hst, fun error stored hf => ?_⟩
  exact (hf ▸ hs : (Phase.failed error stored).Sound lib (requests k) w.shared.store)

end

/-- A library for documents without URLs and capabilities. -/
def plainLibrary : Library := ⟨fun _ => none, id⟩

/-- A document with nothing but its tenant. -/
def plainDocument (tenantID publicRef : String) : TenantConfig :=
  { TenantConfig.zero with
    schemaVersion := schemaV1
    tenant := ⟨tenantID, publicRef, "active", 0, [], ""⟩ }

/-- A process of the tenant `a`, with a draft at its first revision. -/
def drafted : Server where
  store := { Store.empty with
    drafts := Assoc.empty.insert "d" ⟨"d", "a", 1, .editing, plainDocument "a" "acme"⟩ }
  registry := .new
  guardrails := .empty

/-- Calls that publish the draft at a revision. -/
def publishing (expectedRevision : Int) (_ : Nat) : Request :=
  ⟨"a", .publish "d" expectedRevision, "ann", "v", ⟨0, 0⟩⟩

/-- What the steps of a first call, and of others, leave. -/
def published (expectedRevision : Int) (steps : List (Nat × Action)) : Threads Server Nat Call :=
  run (Threads.step (act plainLibrary)) (begun drafted (publishing expectedRevision)) steps

theorem draft_published_as_validated :
    Allowed (Threads.step (act plainLibrary)) (Threads.Meets fun s t a => t.inOrder s a = true)
        (begun drafted (publishing 1)) (List.replicate 5 (0, .step none)) ∧
      (published 1 (List.replicate 5 (0, .step none))).shared.store.versions.map (·.config)
        = [plainDocument "a" "acme"] ∧
      ∀ version, ((published 1 (List.replicate 5 (0, .step none))).own 0).phase.stored =
        some version →
        Vouched plainLibrary (publishing 1 0)
          (published 1 (List.replicate 5 (0, .step none))).shared
          ((published 1 (List.replicate 5 (0, .step none))).own 0).phase version := by
  have hok : Allowed (step (act plainLibrary)) (Meets fun s t a => t.inOrder s a = true)
      (begun drafted (publishing 1)) (List.replicate 5 (0, .step none)) := by
    decide +kernel
  exact ⟨hok, by decide +kernel,
    ((published_as_validated plainLibrary drafted (publishing 1) _ hok).2 0).1⟩

/-- A document of a schema that is not supported. -/
def unsupported : TenantConfig := { plainDocument "a" "acme" with schemaVersion := "v0" }

/-- The draft reaches the revision that the call claims after the call has checked it. -/
def editedInBetween (document : TenantConfig) : List (Nat × Action) :=
  List.replicate 3 (0, .step none) ++ [(1, .updateDraft "a" "d" 1 document)] ++
    List.replicate 2 (0, .step none)

/-- A document that is not valid is stored and the call fails; a document of another tenant is
stored and goes live; and a transaction that is not confirmed has stored its version. -/
theorem unvalidated_published :
    (∃ version, ((published 2 (editedInBetween unsupported)).own 0).phase
        = .failed .validationFailed (some version) ∧
      (published 2 (editedInBetween unsupported)).shared.store.versions = [version]) ∧
    ((published 2 (editedInBetween (plainDocument "b" "beta"))).shared.registry.tenant "beta").map
        (·.tenantID) = some "b" ∧
    ∃ version,
      ((published 1 (List.replicate 3 (0, .step none) ++
        [(0, .step (some .unconfirmed))])).own 0).phase
        = .failed .unavailable (some version) ∧
      (published 1 (List.replicate 3 (0, .step none) ++
        [(0, .step (some .unconfirmed))])).shared.store.versions = [version] := by
  exact ⟨⟨_, rfl, rfl⟩, by decide +kernel, ⟨_, rfl, rfl⟩⟩

end LiteAIG.Config
