/-
What a restart makes of the live configuration.

A restart compiles the newest version of each tenant and lays the newest stored
guardrail policy over it, with its change type for its mode.  Publishing and rolling
back do not look at that policy, and a fast publish takes its mode from what is live.
Apart from the guardrail policy a restart finds what was live; the policy is the same
exactly if the last operation happened to use the one that the restart will.
-/
import LiteAIG.Proofs.Config.Isolation

namespace LiteAIG.Config

open Lib List Option
open LiteAIG.Runtime (ActiveRegistry TenantRuntimeSnapshot newTenantSnapshot)
open Guardrail (Policy PolicyRow Text Regexp activePolicy activeVersion fastPublish
  fastPublish_spec)

/-! ### Operations -/

/-- What changes a tenant's live configuration for good: a publish or a rollback, or a fast publish
of a guardrail policy. -/
inductive Op
  | call (request : Request)
  | fastPublish (tenantID : String) (policy : Policy) (change : String) (order : List String)

def Op.tenantID : Op → String
  | .call request => request.tenantID
  | .fastPublish tenantID _ _ _ => tenantID

/-- The process after the operation, if it succeeds. -/
def Op.perform (lib : Library) (regexps : Text → Option Regexp) (s : Server) : Op → Option Server
  | .call request => (Change.call request).apply lib s
  | .fastPublish tenantID policy change order =>
    match fastPublishGuardrail lib regexps s order tenantID policy change with
    | (s', .ok _) => some s'
    | (_, .error _) => none

/-- The snapshot of a tenant under the reference that its newest version names. -/
def Server.live (s : Server) (tenantID : String) : Option TenantRuntimeSnapshot :=
  (s.store.latest tenantID).bind fun version => s.registry.tenant version.config.tenant.publicRef

/-- The tenant's snapshots that a new process activates from the tables. -/
def Server.restarted (lib : Library) (s : Server) (tenantID : String) :
    List TenantRuntimeSnapshot :=
  (reconcileAll lib ⟨s.store, .new, .empty⟩).activated.filter (·.tenantID = tenantID)

/-- A policy that is stored will be the newest: if some policy is newer than the one in memory, the
number after that one is taken. -/
def Server.Gapless (s : Server) (tenantID : String) : Prop :=
  ∀ row ∈ s.store.policies, row.tenantID = tenantID →
    activeVersion s.guardrails tenantID < row.version →
    ∃ row' ∈ s.store.policies, row'.tenantID = tenantID ∧
      row'.version = activeVersion s.guardrails tenantID + 1

variable {lib : Library} {regexps : Text → Option Regexp} {s s' : Server} {tenantID : String}
  {system : SystemConfig} {document : TenantConfig} {number : Int} {publishedAt : Time}
  {keys : List KeyRecord} {snapshot snapshot' : TenantRuntimeSnapshot} {version : Version}
  {p : GuardrailPolicy} {order : List String}

/-! ### Compiling with another guardrail policy -/

/-- A snapshot with another guardrail policy. -/
def withGuardrail (snapshot : TenantRuntimeSnapshot) (policy : Runtime.GuardrailPolicy) :
    TenantRuntimeSnapshot :=
  { snapshot with
    guardrail := policy, sourceData := { snapshot.sourceData with guardrail := policy } }

theorem compileKeys_congr {document' : TenantConfig}
    (hid : document'.tenant.id = document.tenant.id)
    (hp : document'.projects = document.projects) :
    ∀ keys, compileKeys document' keys = compileKeys document keys := by
  intro keys
  induction keys with
  | nil => rfl
  | cons key rest ih => simp only [compileKeys, hid, hp, ih]

section

variable (hp : hasErrors (validateGuardrailPolicy p) = false)
  (h : compile lib system document number publishedAt keys = .ok snapshot)
include hp h

/-- The guardrail policy is compiled apart from everything else. -/
theorem compile_guardrail :
    compile lib system (document.withGuardrail p) number publishedAt keys
      = .ok (withGuardrail snapshot (p.compile document.tenant)) := by
  obtain ⟨hv, apiKeys, hk, rfl⟩ := compile_eq_ok.mp h
  have hpa := hasErrors_validate_guardrail hp (hasErrors_validateForTenant.mpr ⟨hv, rfl⟩)
  refine compile_eq_ok.mpr ⟨(hasErrors_validateForTenant.mp hpa).1, apiKeys, ?_, rfl⟩
  rw [← hk]
  refine compileKeys_congr ?_ ?_ keys <;> rfl

theorem compile_guardrail_inj
    (h' : compile lib system (document.withGuardrail p) number publishedAt keys = .ok snapshot') :
    snapshot' = withGuardrail snapshot (p.compile document.tenant) ∧
      (snapshot = snapshot' ↔ document.guardrail = p) := by
  have hs := Except.ok.inj (h'.symm.trans (compile_guardrail hp h))
  refine ⟨hs, ?_⟩
  constructor
  · intro hsa
    obtain ⟨-, apiKeys, -, rfl⟩ := compile_eq_ok.mp h
    have hg : document.guardrail.compile document.tenant = p.compile document.tenant :=
      congrArg (·.guardrail) (hsa.trans hs)
    obtain ⟨mode, rules, judge, groundedness⟩ := p
    simp only [GuardrailPolicy.compile, Runtime.GuardrailPolicy.mk.injEq] at hg
    obtain ⟨hm, -, hr, hj, hgr⟩ := hg
    rw [← hm, ← hr, ← hj, ← hgr]
  · rintro rfl
    exact Except.ok.inj (h.symm.trans h')

end

/-! ### What is reconciled -/

/-- The snapshot that reconciling activates for a tenant. -/
def reconciled (lib : Library) (s : Store) (tenantID : String) : Option TenantRuntimeSnapshot :=
  (s.latest tenantID).bind fun version =>
    (compileVersion lib s tenantID version (guardrailLoader s tenantID)).toOption

theorem latest_tenantID {s : Store} (h : s.latest tenantID = some version) :
    version.tenantID = tenantID := by
  simpa using (mem_filter.mp (newest_spec h).1).2

theorem latest_eq_none {s : Store} :
    s.latest tenantID = none ↔ tenantID ∉ s.versions.map (·.tenantID) := by
  rw [Store.latest, newest_eq_none, Store.versionsOf, filter_eq_nil_iff]
  simp

theorem reconcileTenant_activated (r : Reconciled) :
    (reconcileTenant lib r version).activated = r.activated ++
      (compileVersion lib r.server.store version.tenantID version
        (guardrailLoader r.server.store version.tenantID)).toOption.toList := by
  unfold reconcileTenant compileAndActivate
  cases h : compileVersion lib r.server.store version.tenantID version
      (guardrailLoader r.server.store version.tenantID) with
  | error e => simp [Except.toOption, bind, Except.bind]
  | ok snapshot => simp [Except.toOption, bind, Except.bind, pure, Except.pure]

theorem foldl_reconcileTenant : ∀ (versions : List Version) (r : Reconciled),
    (versions.foldl (reconcileTenant lib) r).activated = r.activated ++
      versions.filterMap fun version =>
        (compileVersion lib r.server.store version.tenantID version
          (guardrailLoader r.server.store version.tenantID)).toOption := by
  intro versions
  induction versions with
  | nil => intro r; simp
  | cons version rest ih =>
    intro r
    rw [foldl_cons, ih, reconcileTenant_activated, reconcileTenant_store, append_assoc]
    cases h : (compileVersion lib r.server.store version.tenantID version
        (guardrailLoader r.server.store version.tenantID)).toOption with
    | none => simp [h]
    | some snapshot => simp [h]

/-- Of what `ReconcileAll` activates, one snapshot is the tenant's. -/
theorem reconcileAll_tenant :
    (reconcileAll lib s).activated.filter (·.tenantID = tenantID)
      = (reconciled lib s.store tenantID).toList := by
  have ha : (reconcileAll lib s).activated
      = ((s.store.versions.map (·.tenantID)).dedup.mergeSort fun a b => decide (a ≤ b)).filterMap
          (reconciled lib s.store) := by
    rw [reconcileAll, foldl_reconcileTenant, Store.listLatestVersions, nil_append,
      filterMap_filterMap]
    refine filterMap_congr fun tenantID _ => ?_
    cases hl : s.store.latest tenantID with
    | none => simp [reconciled, hl]
    | some version => simp [reconciled, hl, latest_tenantID hl]
  rw [ha]
  refine filter_filterMap_key (fun tenantID snapshot h => ?_) tenantID ?_ fun hn => ?_
  · obtain ⟨version, -, hc⟩ := bind_eq_some_iff.mp h
    obtain ⟨-, hv, active, -, hco⟩ := compileVersion_eq_ok.mp (toOption_eq_some.mp hc)
    exact (compile_names hco).2.1.trans (hasErrors_validateForTenant.mp hv).2
  · exact (mergeSort_perm _ _).nodup_iff.mpr (nodup_dedup _)
  · rw [mem_mergeSort, mem_dedup] at hn
    rw [reconciled, latest_eq_none.mpr hn]
    rfl

/-! ### One operation -/

/-- What is live: the newest version's document with some guardrail policy. -/
structure Server.Active (lib : Library) (s : Server) (tenantID : String) (version : Version)
    (guardrail : GuardrailPolicy) (snapshot : TenantRuntimeSnapshot) : Prop where
  latest : s.store.latest tenantID = some version
  live : s.registry.tenant version.config.tenant.publicRef = some snapshot
  valid : hasErrors (validateForTenantWithSystemDefaults lib s.store.system
    (version.config.withGuardrail guardrail) tenantID) = false
  compiled : ∃ keys, s.store.listActive tenantID = .ok keys ∧
    compile lib s.store.system (version.config.withGuardrail guardrail) version.version
      version.publishedAt keys = .ok snapshot

/-- The guardrail policy that a restart compiles. -/
def restartGuardrail (s : Store) (tenantID : String) (version : Version) : GuardrailPolicy :=
  (((guardrailLoader s tenantID).map version.config.overlaid).getD version.config).guardrail

section

variable (document : TenantConfig) (overlay : Runtime.GuardrailPolicy)

theorem restart_document (s : Store) :
    ((guardrailLoader s tenantID).map version.config.overlaid).getD version.config
      = version.config.withGuardrail (restartGuardrail s tenantID version) := by
  unfold restartGuardrail
  cases guardrailLoader s tenantID <;> rfl

theorem overlaid_eq_self :
    document.overlaid overlay = document ↔ document.guardrail =
      (document.overlaid overlay).guardrail := by
  constructor
  · intro h
    rw [h]
  · intro h
    calc document.overlaid overlay
        = document.withGuardrail (document.overlaid overlay).guardrail := rfl
      _ = document := by rw [← h, TenantConfig.withGuardrail_self]

/-- A policy that is laid over a document passes. -/
theorem hasErrors_overlaid :
    hasErrors (validateGuardrailPolicy (document.overlaid overlay).guardrail) = false := by
  simp [validateGuardrailPolicy, TenantConfig.overlaid]

end

theorem Server.Active.restarts {guardrail : GuardrailPolicy}
    (h : s.Active lib tenantID version guardrail snapshot)
    (hp : hasErrors (validateGuardrailPolicy (restartGuardrail s.store tenantID version)) = false) :
    ∃ restarted, s.restarted lib tenantID = [restarted] ∧
      withGuardrail snapshot restarted.guardrail = restarted ∧
      (snapshot = restarted ↔ guardrail = restartGuardrail s.store tenantID version) := by
  obtain ⟨keys, hk, hc⟩ := h.compiled
  have hs : tenantID ≠ "" := by
    rintro rfl
    simp [Store.listActive] at hk
  have hv := hasErrors_validate_guardrail hp h.valid
  have hr := compile_guardrail hp hc
  have hi := (compile_guardrail_inj hp hc hr).2
  rw [TenantConfig.withGuardrail_withGuardrail, ← restart_document] at hv hr
  rw [TenantConfig.guardrail_withGuardrail] at hi
  have hco := compileVersion_eq_ok.mpr ⟨hs, hv, keys, hk, hr⟩
  refine ⟨_, ?_, rfl, hi⟩
  rw [Server.restarted, reconcileAll_tenant, reconciled, h.latest, bind_some, hco]
  rfl

theorem hasErrors_restartGuardrail
    (h : hasErrors (validateGuardrailPolicy version.config.guardrail) = false) (s : Store) :
    hasErrors (validateGuardrailPolicy (restartGuardrail s tenantID version)) = false := by
  unfold restartGuardrail
  cases guardrailLoader s tenantID with
  | none => exact h
  | some overlay => exact hasErrors_overlaid version.config overlay

/-- The operation uses the guardrail policy that a restart will: a call, because no policy is stored
or the document has just that one; a fast publish, because what is live has no mode or the mode that
is named like the change. -/
def Op.settled (s : Server) : Op → Prop
  | .call request => ∀ document overlay, s.store.document request = .ok document →
      guardrailLoader s.store request.tenantID = some overlay → document.overlaid overlay = document
  | .fastPublish tenantID _ change order =>
    overlayMode (s.registry.tenantByID order tenantID) change = change

/-- What an operation that succeeds has made live. -/
structure Op.Done (lib : Library) (s : Server) (op : Op) (s' : Server) (version : Version)
    (guardrail : GuardrailPolicy) (snapshot : TenantRuntimeSnapshot) : Prop where
  active : s'.Active lib op.tenantID version guardrail snapshot
  passes : hasErrors (validateGuardrailPolicy (restartGuardrail s'.store op.tenantID version)) =
    false
  same : guardrail = restartGuardrail s'.store op.tenantID version ↔ op.settled s
  gapless : s'.Gapless op.tenantID

theorem Performed.done {req : Request} (h : Performed lib s req s' version snapshot)
    (hg : s.Gapless req.tenantID) :
    Op.Done lib s (.call req) s' version version.config.guardrail snapshot := by
  obtain ⟨hs, hk, hp⟩ := h.wrote.rest
  have hl : guardrailLoader s'.store = guardrailLoader s.store := by
    unfold guardrailLoader
    rw [hp]
  obtain ⟨keys, ha, hc⟩ := h.compiled
  constructor
  case active =>
    constructor
    case latest => exact h.wrote.latest
    case live =>
      rw [h.registry, (compile_names hc).1]
      exact ActiveRegistry.tenant_activateTenant_self _ _ _
    case valid =>
      rw [hs]
      exact h.valid
    case compiled =>
      refine ⟨keys, ?_, ?_⟩
      · rw [← ha, Store.listActive, Store.listActive, hk]
        rfl
      · rw [hs, h.wrote.publishedAt]
        exact hc
  case passes => exact hasErrors_restartGuardrail (hasErrors_guardrail h.valid) _
  case same =>
    simp only [Op.settled, Op.tenantID, restartGuardrail, hl, h.wrote.source, Except.ok.injEq]
    cases guardrailLoader s.store req.tenantID with
    | none => simp
    | some overlay => simp [overlaid_eq_self]
  case gapless =>
    simp only [Server.Gapless, Op.tenantID, hp, h.guardrails]
    exact hg

/-- What a fast publish that succeeds has done. -/
structure FastPublished (lib : Library) (s : Server) (tenantID mode change : String) (s' : Server)
    (published : PolicyRow) (version : Version) (snapshot : TenantRuntimeSnapshot) : Prop where
  store : s'.store = { s.store with policies := s.store.policies ++ [published] }
  tenant : published.tenantID = tenantID
  number : published.version = activeVersion s.guardrails tenantID + 1
  free : ∀ row ∈ s.store.policies, row.tenantID = tenantID → row.version ≠ published.version
  change : published.changeType.text = change
  guardrails : activeVersion s'.guardrails tenantID = published.version
  latest : s'.store.latest tenantID = some version
  compiled : compileVersion lib s'.store tenantID version
    (some (overlayPolicy mode published.toPolicy))
    = .ok snapshot
  registry : s'.registry = s.registry.activateTenant snapshot.tenantRef snapshot

theorem fastPublished_of_perform {p : Policy} {change : String}
    (h : (Op.fastPublish tenantID p change order).perform lib regexps s = some s') :
    ∃ published version snapshot,
      FastPublished lib s tenantID
        (overlayMode (s.registry.tenantByID order tenantID) change) change s'
        published version snapshot := by
  simp only [Op.perform] at h
  split at h
  · rename_i s₁ row hr
    obtain rfl := Option.some.inj h
    simp only [fastPublishGuardrail] at hr
    split at hr
    · simp at hr
    · rename_i policies guardrails published hp
      obtain ⟨rfl, ht, hn, hch, ha, hf⟩ := fastPublish_spec hp
      split at hr
      · simp at hr
      · rename_i s₂ snapshot ho
        obtain ⟨rfl, -⟩ := Prod.mk.inj hr
        obtain ⟨version, hl, hc, rfl⟩ := overlayGuardrail_eq_ok.mp ho
        exact ⟨published, version, snapshot, rfl, ht, hn, hf, hch, ha, hl, hc, rfl⟩
  · simp at h

namespace FastPublished

variable {mode change : String} {published : PolicyRow}

section

variable (h : FastPublished lib s tenantID mode change s' published version snapshot)

include h

/-- The policies that are stored were all older. -/
theorem older (hg : s.Gapless tenantID) :
    ∀ row ∈ s.store.policies, row.tenantID = tenantID → row.version < published.version := by
  intro row hr hte
  by_contra hno
  have hn := h.number
  -- A newer one would have the number taken that the policy was stored with.
  obtain ⟨taken, htak, hta, ht⟩ := hg row hr hte (by omega)
  exact h.free taken htak hta (ht.trans hn.symm)

theorem activePolicy_eq (hg : s.Gapless tenantID) :
    activePolicy s'.store.policies tenantID = some published := by
  have hf : (s.store.policies ++ [published]).filter (·.tenantID = tenantID)
      = s.store.policies.filter (·.tenantID = tenantID) ++ [published] := by
    simp [h.tenant]
  rw [h.store, activePolicy, hf]
  refine newest_append_of_lt fun row hr => ?_
  obtain ⟨hm, ht⟩ := mem_filter.mp hr
  exact h.older hg row hm (by simpa using ht)

theorem done {p : Policy} (hm : overlayMode (s.registry.tenantByID order tenantID) change = mode)
    (hg : s.Gapless tenantID) :
    Op.Done lib s (.fastPublish tenantID p change order) s' version
      (version.config.overlaid (overlayPolicy mode published.toPolicy)).guardrail snapshot := by
  have hl : guardrailLoader s'.store tenantID = some (overlayPolicy change published.toPolicy) := by
    rw [guardrailLoader, h.activePolicy_eq hg, map_some, h.change]
  obtain ⟨-, hv, keys, hk, hc⟩ := compileVersion_eq_ok.mp h.compiled
  constructor
  case active =>
    refine ⟨h.latest, ?_, hv, keys, hk, hc⟩
    rw [h.registry, (compile_names hc).1]
    exact ActiveRegistry.tenant_activateTenant_self _ _ _
  case passes =>
    simp only [restartGuardrail, Op.tenantID, hl]
    exact hasErrors_overlaid _ _
  case same =>
    simp only [restartGuardrail, Op.tenantID, hl, Op.settled, hm]
    simp [TenantConfig.overlaid, overlayPolicy]
  case gapless =>
    intro row hr ht hn
    rw [h.store] at hr
    simp only [Op.tenantID, h.guardrails] at ht hn
    rcases mem_append.mp hr with hold | hne
    · exact absurd (h.older hg row hold ht) (by omega)
    · rw [mem_singleton.mp hne] at hn
      exact absurd hn (lt_irrefl _)

end

end FastPublished

theorem Op.done {op : Op} (h : op.perform lib regexps s = some s') (hg : s.Gapless op.tenantID) :
    ∃ version guardrail snapshot, Op.Done lib s op s' version guardrail snapshot := by
  cases op with
  | call req =>
    obtain ⟨version, snapshot, hp⟩ := performed_of_apply h
    exact ⟨version, _, snapshot, hp.done hg⟩
  | fastPublish tenantID p change order =>
    obtain ⟨published, version, snapshot, hpu⟩ := fastPublished_of_perform h
    exact ⟨version, _, snapshot, hpu.done rfl hg⟩

/-! ### Sequences -/

theorem gapless_of_foldlM : ∀ {ops : List Op} {s s' : Server},
    ops.foldlM (Op.perform lib regexps) s = some s' → (∀ op ∈ ops, op.tenantID = tenantID) →
      s.Gapless tenantID → s'.Gapless tenantID := by
  intro ops
  induction ops with
  | nil =>
    intro s s' h _ hg
    obtain rfl := Option.some.inj h
    exact hg
  | cons op rest ih =>
    intro s s' h ht hg
    obtain ⟨s₁, hop, hr⟩ := bind_eq_some_iff.mp h
    obtain rfl := ht op (by simp)
    obtain ⟨version, guardrail, snapshot, hd⟩ := Op.done hop hg
    exact ih hr (fun o ho => ht o (by simp [ho])) hd.gapless

/-- **What a restart makes of a tenant's live configuration**: after a sequence of operations that
all succeed, the restart activates one snapshot of the tenant.  It is the live one with, at most,
another guardrail policy, and it is the live one itself exactly if the last operation used the
policy that the restart uses. -/
theorem restart_keeps_iff (lib : Library) (regexps : Text → Option Regexp) (tenantID : String)
    (s₀ s₁ s₂ : Server) (ops : List Op) (op : Op) (hgapless : s₀.Gapless tenantID)
    (htenant : ∀ o ∈ ops ++ [op], o.tenantID = tenantID)
    (hops : ops.foldlM (Op.perform lib regexps) s₀ = some s₁)
    (hop : op.perform lib regexps s₁ = some s₂) :
    ∃ live restarted, s₂.live tenantID = some live ∧ s₂.restarted lib tenantID = [restarted] ∧
      withGuardrail live restarted.guardrail = restarted ∧ (live = restarted ↔ op.settled s₁) := by
  have hg := gapless_of_foldlM hops (fun o ho => htenant o (by simp [ho])) hgapless
  obtain rfl := htenant op (by simp)
  obtain ⟨version, guardrail, snapshot, hd⟩ := Op.done hop hg
  obtain ⟨restarted, hr, hre, hs⟩ := hd.active.restarts hd.passes
  refine ⟨snapshot, restarted, ?_, hr, hre, hs.trans hd.same⟩
  rw [Server.live, hd.active.latest]
  exact hd.active.live

/-- A policy with one rule, which blocks. -/
def blocking : GuardrailPolicy :=
  ⟨"tighten", [⟨"r", "keyword", "secret", "block", ""⟩], ⟨false, "", ""⟩, ⟨false, 0⟩⟩

/-- A process of the tenant `a`, with a draft that has no rules and one that blocks. -/
def draftedBoth : Server where
  store := { Store.empty with
    drafts := (Assoc.empty.insert "d" ⟨"d", "a", 1, .editing, plainDocument "a" "acme"⟩).insert "e"
      ⟨"e", "a", 1, .editing, (plainDocument "a" "acme").withGuardrail blocking⟩ }
  registry := .new
  guardrails := .empty

def publishOf (draftID : String) : Op := .call ⟨"a", .publish draftID 1, "ann", "v", ⟨0, 0⟩⟩

/-- A policy with no rules is fast-published. -/
def loosening : Op := .fastPublish "a" ⟨"p", "a", 0, 0, []⟩ "loosen" ["acme"]

/-- What operations leave of the process. -/
def afterOps (ops : List Op) : Option Server :=
  ops.foldlM (Op.perform plainLibrary fun _ => none) draftedBoth

theorem fast_publish_survives :
    ∃ s live, afterOps [publishOf "d", loosening] = some s ∧ s.live "a" = some live ∧
      s.restarted plainLibrary "a" = [live] := by
  obtain ⟨live, restarted, hl, hr, -, hs⟩ :=
    restart_keeps_iff plainLibrary (fun _ => none) "a" draftedBoth _ _ [publishOf "d"] loosening
      (by simp [Server.Gapless, draftedBoth, Store.empty]) (by decide) rfl rfl
  obtain rfl := hs.mpr (by rfl)
  exact ⟨_, live, rfl, hl, hr⟩

/-- A rule that was published after a fast publish is live, and a restart drops it; and the mode
that a fast publish has kept becomes the name of its change. -/
theorem restart_changes_guardrail :
    ((afterOps [publishOf "d", loosening, publishOf "e"]).bind (·.live "a")).map (·.guardrail.rules)
        = some [⟨"r", "keyword", "secret", "block", ""⟩] ∧
      (afterOps [publishOf "d", loosening, publishOf "e"]).map
        (fun s => (s.restarted plainLibrary "a").map (·.guardrail.rules)) = some [[]] ∧
      ((afterOps [publishOf "e", loosening]).bind (·.live "a")).map (·.guardrail.mode)
        = some "tighten" ∧
      (afterOps [publishOf "e", loosening]).map
        (fun s => (s.restarted plainLibrary "a").map (·.guardrail.mode)) = some ["loosen"] := by
  decide +kernel

/-! ### What an overlay leaves alone -/

/-- **When an overlay changes only what it is given.**  The snapshot that an overlay activates is
the one of the published version but for the mode and the rules of the guardrail policy, exactly if
the published policy has neither a judge nor a groundedness check. -/
theorem overlay_frame_iff {policy : Runtime.GuardrailPolicy} {base overlaid : TenantRuntimeSnapshot}
    (hl : s.store.latest tenantID = some version)
    (hbase : compileVersion lib s.store tenantID version none = .ok base)
    (hover : overlayGuardrail lib s tenantID policy = .ok (s', overlaid)) :
    overlaid = withGuardrail base
        { base.guardrail with mode := policy.mode, rules := policy.rules } ↔
      version.config.guardrail.judge = ⟨false, "", ""⟩ ∧
        version.config.guardrail.groundedness = ⟨false, 0⟩ := by
  obtain ⟨_, hl', hv, -⟩ := overlayGuardrail_eq_ok.mp hover
  obtain rfl := Option.some.inj (hl.symm.trans hl')
  obtain ⟨-, -, keys, hk, hb⟩ := compileVersion_eq_ok.mp hbase
  obtain ⟨-, -, keys', hk', ho⟩ := compileVersion_eq_ok.mp hv
  obtain rfl := Except.ok.inj (hk.symm.trans hk')
  obtain ⟨hs, -⟩ := compile_guardrail_inj (hasErrors_overlaid version.config policy) hb ho
  obtain ⟨-, apiKeys, -, rfl⟩ := compile_eq_ok.mp hb
  rw [hs]
  constructor
  · intro h
    obtain ⟨-, -, -, hj, hgr⟩ :=
      Runtime.GuardrailPolicy.mk.inj (congrArg (TenantRuntimeSnapshot.guardrail ·) h)
    exact ⟨hj.symm, hgr.symm⟩
  · rintro ⟨hj, hgr⟩
    refine congrArg _ ((Runtime.GuardrailPolicy.mk.injEq ..).mpr ?_)
    exact ⟨rfl, rfl, rfl, hj.symm, hgr.symm⟩

/-- A published version whose policy has this judge. -/
def judged (judge : Runtime.GuardrailJudge) : Version :=
  ⟨"v", "a", 1, "d", (plainDocument "a" "acme").withGuardrail ⟨"enforce", [], judge, ⟨false, 0⟩⟩,
    "ann", ⟨0, 0⟩⟩

def judging (judge : Runtime.GuardrailJudge) : Server where
  store := { Store.empty with versions := [judged judge] }
  registry := .new
  guardrails := .empty

/-- The rules of a policy that blocks, with neither a judge nor a groundedness check. -/
def tightening : Runtime.GuardrailPolicy := blocking.compile (plainDocument "a" "acme").tenant

theorem overlay_without_judge :
    ∃ base s' overlaid,
      compileVersion plainLibrary (judging ⟨false, "", ""⟩).store "a" (judged ⟨false, "", ""⟩) none
        = .ok base ∧
      overlayGuardrail plainLibrary (judging ⟨false, "", ""⟩) "a" tightening = .ok (s', overlaid) ∧
      overlaid = withGuardrail base
        { base.guardrail with mode := tightening.mode, rules := tightening.rules } := by
  obtain ⟨base, hb⟩ : ∃ base, compileVersion plainLibrary (judging ⟨false, "", ""⟩).store "a"
    (judged ⟨false, "", ""⟩) none = .ok base := ⟨_, rfl⟩
  obtain ⟨⟨s', overlaid⟩, ho⟩ : ∃ r,
    overlayGuardrail plainLibrary (judging ⟨false, "", ""⟩) "a" tightening = .ok r := ⟨_, rfl⟩
  exact ⟨base, s', overlaid, hb, ho, (overlay_frame_iff rfl hb ho).mpr ⟨rfl, rfl⟩⟩

/-- The judge of the published policy is gone. -/
theorem overlay_drops_judge :
    (compileVersion plainLibrary (judging ⟨true, "m", "block"⟩).store "a"
      (judged ⟨true, "m", "block"⟩) none).map (·.guardrail.judge) = .ok ⟨true, "m", "block"⟩ ∧
    (overlayGuardrail plainLibrary (judging ⟨true, "m", "block"⟩) "a" tightening).map
      (·.2.guardrail.judge) = .ok ⟨false, "", ""⟩ :=
  ⟨rfl, rfl⟩

end LiteAIG.Config
