/-
Which version is live when the calls are done.

Numbers are given out in the transactions and grow; what goes live last is a matter of
who activates last.  If no call activates a version while a newer one is live, then
every stored version is waiting for its call to activate it or is no newer than what
is live, and with no call left in between the newest one is live.
-/
import LiteAIG.Proofs.Config.Publish

namespace LiteAIG.Config

open Lib Option Threads
open LiteAIG.Runtime (ActiveRegistry TenantRuntimeSnapshot)

variable {lib : Library} {req : Request} {tenantID ref : String}

/-- The live snapshot carries the highest stored number; nothing is live if nothing is stored. -/
def Converged (tenantID ref : String) (s : Server) : Prop :=
  (s.registry.tenant ref).map (·.version) = (s.store.latest tenantID).map (·.version)

/-- The version a call has stored and not yet activated. -/
def Phase.pending : Phase → Option Version
  | .written _ _ _ version => some version
  | _ => none

/-- The document a call is about. -/
def Phase.config : Phase → Option TenantConfig
  | .read config | .validated config _ | .tried config _ _ | .written config _ _ _ => some config
  | _ => none

/-- The condition on a step: what it reads names the tenant's reference, and it activates no version
while a newer one is live.  Nobody sets the system's defaults, which would reconcile the tenant. -/
def Call.inTurn (ref : String) (s : Server) (t : Call) (a : Action) : Bool :=
  t.inOrder s a &&
    match a with
    | .step _ =>
      match t.phase with
      | .started => (s.store.document t.request).toOption.all (·.tenant.publicRef = ref)
      | .written _ _ _ version => (s.registry.tenant ref).all (·.version ≤ version.version)
      | _ => true
    | .setSystemConfig _ => false
    | _ => true

/-! ### One step -/

section

variable {s s' : Server} {phase phase' : Phase} {fault : Option Fault}

/-- A call goes on with the document it has read, and that names the reference. -/
theorem Advanced.names (h : Advanced lib req s phase fault s' phase')
    (hok : Call.inTurn ref s ⟨req, phase⟩ (.step fault) = true)
    (hn : ∀ cfg ∈ phase.config, cfg.tenant.publicRef = ref) :
    ∀ cfg ∈ phase'.config, cfg.tenant.publicRef = ref := by
  cases h with
  | reads hd =>
    intro cfg hc
    obtain rfl := Option.some.inj hc
    simpa [Call.inTurn, hd, Except.toOption] using (Bool.and_eq_true_iff.mp hok).2
  | validates | tries | writes => exact hn
  | fails | loses | breaks | activates => exact fun _ h => absurd h (by simp [Phase.config])
  | rests => exact hn

/-- What a step is to those who wait for the newest version: nothing, a new version that its call
has yet to activate, or the activation of one that is no older than what is live. -/
inductive Moved (tenantID ref : String) (s : Server) (phase : Phase) (s' : Server)
    (phase' : Phase) : Prop
  | nothing (versions : s'.store.versions = s.store.versions) (registry : s'.registry = s.registry)
      (pending : phase'.pending = phase.pending)
  | stored (version : Version) (versions : s'.store.versions = s.store.versions ++ [version])
      (tenant : version.tenantID = tenantID) (registry : s'.registry = s.registry)
      (before : phase.pending = none) (after : phase'.pending = some version)
  | activated (version : Version) (snapshot : TenantRuntimeSnapshot)
      (versions : s'.store.versions = s.store.versions)
      (registry : s'.registry = s.registry.activateTenant ref snapshot)
      (number : snapshot.version = version.version)
      (newest : ∀ live ∈ s.registry.tenant ref, live.version ≤ version.version)
      (before : phase.pending = some version) (after : phase'.pending = none)

theorem Advanced.moved (h : Advanced lib req s phase fault s' phase')
    (ht : req.tenantID = tenantID) (hs : phase.Sound lib req s.store)
    (hn : ∀ cfg ∈ phase.config, cfg.tenant.publicRef = ref)
    (hok : Call.inTurn ref s ⟨req, phase⟩ (.step fault) = true) :
    Moved tenantID ref s phase s' phase' := by
  obtain ⟨ho, htu⟩ := Bool.and_eq_true_iff.mp hok
  cases h with
  | fails error hno =>
    refine .nothing rfl rfl ?_
    cases phase <;> simp_all [Phase.pending, Phase.stored]
  | reads | validates | tries | rests => exact .nothing rfl rfl rfl
  | loses => simp [Call.inOrder] at ho
  | writes hw =>
    exact .stored _ hw.versions (hw.tenantID.trans ht) rfl rfl rfl
  | @breaks _ _ _ ver _ error hc =>
    obtain ⟨rfl, hp⟩ := hs
    obtain ⟨snap, hsn⟩ := hp.compiles ver.version ver.publishedAt
    exact absurd (hc.symm.trans hsn) (by simp)
  | @activates _ _ _ ver _ snap hc =>
    obtain ⟨rfl, -⟩ := hs
    refine .activated ver snap rfl ?_ (compile_names hc).2.2 ?_ rfl rfl
    · rw [Server.activate, (compile_names hc).1, hn _ rfl]
    · intro live hl
      have ha : (s.registry.tenant ref).all (·.version ≤ ver.version) = true := htu
      rw [mem_def.mp hl] at ha
      simpa using ha

theorem act_moved {t : Call} {a : Action} (ht : t.request.tenantID = tenantID)
    (hs : t.phase.Sound lib t.request s.store)
    (hn : ∀ cfg ∈ t.phase.config, cfg.tenant.publicRef = ref) (hok : t.inTurn ref s a) :
    Moved tenantID ref s t.phase (act lib s t a).1 (act lib s t a).2.phase := by
  rcases act_cases lib s t a with ⟨fault, rfl⟩ | ⟨hsa, -, hv, hr⟩
  · exact (advanced_advance lib t.request s t.phase fault).moved ht hs hn hok
  · rcases hr with hr | ⟨doc, rfl⟩
    · exact .nothing hv hr (by rw [hsa])
    · simp [Call.inTurn] at hok

end

/-! ### Runs -/

theorem versionsOf_same {s s' : Store} (h : s'.versions = s.versions) :
    s'.versionsOf tenantID = s.versionsOf tenantID := by
  rw [Store.versionsOf, h, Store.versionsOf]

/-- A call of the tenant, as far as it has come. -/
structure Call.Fit (lib : Library) (tenantID ref : String) (s : Server) (t : Call) : Prop where
  sound : t.phase.Sound lib t.request s.store
  tenant : t.request.tenantID = tenantID
  names : ∀ config ∈ t.phase.config, config.tenant.publicRef = ref

theorem act_fit (s : Server) (t : Call) (a : Action) (ht : t.Fit lib tenantID ref s)
    (hok : t.inTurn ref s a) :
    (act lib s t a).2.Fit lib tenantID ref (act lib s t a).1 ∧
      ∀ t' : Call, t'.Fit lib tenantID ref s → t'.Fit lib tenantID ref (act lib s t a).1 := by
  obtain ⟨hso, ho⟩ := act_sound lib s t a ht.sound (Bool.and_eq_true_iff.mp hok).1
  refine ⟨⟨hso, ?_, ?_⟩, fun t' ht' => ⟨ho t' ht'.sound, ht'.tenant, ht'.names⟩⟩
  · rcases act_cases lib s t a with ⟨fault, rfl⟩ | ⟨hs, -⟩
    · exact ht.tenant
    · rw [hs]
      exact ht.tenant
  · rcases act_cases lib s t a with ⟨fault, rfl⟩ | ⟨hs, -⟩
    · exact (advanced_advance lib t.request s t.phase fault).names hok ht.names
    · rw [hs]
      exact ht.names

section

variable {κ : Type} [DecidableEq κ]

/-- Every stored version waits for its call to activate it, or is no newer than what is live. -/
structure Waiting (tenantID ref : String) (w : Threads Server κ Call) : Prop where
  stored : ∀ k, ∀ version ∈ (w.own k).phase.pending, version ∈ w.shared.store.versionsOf tenantID
  live : ∀ snapshot ∈ w.shared.registry.tenant ref,
    ∃ version ∈ w.shared.store.versionsOf tenantID, version.version = snapshot.version
  covered : ∀ version ∈ w.shared.store.versionsOf tenantID,
    (∃ k, version ∈ (w.own k).phase.pending) ∨
      ∃ snapshot ∈ w.shared.registry.tenant ref, version.version ≤ snapshot.version

variable {w : Threads Server κ Call}

/-- What is pending after a step of one call. -/
theorem pending_step {k k' : κ} {a : Action} {ver : Version} :
    ver ∈ ((w.step (act lib) (k, a)).own k').phase.pending ↔
      k' = k ∧ ver ∈ (act lib w.shared (w.own k) a).2.phase.pending ∨
        k' ≠ k ∧ ver ∈ (w.own k').phase.pending := by
  by_cases hk : k' = k
  · subst hk
    simp [step_own_self]
  · simp [step_own_ne w hk, hk]

theorem Waiting.step (h : Waiting tenantID ref w) (k : κ) (a : Action)
    (hm : Moved tenantID ref w.shared (w.own k).phase (act lib w.shared (w.own k) a).1
      (act lib w.shared (w.own k) a).2.phase) :
    Waiting tenantID ref (w.step (act lib) (k, a)) := by
  cases hm with
  | nothing versions registry pending =>
    have hs : ∀ k' ver, ver ∈ ((w.step (act lib) (k, a)).own k').phase.pending ↔
        ver ∈ (w.own k').phase.pending := by
      intro k' ver
      rw [pending_step, pending]
      by_cases hk : k' = k <;> simp [hk]
    refine ⟨fun k' ver hp => ?_, ?_, fun ver hme => ?_⟩
    · rw [Threads.step, versionsOf_same versions]
      exact h.stored k' ver ((hs k' ver).mp hp)
    · rw [Threads.step, registry, versionsOf_same versions]
      exact h.live
    · rw [Threads.step, versionsOf_same versions] at hme
      simp only [hs]
      rw [Threads.step, registry]
      exact h.covered ver hme
  | stored new versions tenant registry before after =>
    refine ⟨fun k' ver hp => ?_, fun snapshot hl => ?_, fun ver hme => ?_⟩
    · rw [Threads.step, versionsOf_append versions tenant]
      rcases pending_step.mp hp with ⟨-, hne⟩ | ⟨-, hold⟩
      · obtain rfl := Option.some.inj (after.symm.trans hne)
        simp
      · exact List.mem_append_left _ (h.stored k' ver hold)
    · rw [Threads.step, registry] at hl
      obtain ⟨ver, hme, hn⟩ := h.live snapshot hl
      rw [Threads.step, versionsOf_append versions tenant]
      exact ⟨ver, List.mem_append_left _ hme, hn⟩
    · rw [Threads.step, versionsOf_append versions tenant] at hme
      rcases List.mem_append.mp hme with hold | hne
      · rcases h.covered ver hold with ⟨k', hp⟩ | hl
        · refine .inl ⟨k', pending_step.mpr (.inr ⟨?_, hp⟩)⟩
          rintro rfl
          simp [before] at hp
        · rw [Threads.step, registry]
          exact .inr hl
      · obtain rfl := List.mem_singleton.mp hne
        exact .inl ⟨k, pending_step.mpr (.inl ⟨rfl, after⟩)⟩
  | activated new snapshot versions registry number newest before after =>
    have hl : (w.step (act lib) (k, a)).shared.registry.tenant ref = some snapshot := by
      rw [Threads.step, registry, ActiveRegistry.tenant_activateTenant_self]
    have hr : (w.step (act lib) (k, a)).shared.store.versionsOf tenantID
        = w.shared.store.versionsOf tenantID := versionsOf_same versions
    refine ⟨fun k' ver hp => ?_, fun live hme => ?_, fun ver hme => ?_⟩
    · rcases pending_step.mp hp with ⟨-, hne⟩ | ⟨-, hold⟩
      · simp [after] at hne
      · exact hr ▸ h.stored k' ver hold
    · obtain rfl := Option.some.inj (hl.symm.trans hme)
      exact ⟨new, hr ▸ h.stored k new before, number.symm⟩
    · rcases h.covered ver (hr ▸ hme) with ⟨k', hp⟩ | ⟨old, hold, hle⟩
      · by_cases hk : k' = k
        · subst hk
          obtain rfl := Option.some.inj (before.symm.trans hp)
          exact .inr ⟨snapshot, hl, number.ge⟩
        · exact .inl ⟨k', pending_step.mpr (.inr ⟨hk, hp⟩)⟩
      · exact .inr ⟨snapshot, hl, number ▸ hle.trans (newest old hold)⟩

omit [DecidableEq κ] in
theorem waiting_begun {s : Server} (reqs : κ → Request) (h : Converged tenantID ref s) :
    Waiting tenantID ref (begun s reqs) := by
  refine ⟨fun k ver hp => ?_, fun snapshot hm => ?_, fun ver hm => ?_⟩
  · exact absurd hp (by simp [begun, Phase.pending])
  · have hli : s.registry.tenant ref = some snapshot := hm
    rw [Converged, hli] at h
    obtain ⟨ver, hl, hn⟩ := map_eq_some_iff.mp h.symm
    exact ⟨ver, (newest_spec hl).1, hn⟩
  · have hs : ver ∈ s.store.versionsOf tenantID := hm
    cases hl : s.store.latest tenantID with
    | none =>
      have he : s.store.versionsOf tenantID = [] := newest_eq_none.mp hl
      rw [he] at hs
      exact absurd hs List.not_mem_nil
    | some last =>
      rw [Converged, hl] at h
      obtain ⟨snapshot, hli, hn⟩ := map_eq_some_iff.mp h
      exact .inr ⟨snapshot, hli, hn ▸ (newest_spec hl).2 ver hs⟩

omit [DecidableEq κ] in
/-- With no call in between, the newest version is live. -/
theorem Waiting.converged (h : Waiting tenantID ref w) (hi : ∀ k, (w.own k).phase.pending = none) :
    Converged tenantID ref w.shared := by
  cases hl : w.shared.store.latest tenantID with
  | none =>
    have he : w.shared.store.versionsOf tenantID = [] := newest_eq_none.mp hl
    cases hli : w.shared.registry.tenant ref with
    | none => simp [Converged, hl, hli]
    | some snap =>
      obtain ⟨ver, hm, -⟩ := h.live snap hli
      rw [he] at hm
      exact absurd hm List.not_mem_nil
  | some last =>
    obtain ⟨hm, hma⟩ := newest_spec hl
    rcases h.covered last hm with ⟨k, hp⟩ | ⟨snap, hli, hle⟩
    · simp [hi k] at hp
    · obtain ⟨ver, hs, hn⟩ := h.live snap hli
      have hge : snap.version ≤ last.version := hn ▸ hma ver hs
      rw [Converged, mem_def.mp hli, hl]
      simp [le_antisymm hge hle]

/-- **The newest version is live when the calls of a tenant are done**: when none of them is between
its transaction and its activation, the live snapshot carries the highest stored number.  This is so
in every run in which no call activates a version while a newer one is live, every call reads a
document that names the tenant's reference, and what is published is what was validated. -/
theorem newest_goes_live (lib : Library) (tenantID ref : String) (s : Server)
    (requests : κ → Request) (htenant : ∀ k, (requests k).tenantID = tenantID)
    (hstart : Converged tenantID ref s) (steps : List (κ × Action))
    (hok : Allowed (Threads.step (act lib)) (Threads.Meets fun s t a => t.inTurn ref s a = true)
      (begun s requests) steps)
    (hidle : ∀ k, ((run (Threads.step (act lib)) (begun s requests) steps).own k).phase.pending
      = none) :
    Converged tenantID ref (run (Threads.step (act lib)) (begun s requests) steps).shared := by
  have hb : (begun s requests).Sound (fun _ => True) (Call.Fit lib tenantID ref) :=
    ⟨trivial, fun k => ⟨trivial, htenant k, fun _ h => absurd h (by simp [begun, Phase.config])⟩⟩
  have he := Allowed.invariant (I := fun w : Threads Server κ Call =>
      w.Sound (fun _ => True) (Call.Fit lib tenantID ref) ∧ Waiting tenantID ref w)
    (fun w a hw hm => ?_) steps _ ⟨hb, waiting_begun requests hstart⟩ hok
  · exact he.2.converged hidle
  · obtain ⟨k, a⟩ := a
    have hf := hw.1.own k
    obtain ⟨hs, ho⟩ := act_fit w.shared (w.own k) a hf hm
    exact ⟨.step trivial hs fun k' _ => ho _ (hw.1.own k'),
      hw.2.step k a (act_moved hf.tenant hf.sound hf.names hm)⟩

end

/-- A process of the tenant `a`, with two drafts. -/
def twiceDrafted : Server where
  store := { Store.empty with
    drafts := (Assoc.empty.insert "d" ⟨"d", "a", 1, .editing, plainDocument "a" "acme"⟩).insert "e"
      ⟨"e", "a", 1, .editing, plainDocument "a" "acme"⟩ }
  registry := .new
  guardrails := .empty

/-- One call publishes each draft. -/
def publishingBoth (second : Bool) : Request :=
  ⟨"a", .publish (if second then "e" else "d") 1, "ann", "v", ⟨0, 0⟩⟩

/-- Both calls store their version, the first one first; then they activate in some order. -/
def bothPublished (order : List Bool) : List (Bool × Action) :=
  List.replicate 4 (false, .step none) ++ List.replicate 4 (true, .step none) ++
    order.map (·, .step none)

/-- What is left when both are done. -/
def afterBoth (order : List Bool) : Threads Server Bool Call :=
  run (Threads.step (act plainLibrary)) (begun twiceDrafted publishingBoth) (bothPublished order)

theorem second_version_goes_live :
    Allowed (Threads.step (act plainLibrary))
        (Threads.Meets fun s t a => t.inTurn "acme" s a = true)
        (begun twiceDrafted publishingBoth) (bothPublished [false, true]) ∧
      ((afterBoth [false, true]).shared.store.latest "a").map (·.version) = some 2 ∧
      Converged "a" "acme" (afterBoth [false, true]).shared := by
  have hok : Allowed (Threads.step (act plainLibrary))
      (Threads.Meets fun s t a => t.inTurn "acme" s a = true)
      (begun twiceDrafted publishingBoth) (bothPublished [false, true]) := by
    decide +kernel
  refine ⟨hok, by decide +kernel, ?_⟩
  exact newest_goes_live plainLibrary "a" "acme" twiceDrafted publishingBoth (fun _ => rfl) rfl _
    hok (by decide +kernel)

/-- The first call is the last to activate: both are done, and the older version is live. -/
theorem older_version_live :
    (∀ call, ((afterBoth [true, false]).own call).phase.pending = none) ∧
      ((afterBoth [true, false]).shared.store.latest "a").map (·.version) = some 2 ∧
      ((afterBoth [true, false]).shared.registry.tenant "acme").map (·.version) = some 1 := by
  decide +kernel

end LiteAIG.Config
