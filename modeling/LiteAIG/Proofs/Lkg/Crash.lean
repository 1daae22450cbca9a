/-
What a save leaves behind, and what can be booted from it.

However `Save` ends, the two bundles of the directory are in one of four states,
`Left`, and each of them comes about (`left_of_save`, `save_of_left`).  Loading
depends on these two files only.  The step that gives nothing up in return is the
rotation: it replaces the previous bundle, by the active one, before the new one is
in place.  Where the active bundle is the one that boots this is right; where it is
not, the only good bundle is gone.
-/
import LiteAIG.Lib.Except
import LiteAIG.Lkg.Store

namespace LiteAIG.Lkg

open Lib Option
open LiteAIG.Runtime

section

variable {φ : Type} {d d' : TenantDir φ} {data : φ}

/-- The active and the previous bundle once a save has ended, in whatever way. -/
inductive Left (d : TenantDir φ) (data : φ) : Option φ → Option φ → Prop
  | untouched : Left d data d.active d.previous
  | rotated {file : φ} (h : d.active = some file) : Left d data none (some file)
  | replaced : Left d data (some data) d.previous
  | complete {file : φ} (h : d.active = some file) : Left d data (some data) (some file)

theorem bind_eq {α β : Type} (p : Proc φ α) (f : α → Proc φ β) (d : TenantDir φ) :
    (p >>= f) d =
      match p d with
      | (.ok a, d') => f a d'
      | (.error ha, d') => (.error ha, d') := rfl

/-- A call that changes only the temporary file, and what comes after it. -/
theorem bind_call_dir {c : Call} {fates : Call → Fate} {good bad : TenantDir φ → TenantDir φ}
    {rest : Proc φ Unit} {P : TenantDir φ → Prop} (hb : P (bad d))
    (hg : P (rest (good d)).2) : P ((call fates c good bad >>= fun _ => rest) d).2 := by
  rw [bind_eq, call]
  cases fates c with
  | done => exact hg
  | failed => exact hb
  | crashed => exact hb

/-- Both files are as they were, or the active one is the new one. -/
def Written (d : TenantDir φ) (data : φ) (d' : TenantDir φ) : Prop :=
  d'.previous = d.previous ∧ (d'.active = d.active ∨ d'.active = some data)

variable (fates : Call → Fate)

theorem writeAtomic_dir (torn data : φ) (d : TenantDir φ) :
    Written d data (writeAtomic fates torn data d).2 := by
  unfold writeAtomic
  refine bind_call_dir (P := Written d data) ⟨rfl, .inl rfl⟩ ?_
  refine bind_call_dir (P := Written d data) ⟨rfl, .inl rfl⟩ ?_
  refine bind_call_dir (P := Written d data) ⟨rfl, .inl rfl⟩ ?_
  refine bind_call_dir (P := Written d data) ⟨rfl, .inl rfl⟩ ?_
  unfold call
  cases fates .rename with
  | done => exact ⟨rfl, .inr rfl⟩
  | failed => exact ⟨rfl, .inl rfl⟩
  | crashed => exact ⟨rfl, .inl rfl⟩

theorem rotateActive_dir (d : TenantDir φ) :
    let d' := (rotateActive fates d).2
    (d'.active = d.active ∧ d'.previous = d.previous) ∨
      ∃ file, d.active = some file ∧ d'.active = none ∧ d'.previous = some file := by
  unfold rotateActive
  cases fates .stat with
  | crashed => exact .inl ⟨rfl, rfl⟩
  | failed => exact .inl ⟨rfl, rfl⟩
  | done =>
    cases ha : d.active with
    | none => exact .inl ⟨ha, rfl⟩
    | some file =>
      cases fates .rotate with
      | crashed => exact .inl ⟨ha, rfl⟩
      | failed => exact .inl ⟨ha, rfl⟩
      | done => exact .inr ⟨file, rfl, rfl, rfl⟩

section

variable {codec : Codec φ} (torn : φ) {bundle : Bundle} (hdata : codec.marshal bundle = .ok data)
include hdata

/-- **Whatever becomes of its calls, a save leaves one of the four states.** -/
theorem left_of_save (d : TenantDir φ) :
    let d' := (save fates codec torn bundle d).2
    Left d data d'.active d'.previous := by
  unfold save
  rw [hdata]
  refine bind_call_dir (P := fun d' => Left d data d'.active d'.previous) .untouched ?_
  rw [bind_eq, id_eq]
  have hr := rotateActive_dir fates d
  generalize rotateActive fates d = r at hr
  obtain ⟨result, d₁⟩ := r
  -- a save that stopped at the rotation has the files the rotation left
  have hs : Left d data d₁.active d₁.previous := by
    rcases hr with ⟨ha, hp⟩ | ⟨file, hf, ha, hp⟩
    · exact ha ▸ hp ▸ .untouched
    · exact ha ▸ hp ▸ .rotated hf
  cases result with
  | error hal => exact hs
  | ok _ =>
    obtain ⟨hpr, hac⟩ := writeAtomic_dir fates torn data d₁
    show Left d data (writeAtomic fates torn data d₁).2.active
      (writeAtomic fates torn data d₁).2.previous
    rw [hpr]
    rcases hac with hac | hac
    · rw [hac]
      exact hs
    · rw [hac]
      rcases hr with ⟨-, hp⟩ | ⟨file, hf, -, hp⟩
      · exact hp ▸ .replaced
      · exact hp ▸ .complete hf

/-- Each of the four states is left by some save. -/
theorem save_of_left {a p : Option φ} (h : Left d data a p) :
    ∃ fates, (save fates codec torn bundle d).2.active = a ∧
      (save fates codec torn bundle d).2.previous = p := by
  unfold save
  rw [hdata]
  cases h with
  | untouched => exact ⟨fun _ => .crashed, rfl, rfl⟩
  | rotated h =>
    obtain ⟨active, previous, temp⟩ := d
    subst h
    exact ⟨fun c => if c = .create then .crashed else .done, rfl, rfl⟩
  | replaced => exact ⟨fun c => if c = .stat then .failed else .done, rfl, rfl⟩
  | complete h =>
    obtain ⟨active, previous, temp⟩ := d
    subst h
    exact ⟨fun _ => .done, rfl, rfl⟩

end

end

/-! ### Booting from what is left -/

section

variable {φ : Type} (codec : Codec φ) (verifier : Bundle → Except String Unit)

/-- The bundle of a file that can be read and is accepted. -/
def accepted (file : Option φ) : Option Bundle := (candidate codec verifier file).toOption

/-- What is booted from an active and a previous file. -/
def boots (active previous : Option φ) : Option Bundle :=
  (accepted codec verifier active).or (accepted codec verifier previous)

variable {codec verifier} {b : Bundle} {file : Option φ} {d : TenantDir φ}

theorem loadVerified_eq_ok :
    loadVerified codec (some verifier) d = .ok b ↔
      boots codec verifier d.active d.previous = some b := by
  unfold loadVerified boots accepted
  cases ha : candidate codec verifier d.active with
  | ok bundle => simp [ha, Except.toOption]
  | error e =>
    cases hp : candidate codec verifier d.previous with
    | ok bundle => simp [ha, hp, Except.toOption]
    | error e' => simp [ha, hp, Except.toOption]

theorem read_eq_ok :
    read codec file = .ok b ↔ (∃ data, file = some data ∧ codec.unmarshal data = .ok b) ∧
        ¬ (b.tenantRef = "" ∨ b.configVersion = 0) := by
  unfold read
  grind

theorem candidate_eq_ok :
    candidate codec verifier file = .ok b ↔ read codec file = .ok b ∧ verifier b = .ok () := by
  unfold candidate
  grind

/-- A file is accepted as the bundle it holds, and by what that bundle is. -/
theorem accepted_eq_some :
    accepted codec verifier file = some b ↔
      (∃ data, file = some data ∧ codec.unmarshal data = .ok b) ∧
        ¬ (b.tenantRef = "" ∨ b.configVersion = 0) ∧ verifier b = .ok () := by
  rw [accepted, toOption_eq_some, candidate_eq_ok, read_eq_ok, and_assoc]

theorem accepted_none : accepted codec verifier none = none := rfl

/-- A save of the bundle that ends like this is safe: what could be booted from can still be, or
the new bundle can. -/
def CrashSafe (codec : Codec φ) (verifier : Bundle → Except String Unit) (d : TenantDir φ)
    (bundle : Bundle) (fates : Call → Fate) (torn : φ) : Prop :=
  ∀ b, loadVerified codec (some verifier) d = .ok b →
    let d' := (save fates codec torn bundle d).2
    loadVerified codec (some verifier) d' = .ok b ∨
      loadVerified codec (some verifier) d' = .ok bundle

/-- The bundle cannot be encoded; or nothing can be booted from the directory anyway; or there is
no active bundle; or the active bundle is accepted, and the new one is too or the previous one is
the same as the active. -/
def Safe (codec : Codec φ) (verifier : Bundle → Except String Unit) (d : TenantDir φ)
    (bundle : Bundle) : Prop :=
  match codec.marshal bundle with
  | .error _ => True
  | .ok data =>
    (accepted codec verifier d.active = none ∧ accepted codec verifier d.previous = none) ∨
    d.active = none ∨
    accepted codec verifier d.active ≠ none ∧
      (accepted codec verifier (some data) ≠ none ∨
        accepted codec verifier d.previous = accepted codec verifier d.active)

/-- The new bundle is accepted from its file when it is accepted from any. -/
theorem accepted_marshal {bundle : Bundle} {data : φ} (h : codec.marshal bundle = .ok data) :
    accepted codec verifier (some data) = some b ↔
      b = bundle ∧ ∃ file, accepted codec verifier file = some bundle := by
  have hr := codec.roundTrip h
  constructor
  · intro hb
    obtain ⟨⟨x, hx, hbu⟩, -⟩ := accepted_eq_some.mp hb
    cases hx
    have hs : b = bundle := Except.ok.inj (hbu.symm.trans hr)
    exact ⟨hs, some data, hs ▸ hb⟩
  · rintro ⟨rfl, file, hf⟩
    obtain ⟨-, hv⟩ := accepted_eq_some.mp hf
    exact accepted_eq_some.mpr ⟨⟨data, rfl, hr⟩, hv⟩

/-- Each of the four states that can be left is safe. -/
def LeavesBootable (codec : Codec φ) (verifier : Bundle → Except String Unit) (d : TenantDir φ)
    (bundle : Bundle) (data : φ) : Prop :=
  ∀ a p, Left d data a p → ∀ b, boots codec verifier d.active d.previous = some b →
    boots codec verifier a p = some b ∨ boots codec verifier a p = some bundle

section

variable {d : TenantDir φ} {bundle : Bundle} {data : φ} (hdata : codec.marshal bundle = .ok data)

include hdata

theorem crashSafe_iff_leavesBootable :
    (∀ fates torn, CrashSafe codec verifier d bundle fates torn) ↔
      LeavesBootable codec verifier d bundle data := by
  simp only [CrashSafe, loadVerified_eq_ok]
  constructor
  · intro h a p hl b hb
    obtain ⟨fates, rfl, rfl⟩ := save_of_left data hdata hl
    exact h fates data b hb
  · intro h fates torn b hb
    exact h _ _ (left_of_save fates torn hdata d) b hb

/-- With a rejected active bundle, the rotation loses the previous one; with an accepted one, a
rejected bundle that replaces it loses it. -/
theorem safe_of_leavesBootable (h : LeavesBootable codec verifier d bundle data) :
    Safe codec verifier d bundle := by
  simp only [Safe, hdata]
  by_contra hu
  obtain ⟨hbo, hpr, hac⟩ := not_or.mp hu |>.imp_right not_or.mp
  obtain ⟨file, hf⟩ := ne_none_iff_exists'.mp hpr
  cases ha : accepted codec verifier d.active with
  | none =>
    -- the crash right after the rotation: the rejected bundle is all there is
    cases hp : accepted codec verifier d.previous with
    | none => exact hbo ⟨ha, hp⟩
    | some b =>
      have hl := h _ _ (.rotated hf) b (by simp [boots, ha, hp])
      rw [hf] at ha
      simp [boots, ha, accepted_none] at hl
  | some b =>
    -- the new bundle replaces the accepted one without a rotation
    rw [ha] at hac
    have hr : accepted codec verifier (some data) = none := by
      by_contra hc
      exact hac ⟨by simp, .inl hc⟩
    rcases h _ _ .replaced b (by simp [boots, ha]) with hb | hb
    · rw [boots, hr, none_or] at hb
      exact hac ⟨by simp, .inr hb⟩
    · rw [boots, hr, none_or] at hb
      have := (accepted_marshal hdata).mpr ⟨rfl, _, hb⟩
      rw [hr] at this
      cases this

theorem leavesBootable_of_safe (hs : Safe codec verifier d bundle) :
    LeavesBootable codec verifier d bundle data := by
  simp only [Safe, hdata] at hs
  intro a p hl b hb
  have hne : ∀ b', accepted codec verifier (some data) = some b' → b' = bundle :=
    fun _ h => ((accepted_marshal hdata).mp h).1
  -- what was booted was the active bundle, if there is one
  have hbo : d.active ≠ none → accepted codec verifier d.active = some b := by
    intro hpr
    rcases hs with ⟨ha, hp⟩ | hn | ⟨ha, -⟩
    · simp [boots, ha, hp] at hb
    · exact absurd hn hpr
    · obtain ⟨x, hx⟩ := ne_none_iff_exists'.mp ha
      rw [boots, hx, some_or] at hb
      rw [hx, hb]
  cases hl with
  | untouched => exact .inl hb
  | rotated hf =>
    have ha := hbo (by simp [hf])
    rw [hf] at ha
    exact .inl (by simp [boots, accepted_none, ha])
  | replaced =>
    cases hr : accepted codec verifier (some data) with
    | none =>
      refine .inl ?_
      rw [boots, hr, none_or]
      rcases hs with ⟨ha, hp⟩ | hn | ⟨ha, hc | hp⟩
      · simp [boots, ha, hp] at hb
      · simpa [boots, hn, accepted_none] using hb
      · exact absurd hr hc
      · rw [hp]
        exact hbo (fun hc => ha (by rw [hc, accepted_none]))
    | some b' => exact .inr (by rw [boots, hr, some_or, hne b' hr])
  | complete hf =>
    cases hr : accepted codec verifier (some data) with
    | none =>
      have ha := hbo (by simp [hf])
      rw [hf] at ha
      exact .inl (by rw [boots, hr, none_or, ha])
    | some b' => exact .inr (by rw [boots, hr, some_or, hne b' hr])

end

/-- **A save is safe at every point at which it may fail or crash exactly when the directory and
the bundle are `Safe`.** -/
theorem save_crash_safe_iff (codec : Codec φ) (verifier : Bundle → Except String Unit)
    (d : TenantDir φ) (bundle : Bundle) :
    (∀ fates torn, CrashSafe codec verifier d bundle fates torn) ↔
      Safe codec verifier d bundle := by
  cases hdata : codec.marshal bundle with
  | ok data =>
    exact (crashSafe_iff_leavesBootable hdata).trans
      ⟨safe_of_leavesBootable hdata, leavesBootable_of_safe hdata⟩
  | error e =>
    refine ⟨fun _ => by simp only [Safe, hdata], fun _ fates torn b hb => Or.inl ?_⟩
    -- nothing was done
    simpa only [save, hdata] using hb

end

/-! ### The only good bundle -/

/-- Files that hold a bundle or nothing that can be decoded. -/
def plainCodec : Codec (Option Bundle) where
  marshal bundle := .ok (some bundle)
  unmarshal
    | some bundle => .ok bundle
    | none => .error "unexpected end of JSON input"
  roundTrip := by
    intro bundle data h
    cases h
    rfl

/-- A bundle the data plane boots from. -/
def bootable (version : Int) : Bundle where
  schemaVersion := "v1"
  tenantID := "t"
  tenantRef := "acme"
  configVersion := version
  securityEpoch := 0
  payloadChecksum := ""
  signature := []
  snapshotData := some { TenantSnapshotData.zero with
    tenantID := "t", tenantRef := "acme", version }

/-- The active file is broken and the previous one is good.  The save crashes once the active
file is moved over the previous one. -/
theorem rotation_loses_only_good_bundle :
    let d : TenantDir (Option Bundle) := ⟨some none, some (some (bootable 1)), none⟩
    let crash : Call → Fate := fun c => if c = .create then .crashed else .done
    loadVerified plainCodec (some verifyLKGBundle) d = .ok (bootable 1) ∧
      (loadVerified plainCodec (some verifyLKGBundle)
        (save crash plainCodec none (bootable 2) d).2).isOk = false ∧
      ¬ CrashSafe plainCodec verifyLKGBundle d (bootable 2) crash none := by
  refine ⟨rfl, rfl, fun h => ?_⟩
  rcases h (bootable 1) rfl with h | h <;> cases h

end LiteAIG.Lkg
