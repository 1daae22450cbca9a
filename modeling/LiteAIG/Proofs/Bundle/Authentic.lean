/-
What the signature of a bundle vouches for.

Two bundles have the same payload exactly if they agree on the metadata and on the
six exported fields of the snapshot: the JSON text is read back in one way, and the
rest of the snapshot is not in it.  With a hash that has no collisions the same goes
for the checksum, so a signature can be moved to any other configuration with the
same metadata and header.
-/
import LiteAIG.Bundle.Bundle
import LiteAIG.Lib.Except

namespace LiteAIG.Bundle

open Lib LiteAIG.Runtime RuntimeBundle

/-! ### What is in the payload -/

/-- The exported fields of a snapshot. -/
structure SnapshotHeader where
  (tenantID tenantRef status : String)
  (version securityEpoch : Int)
  publishedAt : Time

structure Metadata where
  (schemaVersion tenantID tenantRef : String)
  (configVersion securityEpoch systemRuntimeVersion : Int)
  publishedAt : Time

def header (s : TenantRuntimeSnapshot) : SnapshotHeader :=
  ⟨s.tenantID, s.tenantRef, s.status, s.version, s.securityEpoch, s.publishedAt⟩

def RuntimeBundle.metadata (b : RuntimeBundle) : Metadata :=
  ⟨b.schemaVersion, b.tenantID, b.tenantRef, b.configVersion, b.securityEpoch,
    b.systemRuntimeVersion, b.publishedAt⟩

/-- What the payload is made of. -/
def RuntimeBundle.signed (b : RuntimeBundle) : Metadata × Option SnapshotHeader :=
  (b.metadata, b.snapshot.map header)

section

variable {b b' : RuntimeBundle} {j : Json}

theorem timeJson_inj {t u : Time} (ht : timeJson t = .ok j) (hu : timeJson u = .ok j) : t = u := by
  unfold timeJson at ht hu
  split at ht
  · rename_i text hte
    split at hu
    · rename_i text' htex
      have hs := Json.str.inj ((Except.ok.inj ht).trans (Except.ok.inj hu).symm)
      rw [String.ofList_inj] at hs
      rw [hs] at hte
      exact Time.rfc3339_inj hte htex
    · cases hu
  · cases ht

theorem snapshotJson_inj {s s' : Option TenantRuntimeSnapshot} (hs : snapshotJson s = .ok j)
    (hs' : snapshotJson s' = .ok j) : s.map header = s'.map header := by
  cases s with
  | none =>
    cases s' with
    | none => rfl
    | some s' =>
      obtain ⟨time, -, hj⟩ := bind_eq_ok.mp hs'
      cases (Except.ok.inj hs).trans (Except.ok.inj hj).symm
  | some s =>
    obtain ⟨time, hti, hj⟩ := bind_eq_ok.mp hs
    cases s' with
    | none => cases (Except.ok.inj hj).trans (Except.ok.inj hs').symm
    | some s' =>
      obtain ⟨time', ht, hj'⟩ := bind_eq_ok.mp hs'
      have heq := (Except.ok.inj hj).trans (Except.ok.inj hj').symm
      simp only [Json.obj.injEq, List.cons.injEq, Prod.mk.injEq, Json.str.injEq, Json.num.injEq,
        true_and, and_true] at heq
      obtain ⟨hid, hr, hst, hv, he, rfl⟩ := heq
      have hp := timeJson_inj hti ht
      simp only [Option.map_some, header, hid, hr, hst, hv, he, hp]

theorem wire_inj (hb : b.wire = .ok j) (hb' : b'.wire = .ok j) : b.signed = b'.signed := by
  obtain ⟨time, hti, hb⟩ := bind_eq_ok.mp hb
  obtain ⟨snap, hsna, hj⟩ := bind_eq_ok.mp hb
  obtain ⟨time', ht, hb'⟩ := bind_eq_ok.mp hb'
  obtain ⟨snap', hsn, hj'⟩ := bind_eq_ok.mp hb'
  have heq := (Except.ok.inj hj).trans (Except.ok.inj hj').symm
  simp only [Json.obj.injEq, List.cons.injEq, Prod.mk.injEq, Json.str.injEq, Json.num.injEq,
    true_and, and_true] at heq
  obtain ⟨hs, hid, hr, hv, he, hsy, rfl, rfl⟩ := heq
  have hp := timeJson_inj hti ht
  have hh := snapshotJson_inj hsna hsn
  simp only [signed, metadata, hs, hid, hr, hv, he, hsy, hp, hh]

theorem wire_congr (h : b.signed = b'.signed) : b.wire = b'.wire := by
  simp only [signed, metadata, Prod.mk.injEq, Metadata.mk.injEq] at h
  obtain ⟨⟨hsc, hid, hr, hv, he, hsy, hp⟩, hh⟩ := h
  have hsn : snapshotJson b.snapshot = snapshotJson b'.snapshot := by
    cases hs : b.snapshot with
    | none =>
      cases hs' : b'.snapshot with
      | none => rfl
      | some s' => simp [hs, hs'] at hh
    | some s =>
      cases hs' : b'.snapshot with
      | none => simp [hs, hs'] at hh
      | some s' =>
        simp only [hs, hs', Option.map_some, Option.some.injEq, header,
          SnapshotHeader.mk.injEq] at hh
        obtain ⟨h₁, h₂, h₃, h₄, h₅, h₆⟩ := hh
        simp only [snapshotJson, h₁, h₂, h₃, h₄, h₅, h₆]
  simp only [wire, hsc, hid, hr, hv, he, hsy, hp, hsn]

/-- Two payloads are the same exactly if what they are made of is. -/
theorem payload_eq_iff {p p' : List UInt8} (hp : b.payload = .ok p) (hp' : b'.payload = .ok p') :
    p = p' ↔ b.signed = b'.signed := by
  constructor
  · rintro rfl
    obtain ⟨j, hj, hp⟩ := bind_eq_ok.mp hp
    obtain ⟨j', hj', hp'⟩ := bind_eq_ok.mp hp'
    have hb := (Except.ok.inj hp).trans (Except.ok.inj hp').symm
    have hr := String.ofList_inj.mp (utf8_injective hb)
    obtain rfl := Json.render_injective hr
    exact wire_inj hj hj'
  · intro h
    have : b.payload = b'.payload := by
      unfold payload
      rw [wire_congr h]
    exact Except.ok.inj (hp.symm.trans (this.trans hp'))

end

/-! ### Signing and verifying -/

section

variable {crypto : Crypto} {key : List UInt8} {b b' : RuntimeBundle}

/-- A checksum is taken over one payload only. -/
theorem signed_eq_of_checksum {sum : String} (hb : b.checksum crypto = .ok sum)
    (hb' : b'.checksum crypto = .ok sum) : b.signed = b'.signed := by
  obtain ⟨p, hp, hsu⟩ := bind_eq_ok.mp hb
  obtain ⟨p', hp', hs⟩ := bind_eq_ok.mp hb'
  have hh := String.ofList_inj.mp ((Except.ok.inj hsu).trans (Except.ok.inj hs).symm)
  exact (payload_eq_iff hp hp').mp (crypto.collisionFree (hexEncode_injective hh))

theorem checksum_congr (h : b.signed = b'.signed) : b.checksum crypto = b'.checksum crypto := by
  unfold checksum payload
  rw [wire_congr h]

theorem verify_iff : b.verify crypto key = .ok () ↔
    b.signature ≠ [] ∧ b.checksum crypto = .ok b.payloadChecksum ∧
      crypto.verify key (utf8 b.payloadChecksum) b.signature = true := by
  unfold verify
  by_cases hs : b.signature = []
  · simp [hs]
  · rw [if_neg hs]
    cases hsu : b.checksum crypto with
    | error e => simp
    | ok sum =>
      by_cases heq : sum = b.payloadChecksum
      · subst heq
        simp [hs]
      · simp [heq]

theorem verify_of_sign (h : b.sign crypto key = .ok b') :
    b'.verify crypto (crypto.publicKey key) = .ok () := by
  obtain ⟨sum, hs, hb'⟩ := bind_eq_ok.mp h
  obtain rfl := Except.ok.inj hb'
  rw [verify_iff]
  refine ⟨crypto.sign_ne_nil _ _, ?_, crypto.verify_sign _ _⟩
  exact (checksum_congr rfl).trans hs

end

/-! ### The configuration is not covered -/

/-- The data with the signed fields of another. -/
def withHeader (data data' : TenantSnapshotData) : TenantSnapshotData :=
  { data with
    tenantID := data'.tenantID
    tenantRef := data'.tenantRef
    status := data'.status
    version := data'.version
    securityEpoch := data'.securityEpoch
    publishedAt := data'.publishedAt }

theorem withHeader_of_header {data data' : TenantSnapshotData}
    (h : header (newTenantSnapshot data) = header (newTenantSnapshot data')) :
    withHeader data data' = data := by
  simp only [header, newTenantSnapshot, SnapshotHeader.mk.injEq] at h
  obtain ⟨h₁, h₂, h₃, h₄, h₅, h₆⟩ := h
  simp only [withHeader, ← h₁, ← h₂, ← h₃, ← h₄, ← h₅, ← h₆]

/--
**A signature covers the metadata and the header of the snapshot, and nothing else of it.**
Two payloads are the same exactly if these are; and two bundles that verify with one checksum
and one signature carry the same configuration exactly if all of it that is not signed happens
to agree.
-/
theorem signature_covers_header (crypto : Crypto) (key : List UInt8) :
    (∀ (b b' : RuntimeBundle) (p p' : List UInt8), b.payload = .ok p → b'.payload = .ok p' →
      (p = p' ↔ b.metadata = b'.metadata ∧ b.snapshot.map header = b'.snapshot.map header)) ∧
    (∀ (b b' : RuntimeBundle) (data data' : TenantSnapshotData),
      b.snapshot = some (newTenantSnapshot data) → b'.snapshot = some (newTenantSnapshot data') →
      b.payloadChecksum = b'.payloadChecksum → b.signature = b'.signature →
      b.verify crypto key = .ok () → b'.verify crypto key = .ok () →
      (data = data' ↔ withHeader data data' = data')) := by
  constructor
  · intro b b' p p' hp hp'
    rw [payload_eq_iff hp hp']
    exact Prod.mk.injEq .. ▸ Iff.rfl
  · intro b b' data data' hs hs' hsu _ hv hv'
    constructor
    · rintro rfl
      rfl
    · intro hr
      -- one checksum, so one header
      obtain ⟨-, hb, -⟩ := verify_iff.mp hv
      obtain ⟨-, hb', -⟩ := verify_iff.mp hv'
      rw [hsu] at hb
      have hsi := congrArg Prod.snd (signed_eq_of_checksum hb hb')
      simp only [signed, hs, hs', Option.map_some, Option.some.injEq] at hsi
      exact (withHeader_of_header hsi).symm.trans hr

section

/-- A hash without collisions and a scheme whose signature shows the key. -/
def plainCrypto : Crypto where
  sha256 := id
  publicKey := id
  sign key message := 0 :: key ++ message
  verify key message signature := signature = 0 :: key ++ message
  collisionFree := Function.injective_id
  verify_sign := by simp
  sign_ne_nil := by simp

def honest : TenantSnapshotData :=
  { TenantSnapshotData.zero with
    tenantID := "tenant"
    tenantRef := "ref"
    status := "active"
    version := 4
    securityEpoch := 3
    providers := [⟨"p", "tenant", "openai", "https://api.provider", "active"⟩] }

/-- The provider's endpoint is someone else's. -/
def forged : TenantSnapshotData :=
  { honest with providers := [⟨"p", "tenant", "openai", "https://api.attacker", "active"⟩] }

def planeSigner : Signer := ⟨[7], "", 2⟩

/-- The bundle that the control plane signs. -/
def signedBundle : RuntimeBundle :=
  (planeSigner.sign plainCrypto (newTenantSnapshot honest)).toOption.getD
    ⟨"", "", "", 0, 0, 0, ⟨0, 0⟩, "", [], none⟩

/-- The same bundle with the data on the wire replaced. -/
def forgedBundle : RuntimeBundle :=
  { signedBundle with snapshot := some (newTenantSnapshot forged) }

theorem signer_signs : planeSigner.sign plainCrypto (newTenantSnapshot honest) =
    .ok signedBundle := rfl

theorem honest_ne_forged : honest ≠ forged := by
  intro h
  exact absurd (congrArg TenantSnapshotData.providers h) (by decide)

theorem signedBundle_verifies : signedBundle.verify plainCrypto [7] = .ok () :=
  verify_of_sign signer_signs

theorem forgedBundle_verifies : forgedBundle.verify plainCrypto [7] = .ok () := by
  have h := signedBundle_verifies
  rw [verify_iff] at h ⊢
  rw [← checksum_congr (show signedBundle.signed = forgedBundle.signed from rfl)]
  exact h

/-- The control plane signs one configuration, and with the data on the wire replaced the
bundle of another one verifies. -/
theorem signature_moves_to_forged_configuration :
    planeSigner.sign plainCrypto (newTenantSnapshot honest) = .ok signedBundle ∧
      (signedBundle.encode.bind fun w => { w with snapshotData := forged }.decode)
        = .ok forgedBundle ∧
      signedBundle.payloadChecksum = forgedBundle.payloadChecksum ∧
      signedBundle.signature = forgedBundle.signature ∧
      signedBundle.verify plainCrypto [7] = .ok () ∧ forgedBundle.verify plainCrypto [7] = .ok () ∧
      signedBundle.snapshot.map TenantRuntimeSnapshot.data = some honest ∧
      forgedBundle.snapshot.map TenantRuntimeSnapshot.data = some forged ∧ honest ≠ forged :=
  ⟨signer_signs, rfl, rfl, rfl, signedBundle_verifies, forgedBundle_verifies, rfl, rfl,
    honest_ne_forged⟩

/-- The two agree on all that is signed, so they differ in what is not. -/
theorem forged_differs_where_unsigned :
    signedBundle.metadata = forgedBundle.metadata ∧ withHeader honest forged ≠ forged := by
  obtain ⟨p, hp⟩ : ∃ p, signedBundle.payload = .ok p := ⟨_, rfl⟩
  refine ⟨(((signature_covers_header plainCrypto [7]).1 signedBundle forgedBundle p p hp hp).mp
    rfl).1, fun h => honest_ne_forged ?_⟩
  exact ((signature_covers_header plainCrypto [7]).2 signedBundle forgedBundle honest forged rfl rfl
    rfl rfl signedBundle_verifies forgedBundle_verifies).mpr h

end

end LiteAIG.Bundle
