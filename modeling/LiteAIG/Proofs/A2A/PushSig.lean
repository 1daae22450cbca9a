/-
What the signature of a push callback binds.

A signature made for one callback is accepted for another exactly when the signed
bytes are the same.  Timestamp, id and payload are told apart by newlines only, so
that depends on the two heads: if one goes on where the other ends, the rest of the
longer one is read as payload.
-/
import LiteAIG.A2A.PushSig
import LiteAIG.Lib.Except

namespace LiteAIG.A2A

open Lib

variable {lib : PushLibrary} {secret id ts id' ts' payload payload' : List UInt8}
  {now : Option Int} {clock skew : Int}

/-- A signature that was made is compared once the timestamp has passed. -/
theorem verify_pushSignature :
    lib.verifyPushPayloadSignatureWithID secret id' ts'
        (pushSignature (lib.signPushPayloadWithID secret id ts payload)) payload' now clock skew
        = .ok () ↔
      lib.checkTimestamp ts' now clock skew = .ok () ∧
        lib.hmac secret (pushHead id ts ++ payload) =
          lib.hmac secret (pushHead id' ts' ++ payload') := by
  have he : lib.signPushPayloadWithID secret id ts payload ≠ [] := fun hc =>
    lib.hmac_ne_nil secret _ (hexEncode_injective (show _ = hexEncode [] from hc))
  have hp : pushSignature (lib.signPushPayloadWithID secret id ts payload) ≠ [] :=
    List.append_ne_nil_of_right_ne_nil _ he
  have hd : (pushSignature (lib.signPushPayloadWithID secret id ts payload)).drop
      pushScheme.length = lib.signPushPayloadWithID secret id ts payload :=
    List.drop_left ..
  have hx : pushScheme <+: pushSignature (lib.signPushPayloadWithID secret id ts payload) :=
    List.prefix_append ..
  have hg : ∀ id ts payload, hexDecode (lib.signPushPayloadWithID secret id ts payload)
      = some (lib.hmac secret (pushHead id ts ++ payload)) := fun _ _ _ => hexDecode_hexEncode _
  simp only [PushLibrary.verifyPushPayloadSignatureWithID, hd, hp, he, hx, hg, not_true, or_self,
    if_false]
  cases lib.checkTimestamp ts' now clock skew with
  | error e => simp [bind, Except.bind]
  | ok u => simp [bind, Except.bind, pure, Except.pure, throw, throwThe, MonadExceptOf.throw]

/-- Two heads that are not of one callback, of which one is how the other begins. -/
def Confusable (id ts id' ts' : List UInt8) : Prop :=
  ¬ (id' = id ∧ ts' = ts) ∧
    (pushHead id ts <+: pushHead id' ts' ∨ pushHead id' ts' <+: pushHead id ts)
  deriving Decidable

/-- **What a signature binds.**  Where different messages have different codes, signatures made for
one id and timestamp are accepted only with these and with the payload they were made for, if and
only if the two heads cannot be confused. -/
theorem push_signature_binds_iff (hmac : ∀ secret, Function.Injective (lib.hmac secret))
    (ht : lib.checkTimestamp ts' now clock skew = .ok ()) :
    (∀ payload payload', lib.verifyPushPayloadSignatureWithID secret id' ts'
        (pushSignature (lib.signPushPayloadWithID secret id ts payload)) payload' now clock skew
        = .ok () → id' = id ∧ ts' = ts ∧ payload' = payload) ↔
      ¬ Confusable id ts id' ts' := by
  constructor
  · rintro h ⟨hne, ⟨r, hr⟩ | ⟨r, hr⟩⟩
    · obtain ⟨hi, ht, -⟩ := h r [] (verify_pushSignature.mpr ⟨ht, by rw [hr, List.append_nil]⟩)
      exact hne ⟨hi, ht⟩
    · obtain ⟨hi, ht, -⟩ := h [] r (verify_pushSignature.mpr ⟨ht, by rw [hr, List.append_nil]⟩)
      exact hne ⟨hi, ht⟩
  · intro hc payload payload' h
    have hb := hmac secret (verify_pushSignature.mp h).2
    have hh : id' = id ∧ ts' = ts := by
      by_contra hne
      refine hc ⟨hne, List.prefix_or_prefix_of_prefix (List.prefix_append _ payload) ?_⟩
      rw [hb]
      exact List.prefix_append ..
    obtain ⟨rfl, rfl⟩ := hh
    exact ⟨rfl, rfl, (List.append_cancel_left hb).symm⟩

/-- HMAC and the clock of the examples: the code of a message is the message itself. -/
def plainLibrary : PushLibrary :=
  ⟨fun _ message => 0 :: message, fun _ _ => List.cons_ne_nil _ _, fun _ => some 0⟩

/-- Two ids of one line each are told apart: a signature for one is refused with the other. -/
theorem other_id_rejected :
    ¬ Confusable [97] [50] [98] [50] ∧
      ∀ payload payload', plainLibrary.verifyPushPayloadSignatureWithID [] [98] [50]
        (pushSignature (plainLibrary.signPushPayloadWithID [] [97] [50] payload)) payload' none 0 60
        ≠ .ok () := by
  have hne : ¬ Confusable [97] [50] [98] [50] := by decide
  refine ⟨hne, fun payload payload' hok => ?_⟩
  have hbound := (push_signature_binds_iff (fun _ _ _ h => (List.cons.inj h).2) (by decide)).mpr
    hne payload payload' hok
  exact absurd hbound.1 (by decide)

/-- The signature of the callback `a` is accepted without an id, for a payload that begins with the
line `a`. -/
theorem id_read_as_payload : ∃ lib : PushLibrary,
    (∀ secret, Function.Injective (lib.hmac secret)) ∧
      lib.verifyPushPayloadSignatureWithID [] [] [50]
        (pushSignature (lib.signPushPayloadWithID [] [97] [50] [123, 125])) [97, 10, 123, 125]
        none 0 60 = .ok () :=
  ⟨plainLibrary, fun _ _ _ h => (List.cons.inj h).2, by decide⟩

end LiteAIG.A2A
