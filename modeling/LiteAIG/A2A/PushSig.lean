/-
The signature of a push callback: what the sender signs and what a receiver checks.

Ids, timestamps and payloads are the bytes they are sent as.  The timestamp has a
line of its own, and so has the delivery id unless it is empty: a callback without
an id is signed as it was before there were ids.
-/
import LiteAIG.Lib.Int64
import LiteAIG.Lib.Text

namespace LiteAIG.A2A

open Lib

/-- HMAC-SHA256, and `time.Parse` of a timestamp, in nanoseconds. -/
structure PushLibrary where
  hmac : List UInt8 → List UInt8 → List UInt8
  hmac_ne_nil : ∀ secret message, hmac secret message ≠ []
  parse : List UInt8 → Option Int

inductive PushError
  | signatureMissing | signatureMalformed | timestampInvalid | timestampSkew | signatureMismatch
  deriving DecidableEq

def newline : List UInt8 := [10]

/-- What is signed before the payload. -/
def pushHead (deliveryID timestamp : List UInt8) : List UInt8 :=
  timestamp ++ newline ++ if deliveryID ≠ [] then deliveryID ++ newline else []

def PushLibrary.signPushPayloadWithID (lib : PushLibrary)
    (secret deliveryID timestamp payload : List UInt8) : List Char :=
  hexEncode (lib.hmac secret (pushHead deliveryID timestamp ++ payload))

def pushScheme : List Char := "sha256=".toList

/-- The header a signature is sent in. -/
def pushSignature (encoded : List Char) : List Char := pushScheme ++ encoded

/-- `Time.Sub`: a difference that is no duration is the nearest one. -/
def timeSub (t u : Int) : Int := max (-2 ^ 63) (min (2 ^ 63 - 1) (t - u))

/-- The timestamp's part of the check.  The time is that of the clock when none is given. -/
def PushLibrary.checkTimestamp (lib : PushLibrary) (timestamp : List UInt8) (now : Option Int)
    (clock maxSkew : Int) : Except PushError Unit :=
  match lib.parse timestamp with
  | none => .error .timestampInvalid
  | some parsed =>
    let delta := timeSub (now.getD clock) parsed
    let delta := if delta < 0 then wrap64 (-delta) else delta
    if maxSkew > 0 ∧ delta > maxSkew then .error .timestampSkew else .ok ()

def PushLibrary.verifyPushPayloadSignatureWithID (lib : PushLibrary)
    (secret deliveryID timestamp : List UInt8) (signature : List Char) (payload : List UInt8)
    (now : Option Int) (clock maxSkew : Int) : Except PushError Unit := do
  if signature = [] then throw .signatureMissing
  let encoded := signature.drop pushScheme.length
  if ¬ pushScheme <+: signature ∨ encoded = [] then throw .signatureMalformed
  let some got := hexDecode encoded | throw .signatureMalformed
  lib.checkTimestamp timestamp now clock maxSkew
  let some expected := hexDecode (lib.signPushPayloadWithID secret deliveryID timestamp payload)
    | throw .signatureMalformed
  if got ≠ expected then throw .signatureMismatch

end LiteAIG.A2A
