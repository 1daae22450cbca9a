/-
Passwords that are reset with a code sent by mail.

One code per account is stored, as a digest and with the number of wrong codes it was
compared with.  `Forgot` stores one and sends it; `Confirm` compares in one locked
section, takes the code out in a second one and then resets the password.  What the
second section finds has no influence on what comes after it.

The entries are shared by reference, so an entry has the number it was allocated as:
the second section asks whether the map still holds the very entry that matched.
Times are nanoseconds.  A mail sender is configured; without one both calls do nothing.
-/
import LiteAIG.Lib.Assoc
import LiteAIG.Lib.Text
import LiteAIG.Lib.Threads

namespace LiteAIG.Identity

open Lib

def resetCodeTTL : Int := 10 * 60 * 1000000000

def resetCodeMaxTries : Nat := 5

structure ResetCodeEntry where
  /-- Which entry this is. -/
  issue : Nat
  hash : List UInt8
  expiresAt : Int
  tries : Nat

/-- `fmt.Sprintf("%06d", value)` of what `rand.Int` drew. -/
def newResetCode (value : Fin 1000000) : String := String.ofList (fixedDigits 10 6 value)

structure Mail where
  (address subject body : String)

def resetMail (email username code : String) : Mail where
  address := email
  subject := "LiteAIG password reset code"
  body :=
    "Hello " ++ username ++ ",\n\nYour LiteAIG password reset code is " ++ code ++ ".\n\n" ++
    "It expires in 10 minutes. Enter it on the login screen together with your new password to finish the reset.\n\n" ++
    "If you did not request a password reset, ignore this email: your password will not change.\n"

structure PasswordResets where
  codes : Assoc String ResetCodeEntry
  /-- How many entries were allocated. -/
  issued : Nat
  /-- The entries that a wrong code was compared with.  Nothing reads them. -/
  wrong : List Nat
  /-- The entries that led to a call of `ResetLocalPassword`.  Nothing reads them. -/
  resets : List Nat

namespace PasswordResets

def new : PasswordResets := ⟨.empty, 0, [], []⟩

variable (s : PasswordResets)

/-- The locked section of `Forgot`. -/
def issue (username : String) (hash : List UInt8) (now : Int) : PasswordResets :=
  { s with
    codes := s.codes.insert username ⟨s.issued, hash, now + resetCodeTTL, 0⟩
    issued := s.issued + 1 }

def drop (username : String) : PasswordResets :=
  { s with codes := s.codes.erase username }

/-- One more wrong code for an entry; the last one it is compared with takes it out. -/
def miss (username : String) (entry : ResetCodeEntry) : PasswordResets :=
  let tries := entry.tries + 1
  { s with
    codes :=
      if tries ≥ resetCodeMaxTries then s.codes.erase username
      else s.codes.insert username { entry with tries }
    wrong := s.wrong ++ [entry.issue] }

/-- The first locked section of `Confirm`: the entry that matched, if one did. -/
def compare (sha256 : List UInt8 → List UInt8) (s : PasswordResets) (username code : String)
    (now : Int) : Option Nat × PasswordResets :=
  match s.codes.lookup username with
  | none => (none, s)
  | some entry =>
    if now < entry.expiresAt then
      if sha256 (utf8 code) = entry.hash then (some entry.issue, s)
      else (none, s.miss username entry)
    else (none, s.drop username)

/-- The map holds the entry that matched. -/
def holds (username : String) (issue : Nat) : Bool :=
  (s.codes.lookup username).any fun current => current.issue = issue

/-- The second locked section of `Confirm`. -/
def consume (username : String) (issue : Nat) : PasswordResets :=
  if s.holds username issue then s.drop username else s

end PasswordResets

/-- What is known of an account. -/
structure LocalCredential where
  active : Bool
  email : String

/-- Where a call is. -/
inductive ResetProgress
  | idle
  /-- `Forgot` has stored a code and sends it. -/
  | mailing (username : String) (mail : Mail)
  /-- `Confirm` is between its locked sections. -/
  | matched (username : String) (issue : Nat)
  /-- `Confirm` is past them. -/
  | consumed (username : String) (issue : Nat)
  | answered (error : Option String)

inductive ResetAction
  /-- `Forgot`, up to its mail. -/
  | forgot (username : String) (credential : Option LocalCredential)
      (drawn : Except String (Fin 1000000)) (now : Int)
  /-- The mail is sent or not. -/
  | mailed (error : Option String)
  /-- The first section of `Confirm`. -/
  | compare (username code : String) (now : Int)
  /-- The second section. -/
  | consume
  /-- What follows: the account as it is found, the hash of the new password, and the answer of
  `ResetLocalPassword`. -/
  | reset (credential : Option LocalCredential) (hashed stored : Except String Unit)

def resetAct (sha256 : List UInt8 → List UInt8) (s : PasswordResets) (t : ResetProgress)
    (a : ResetAction) : PasswordResets × ResetProgress :=
  match t, a with
  | .idle, .forgot username credential drawn now =>
    match credential with
    | none => (s, .answered none)
    | some credential =>
      if credential.active = false ∨ credential.email = "" then (s, .answered none)
      else
        match drawn with
        | .error error => (s, .answered (some error))
        | .ok value =>
          let code := newResetCode value
          (s.issue username (sha256 (utf8 code)) now,
            .mailing username (resetMail credential.email username code))
  | .mailing username _, .mailed error =>
    match error with
    | none => (s, .answered none)
    | some error => (s.drop username, .answered (some error))
  | .idle, .compare username code now =>
    match s.compare sha256 username code now with
    | (some issue, s) => (s, .matched username issue)
    | (none, s) => (s, .answered (some "invalid reset code"))
  | .matched username issue, .consume => (s.consume username issue, .consumed username issue)
  | .consumed _ issue, .reset credential hashed stored =>
    match credential, hashed, stored with
    | some ⟨true, _⟩, .ok (), .ok () => ({ s with resets := s.resets ++ [issue] }, .answered none)
    | some ⟨true, _⟩, .ok (), .error error =>
      ({ s with resets := s.resets ++ [issue] }, .answered (some error))
    | some ⟨true, _⟩, .error error, _ => (s, .answered (some error))
    | _, _, _ => (s, .answered (some "account unavailable"))
  | t, _ => (s, t)

end LiteAIG.Identity
