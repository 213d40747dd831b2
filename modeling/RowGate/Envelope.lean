import RowGate.Cipher.Aead
import RowGate.Cipher.Hkdf
import RowGate.Text.Base64
import RowGate.Text.Blank
import RowGate.Text.Quoted

/-! # Sealed envelopes

A payload is sealed under a secret that is not kept: a key is derived from the secret,
the payload is enciphered and tagged under a nonce, and nonce, body and tag are written
as one base64 text. An envelope opens only under the same secret and only unchanged.
-/
namespace RowGate

inductive SealFault where
  | emptySecret
  | encryption (reason : String)
  | malformed (reason : String)
  | truncated (expected actual : Nat)
  | decryption (reason : String)
  deriving DecidableEq, Repr

def SealFault.message : SealFault → String
  | .emptySecret => "encryption secret must not be empty"
  | .encryption reason => "encryption failed: " ++ reason
  | .malformed reason => "malformed ciphertext encoding: " ++ reason
  | .truncated expected actual =>
    "ciphertext too short: need at least " ++ toString expected ++ " bytes, got " ++ toString actual
  | .decryption reason => "decryption failed: " ++ reason

def SealFault.detail : SealFault → String
  | .emptySecret => "EmptySecret"
  | .encryption reason => Text.applied "Encrypt" (Text.quoted reason)
  | .malformed reason => Text.applied "Malformed" (Text.quoted reason)
  | .truncated expected actual =>
    Text.composed "Truncated" [("expected", toString expected), ("actual", toString actual)]
  | .decryption reason => Text.applied "Decrypt" (Text.quoted reason)

namespace Envelope

def nonceSize : Nat := 12
def keySize : Nat := 32

/-- What the derived keys are for. -/
def label : Octets := Utf8.octets "pg2json-session-credentials-v1"

/-- The reason that a cipher gives; it gives no other. -/
def cipherFault : String := "aead::Error"

def key (secret : String) : Octets := Cipher.deriveKey (Utf8.octets secret) label keySize

/-- The envelope of a payload under a secret and a nonce. -/
def wrap (payload : Octets) (secret : String) (nonce : Octets) : Except SealFault String :=
  if secret.isEmpty then .error .emptySecret
  else match Cipher.Aead.protect (key secret) nonce payload with
    | none => .error (.encryption cipherFault)
    | some sealed => .ok (String.ofList (Base64.encode (nonce ++ sealed)))

/-- The payload of an envelope; blanks around it do not matter. -/
def unwrap (envelope : String) (secret : String) : Except SealFault Octets :=
  match Base64.decode (Utf8.octets (Text.trim envelope)) with
  | .error f => .error (.malformed f.message)
  | .ok raw =>
    if raw.length < nonceSize then .error (.truncated nonceSize raw.length)
    else if secret.isEmpty then .error .emptySecret
    else match Cipher.Aead.recover (key secret) (raw.take nonceSize) (raw.drop nonceSize) with
      | none => .error (.decryption cipherFault)
      | some payload => .ok payload

end Envelope
end RowGate
