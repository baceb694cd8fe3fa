import CertRegistry.Bytes.Hex
import CertRegistry.Curve.Encoding
import CertRegistry.Curve.Nonce
import CertRegistry.Curve.Signature
import CertRegistry.Text.Blank
import CertRegistry.Text.Stored

/-!
# Signing keys

A key is read from hexadecimal text, signs messages by their SHA-256 digest, and is shown only by
its public half. Public keys and signatures travel as hexadecimal text too.
-/

namespace CertRegistry

open Curve

/-- A private key with the public key that belongs to it. -/
structure Signer where
  secret : Scalar
  secret_ne_zero : secret ≠ 0
  publicKey : Point := generator.scale secret
  publicKey_eq : publicKey = generator.scale secret := by rfl

/-- Why a key or a signature cannot be used. -/
inductive KeyError where
  | privateKeyNotHex (fault : Hex.Fault)
  | privateKeyMalformed
  | publicKeyNotHex (fault : Hex.Fault)
  | publicKeyMalformed
  | signatureNotHex (fault : Hex.Fault)
  | signatureMalformed
  | variableUnset
  | fileUnreadable (path : String) (fault : ReadFault)
  deriving DecidableEq, Repr

/-- The variable of the environment that may hold a private key. -/
def privateKeyVariable : String := "CONSENSOURCE_PRIVATE_KEY"

namespace KeyError

/-- What is wrong, without saying with what. -/
def detail : KeyError → String
  | privateKeyNotHex fault => "not hex: " ++ fault.message
  | privateKeyMalformed => "malformed or out-of-range secret key"
  | publicKeyNotHex fault => fault.message
  | publicKeyMalformed => "malformed public key"
  | signatureNotHex fault => fault.message
  | signatureMalformed => "malformed signature"
  | variableUnset => "Environment variable " ++ privateKeyVariable ++ " not set"
  | fileUnreadable path fault => path ++ ": " ++ fault.message

def message (e : KeyError) : String :=
  (match e with
    | privateKeyNotHex _ | privateKeyMalformed => "Invalid private key: "
    | publicKeyNotHex _ | publicKeyMalformed => "Invalid public key: "
    | signatureNotHex _ | signatureMalformed => "Invalid signature: "
    | variableUnset | fileUnreadable .. => "Key not available: ") ++ e.detail

end KeyError

namespace Signer

/-- The key with these octets, if they spell a number from one to below the order. -/
def ofBytes? (bs : Bytes) : Option Signer :=
  if bs.length = 32 then
    match Nonce.ofBytes? bs with
    | some k => if h : k ≠ 0 then some { secret := k, secret_ne_zero := h } else none
    | none => none
  else none

/-- The text without one leading `0x`. -/
def dropHexMark (s : String) : String :=
  match s.toList with
  | '0' :: 'x' :: rest => String.ofList rest
  | _ => s

/-- Reads a private key: hexadecimal text, possibly marked by `0x` and surrounded by blanks. -/
def ofText (text : String) : Except KeyError Signer :=
  match Hex.decode (dropHexMark (Text.trim text)) with
  | .error fault => .error (.privateKeyNotHex fault)
  | .ok octets =>
    match ofBytes? octets with
    | some signer => .ok signer
    | none => .error .privateKeyMalformed

/-- The key in a variable of the environment. One that is not UTF-8 counts as unset. -/
def ofVariable (value : Option Bytes) : Except KeyError Signer :=
  match value.bind Bytes.text? with
  | some text => ofText text
  | none => .error .variableUnset

/-- The key in a file. -/
def ofFile (path : String) (content : FileContent) : Except KeyError Signer :=
  match content.text with
  | .ok text => ofText text
  | .error fault => .error (.fileUnreadable path fault)

def publicKeyHex (signer : Signer) : String := Hex.encode signer.publicKey.toBytes

def privateKeyHex (signer : Signer) : String := Hex.encode (Bytes.ofNat 32 signer.secret.val)

/-- A message as the number that is signed. -/
def messageScalar (message : Bytes) : Scalar := Fin.ofNat order (Bytes.toNat (sha256 message))

/-- The signature of a message, made with the first factor of the draw that yields one. So many
draws are all that there are, as the states of a source come round again after them. Only if none of
them did, which no one has seen, would the factors one and two end the search. -/
def signature (signer : Signer) (message : Bytes) : Signature :=
  let z := messageScalar message
  let attempt := Signature.make? signer.secret z
  let drawn := (Nonce.Source.seed signer.secret z).findSome? attempt Nonce.Source.stateCount
  (drawn.or ((attempt 1).or (attempt 2))).getD { r := 0, s := 0 }

/-- The signature of a message as 128 hexadecimal digits. -/
def sign (signer : Signer) (message : Bytes) : String :=
  Hex.encode (signer.signature message).toBytes

/-- The signer for diagnostics, which never show the private key. -/
def description (signer : Signer) : String :=
  "Signer \x7b public_key: " ++ Text.quote signer.publicKeyHex ++ " \x7d"

end Signer

/-- Reads a public key from hexadecimal text. -/
def publicKeyOfText (text : String) : Except KeyError Point :=
  match Hex.decode text with
  | .error fault => .error (.publicKeyNotHex fault)
  | .ok octets =>
    match Point.ofBytes? octets with
    | some key => .ok key
    | none => .error .publicKeyMalformed

/-- Reads a signature from hexadecimal text. -/
def signatureOfText (text : String) : Except KeyError Signature :=
  match Hex.decode text with
  | .error fault => .error (.signatureNotHex fault)
  | .ok octets =>
    match Signature.ofBytes? octets with
    | some sig => .ok sig
    | none => .error .signatureMalformed

/-- Whether a signature of a message is good for a public key. The key is read first. -/
def verify (publicKey : String) (message : Bytes) (signature : String) : Except KeyError Bool := do
  let key ← publicKeyOfText publicKey
  let sig ← signatureOfText signature
  return sig.accepts key (Signer.messageScalar message)

end CertRegistry
