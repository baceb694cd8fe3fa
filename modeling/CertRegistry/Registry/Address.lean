import CertRegistry.Bytes.Hex
import CertRegistry.Hash.Sha2

/-!
# Addresses of records

An address has seventy hexadecimal digits: six for the family, two reserved, two for the type of
the record, and sixty from the digest of the key that names the record.
-/

namespace CertRegistry

/-- The name of the transaction family of the registry. -/
def familyName : String := "certificate_registry"

def familyVersion : String := "0.1"

inductive RecordType where
  | agent
  | certificate
  | organization
  | standard
  | certificateRequest
  deriving DecidableEq, Repr

namespace RecordType

/-- The two digits of a record type. -/
def digits : RecordType → String
  | agent => "00"
  | certificate => "01"
  | organization => "02"
  | standard => "03"
  | certificateRequest => "04"

end RecordType

namespace Address

/-- The number of digits of an address. -/
def length : Nat := 70

/-- The digits of the first `octets` octets of the digest of a text. -/
def digestDigits (octets : Nat) (text : String) : String :=
  Hex.encode ((sha256 (Bytes.ofText text)).take octets)

/-- The digits that all addresses of the family start with. -/
def familyNamespace : String := digestDigits 3 familyName

/-- The digits that all addresses of a record type start with. -/
def typePrefix (type : RecordType) : String := familyNamespace ++ "00" ++ type.digits

/-- The address of the record of a type that a key names. -/
def ofKey (type : RecordType) (key : String) : String := typePrefix type ++ digestDigits 30 key

/-- The address of the agent with a public key. -/
def ofAgent (publicKey : String) : String := ofKey .agent publicKey

end Address

end CertRegistry
