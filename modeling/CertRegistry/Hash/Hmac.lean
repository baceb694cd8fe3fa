import CertRegistry.Hash.Sha2

/-!
# Keyed digests

HMAC over SHA-256: the key, brought to one block of 64 octets, is mixed into an inner and an outer
digest.
-/

namespace CertRegistry

/-- The key as one block: digested if it is too long, then filled with zeros. -/
def Hmac.keyBlock (key : Bytes) : Bytes :=
  let k := if key.length > 64 then sha256 key else key
  k ++ List.replicate (64 - k.length) 0

def hmacSha256 (key message : Bytes) : Bytes :=
  let block := Hmac.keyBlock key
  sha256 (block.map (· ^^^ 0x5c) ++ sha256 (block.map (· ^^^ 0x36) ++ message))

@[simp]
theorem length_hmacSha256 (key message : Bytes) : (hmacSha256 key message).length = 32 := by
  simp [hmacSha256]

end CertRegistry
