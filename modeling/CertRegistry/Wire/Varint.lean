import CertRegistry.Bytes
import CertRegistry.Wire.Fault

/-!
# Numbers of variable length

A number is written in groups of seven bits, lowest first, each octet but the last marked by its
top bit. Ten octets are the most, and the tenth may hold one bit only.
-/

namespace CertRegistry.Wire

/-- The octets of a number. -/
def putVarint (n : Nat) : Bytes :=
  if n < 128 then [UInt8.ofNat n] else UInt8.ofNat (n % 128 + 128) :: putVarint (n / 128)
termination_by n
decreasing_by omega

/-- Reads a number of which `before` octets have been read already. -/
def varintAfter? (before : Nat) : Bytes → Option (Nat × Bytes)
  | [] => none
  | b :: rest =>
    if b.toNat < 128 then
      if before = 9 ∧ 2 ≤ b.toNat then none else some (b.toNat, rest)
    else if before = 9 then none
    else
      match varintAfter? (before + 1) rest with
      | some (high, rest) => some (b.toNat - 128 + 128 * high, rest)
      | none => none

def takeVarint (bs : Bytes) : Except Fault (Nat × Bytes) :=
  match varintAfter? 0 bs with
  | some parsed => .ok parsed
  | none => fail .badVarint

/-- The tag of a field and the layout of its value. -/
structure Key where
  tag : Nat
  type : WireType
  deriving DecidableEq, Repr

def Key.put (key : Key) : Bytes := putVarint (8 * key.tag + key.type.toNat)

def takeKey (bs : Bytes) : Except Fault (Key × Bytes) := do
  let (key, rest) ← takeVarint bs
  if UInt32.size ≤ key then fail (.badKey key)
  else
    match WireType.ofNat? (key % 8) with
    | none => fail (.badWireType (key % 8))
    | some type => if key / 8 = 0 then fail .zeroTag else return ({ tag := key / 8, type }, rest)

/-- Reads octets that their number goes before. -/
def takeDelimited (bs : Bytes) : Except Fault (Bytes × Bytes) := do
  let (length, rest) ← takeVarint bs
  if rest.length < length then fail .underflow
  else return (rest.take length, rest.drop length)

/-- Drops `count` octets. -/
def skipOctets (count : Nat) (bs : Bytes) : Except Fault Bytes :=
  if bs.length < count then fail .underflow else .ok (bs.drop count)

/-- Skips the fields of a group until its end; each takes at least one octet, so as many fields as
there are octets are enough. -/
def skipGroup (skip : WireType → Nat → Bytes → Except Fault Bytes) (tag : Nat) :
    Nat → Bytes → Except Fault Bytes
  | 0, _ => fail .badVarint
  | count + 1, bs => do
    let (key, rest) ← takeKey bs
    if key.type = .endGroup then
      if key.tag = tag then return rest else fail .strayEndGroup
    else
      let rest ← skip key.type key.tag rest
      skipGroup skip tag count rest

/-- Skips the value of a field; groups may nest to the given depth. -/
def skipValue : Nat → WireType → Nat → Bytes → Except Fault Bytes
  | 0, _, _, _ => fail .tooDeep
  | depth + 1, type, tag, bs =>
    match type with
    | .varint => (·.2) <$> takeVarint bs
    | .fixed64 => skipOctets 8 bs
    | .fixed32 => skipOctets 4 bs
    | .delimited => (·.2) <$> takeDelimited bs
    | .startGroup => skipGroup (skipValue depth) tag bs.length bs
    | .endGroup => fail .strayEndGroup

end CertRegistry.Wire
