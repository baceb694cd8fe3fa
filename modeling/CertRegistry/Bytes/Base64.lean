import CertRegistry.Bytes

/-!
# Base64

The standard alphabet with padding. Reading is strict: a text is accepted only when it is the one
that writing produces, so the padding has to be there and unused bits have to be zero.
-/

namespace CertRegistry.Base64

/-- The octet of the sign for a number below sixty-four. -/
def symbol (n : Nat) : UInt8 :=
  if n < 26 then UInt8.ofNat (65 + n)
  else if n < 52 then UInt8.ofNat (71 + n)
  else if n < 62 then UInt8.ofNat (n - 4)
  else if n = 62 then 43 else 47

/-- The sign that fills the last group. -/
def pad : UInt8 := 61

/-- The number that a sign stands for. -/
def symbolValue? (c : UInt8) : Option Nat :=
  let n := c.toNat
  if 65 ≤ n ∧ n ≤ 90 then some (n - 65)
  else if 97 ≤ n ∧ n ≤ 122 then some (n - 71)
  else if 48 ≤ n ∧ n ≤ 57 then some (n + 4)
  else if n = 43 then some 62
  else if n = 47 then some 63
  else none

/-- The signs for a string of octets, three octets in a group of four. -/
def encodeOctets : Bytes → Bytes
  | [] => []
  | [a] =>
    [symbol (a.toNat / 4), symbol (a.toNat % 4 * 16), pad, pad]
  | [a, b] =>
    [symbol (a.toNat / 4), symbol (a.toNat % 4 * 16 + b.toNat / 16), symbol (b.toNat % 16 * 4), pad]
  | a :: b :: c :: rest =>
    symbol (a.toNat / 4) :: symbol (a.toNat % 4 * 16 + b.toNat / 16) ::
      symbol (b.toNat % 16 * 4 + c.toNat / 64) :: symbol (c.toNat % 64) :: encodeOctets rest

/-- The octets as text. -/
def encode (bs : Bytes) : String :=
  String.ofList ((encodeOctets bs).map fun c => Char.ofNat c.toNat)

/-- What is wrong with a text that is not Base64. -/
inductive Fault where
  /-- The octet at this offset is no sign, or padding where none may stand. -/
  | badSymbol (octet : UInt8) (offset : Nat)
  | badLength (length : Nat)
  /-- The last sign sets bits that no octet uses. -/
  | looseBits (octet : UInt8) (offset : Nat)
  | badPadding
  deriving DecidableEq, Repr

def Fault.message : Fault → String
  | .badSymbol octet offset => s!"Invalid symbol {octet}, offset {offset}."
  | .badLength length => s!"Invalid input length: {length}"
  | .looseBits octet offset => s!"Invalid last symbol {octet}, offset {offset}."
  | .badPadding => "Invalid padding"

/-- The values of signs that stand in a row from `offset` on. -/
def symbolValues (offset : Nat) : Bytes → Except Fault (List Nat)
  | [] => .ok []
  | c :: rest =>
    match symbolValue? c with
    | none => .error (.badSymbol c offset)
    | some v => (v :: ·) <$> symbolValues (offset + 1) rest

/-- The octets that the values of a group spell; bits beyond the last whole octet are dropped. -/
def groupOctets : List Nat → Bytes
  | [a, b] => [UInt8.ofNat (a * 4 + b / 16)]
  | [a, b, c] => [UInt8.ofNat (a * 4 + b / 16), UInt8.ofNat (b % 16 * 16 + c / 4)]
  | [a, b, c, d] =>
    [UInt8.ofNat (a * 4 + b / 16), UInt8.ofNat (b % 16 * 16 + c / 4), UInt8.ofNat (c % 4 * 64 + d)]
  | _ => []

/-- The bits of a last group that belong to no octet. -/
def unusedBits : List Nat → Nat
  | [_, b] => b % 16
  | [_, _, c] => c % 4
  | _ => 0

/-- Reads the last group, of at most four signs, which alone may be padded. -/
def decodeLast (offset : Nat) (group : Bytes) : Except Fault Bytes := do
  let signs := group.takeWhile (· != pad)
  let filling := group.dropWhile (· != pad)
  let values ← symbolValues offset signs
  let count := values.length
  if filling ≠ [] ∧ (count < 2 ∨ filling.any (· != pad)) then
    .error (.badSymbol pad (offset + count))
  else if group ≠ [] ∧ count < 2 then
    .error (.badLength (offset + count))
  else if group.length % 4 ≠ 0 then
    .error .badPadding
  else if unusedBits values ≠ 0 then
    .error (.looseBits (signs.getLastD pad) (offset + count - 1))
  else
    .ok (groupOctets values)

/-- Reads group by group from `offset` on. -/
def decodeFrom (offset : Nat) : Bytes → Except Fault Bytes
  | a :: b :: c :: d :: e :: rest => do
    let values ← symbolValues offset [a, b, c, d]
    let tail ← decodeFrom (offset + 4) (e :: rest)
    return groupOctets values ++ tail
  | group => decodeLast offset group

/-- The octets that a text spells. A lone last sign that is none is reported before all else. -/
def decode (s : String) : Except Fault Bytes :=
  let octets := Bytes.ofText s
  match octets.getLast? with
  | some c =>
    if octets.length % 4 = 1 ∧ c ≠ pad ∧ symbolValue? c = none then
      .error (.badSymbol c (octets.length - 1))
    else decodeFrom 0 octets
  | none => .ok []

end CertRegistry.Base64
