import CertRegistry.Bytes
import CertRegistry.Text.Quoted

/-!
# Hexadecimal text

Octets are written with two lowercase digits each; reading takes digits of either case and says
where a text goes wrong. An odd number of digits is reported before a character that is no digit.
-/

namespace CertRegistry.Hex

/-- The lowercase digit of a number below sixteen. -/
def digit (n : Nat) : Char := if n < 10 then Char.ofNat (48 + n) else Char.ofNat (87 + n)

/-- The octets as text, two digits each. -/
def encode (bs : Bytes) : String :=
  String.ofList (bs.flatMap fun b => [digit (b.toNat / 16), digit (b.toNat % 16)])

/-- What is wrong with a text that is not hexadecimal. -/
inductive Fault where
  | oddLength
  /-- The octet of the text at this offset is no digit. -/
  | notDigit (octet : UInt8) (offset : Nat)
  deriving DecidableEq, Repr

/-- The octet is shown as the character with its number. -/
def Fault.message : Fault → String
  | .oddLength => "Odd number of digits"
  | .notDigit octet offset =>
    "Invalid character " ++ Text.quoteChar (Char.ofNat octet.toNat) ++ " at position " ++
      toString offset

/-- The value of a digit, given as an octet of the text. -/
def digitValue? (c : UInt8) : Option Nat :=
  let n := c.toNat
  if 48 ≤ n ∧ n ≤ 57 then some (n - 48)
  else if 97 ≤ n ∧ n ≤ 102 then some (n - 87)
  else if 65 ≤ n ∧ n ≤ 70 then some (n - 55)
  else none

/-- Reads digits pair by pair; `offset` is that of the first octet. -/
def decodePairs (offset : Nat) : Bytes → Except Fault Bytes
  | hi :: lo :: rest =>
    match digitValue? hi, digitValue? lo with
    | some h, some l => (UInt8.ofNat (16 * h + l) :: ·) <$> decodePairs (offset + 2) rest
    | none, _ => .error (.notDigit hi offset)
    | some _, none => .error (.notDigit lo (offset + 1))
  | _ => .ok []

/-- The octets that a text spells. -/
def decode (s : String) : Except Fault Bytes :=
  let octets := Bytes.ofText s
  if octets.length % 2 = 1 then .error .oddLength else decodePairs 0 octets

end CertRegistry.Hex
