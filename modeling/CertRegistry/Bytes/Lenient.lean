import CertRegistry.Bytes

/-!
# Text from octets that need not be UTF-8

Every octet string has a lenient reading: where no character can be made out, a replacement
character stands for the octets that began one, and the reading goes on with the octet that
broke it off. Octets behind a mark of UTF-16 are read as that, two at a time.
-/

namespace CertRegistry.Bytes

/-- A character of which some octets have been read. -/
structure Begun where
  /-- How many octets are missing. -/
  missing : Nat
  /-- The least and the greatest octet that may come next. -/
  low : Nat
  high : Nat
  /-- What the octets so far spell. -/
  value : Nat
  deriving DecidableEq, Repr

def replacement : Char := Char.ofNat 0xFFFD

/-- Reads the first octet of a character: the characters that are complete then, and the one
that has begun. -/
def begin (b : UInt8) : List Char × Option Begun :=
  let n := b.toNat
  if n < 0x80 then ([Char.ofNat n], none)
  else if n < 0xC2 ∨ 0xF4 < n then ([replacement], none)
  else if n < 0xE0 then ([], some ⟨1, 0x80, 0xBF, n - 0xC0⟩)
  else if n < 0xF0 then
    ([], some ⟨2, if n = 0xE0 then 0xA0 else 0x80, if n = 0xED then 0x9F else 0xBF, n - 0xE0⟩)
  else ([], some ⟨3, if n = 0xF0 then 0x90 else 0x80, if n = 0xF4 then 0x8F else 0xBF, n - 0xF0⟩)

/-- Reads the next octet. -/
def advance (begun : Option Begun) (b : UInt8) : List Char × Option Begun :=
  match begun with
  | none => begin b
  | some ⟨missing, low, high, value⟩ =>
    if low ≤ b.toNat ∧ b.toNat ≤ high then
      let value := value * 64 + (b.toNat - 0x80)
      if missing ≤ 1 then ([Char.ofNat value], none)
      else ([], some ⟨missing - 1, 0x80, 0xBF, value⟩)
    else
      let (cs, begun) := begin b
      (replacement :: cs, begun)

/-- The characters that octets spell after a character has begun. -/
def lenientChars (begun : Option Begun) : Bytes → List Char
  | [] => if begun.isSome then [replacement] else []
  | b :: rest =>
    let (cs, begun) := advance begun b
    cs ++ lenientChars begun rest

/-- Reads the next sixteen bits of UTF-16, after the first half of a character if there is one. -/
def advanceUnit (half : Option Nat) (unit : Nat) : List Char × Option Nat :=
  let isLow := 0xDC00 ≤ unit ∧ unit < 0xE000
  match half with
  | some high =>
    if isLow then ([Char.ofNat (0x10000 + (high - 0xD800) * 0x400 + (unit - 0xDC00))], none)
    else if 0xD800 ≤ unit ∧ unit < 0xDC00 then ([replacement], some unit)
    else ([replacement, Char.ofNat unit], none)
  | none =>
    if isLow then ([replacement], none)
    else if 0xD800 ≤ unit ∧ unit < 0xDC00 then ([], some unit)
    else ([Char.ofNat unit], none)

/-- The characters that octets spell two at a time, put together by `unit`. -/
def lenientUnits (unit : Nat → Nat → Nat) (half : Option Nat) : Bytes → List Char
  | [] => if half.isSome then [replacement] else []
  | [_] => [replacement]
  | b :: b' :: rest =>
    let (cs, half) := advanceUnit half (unit b.toNat b'.toNat)
    cs ++ lenientUnits unit half rest

/-- The text of octets as they arrive from elsewhere, without a name for their encoding. A mark of
the octet order in front is no part of it. -/
def lenientText (bs : Bytes) : String :=
  String.ofList (match bs with
    | 0xEF :: 0xBB :: 0xBF :: rest => lenientChars none rest
    | 0xFF :: 0xFE :: rest => lenientUnits (fun low high => 256 * high + low) none rest
    | 0xFE :: 0xFF :: rest => lenientUnits (fun high low => 256 * high + low) none rest
    | _ => lenientChars none bs)

end CertRegistry.Bytes
