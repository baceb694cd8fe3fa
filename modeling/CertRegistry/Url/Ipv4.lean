import CertRegistry.Text.Digits

/-!
# Addresses of four octets

The numeric form of a host: up to four numbers between dots, each in decimal, octal (behind
`0`) or hexadecimal digits (behind `0x`), of which the last one fills the octets that are left.
-/

namespace CertRegistry.Url.Ipv4

/-- A number between dots. -/
def number? (cs : List Char) : Option Nat :=
  match cs with
  | [] => none
  | '0' :: 'x' :: rest | '0' :: 'X' :: rest => Text.inBase? 16 rest
  | '0' :: c :: rest => Text.inBase? 8 (c :: rest)
  | _ => Text.inBase? 10 cs

/-- The parts between dots, without an empty one at the end. -/
def parts (name : List Char) : List (List Char) :=
  let all := name.splitOn '.'
  if all.getLast? = some [] then all.dropLast else all

/-- Whether a domain name has to be read as an address. -/
def isNumeric (name : List Char) : Bool :=
  match (parts name).getLast? with
  | some last => (last ≠ [] && last.all Char.isDigit) || (number? last).isSome
  | none => false

/-- The address that a numeric name spells. -/
def parse? (name : List Char) : Option Nat := do
  let numbers ← (parts name).mapM number?
  let last ← numbers.getLast?
  let octets := numbers.dropLast
  let room := Nat.pow 256 (4 - octets.length)
  if 3 < octets.length ∨ octets.any (255 < ·) ∨ room ≤ last then none
  else return octets.foldl (fun n b => n * 256 + b) 0 * room + last

/-- An address as four decimal numbers. -/
def toText (n : Nat) : List Char :=
  ['.'].intercalate ([3, 2, 1, 0].map fun i => (toString (n / Nat.pow 256 i % 256)).toList)

end CertRegistry.Url.Ipv4
