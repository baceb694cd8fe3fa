import CertRegistry.Url.Ipv4

/-!
# Addresses of eight groups

Groups of up to four hexadecimal digits between colons; the last two may be written as four
decimal numbers between dots. One pair of colons may stand for groups that are zero.
-/

namespace CertRegistry.Url.Ipv6

/-- A group of hexadecimal digits. -/
def group? (cs : List Char) : Option Nat :=
  if cs = [] ∨ 4 < cs.length then none else Text.inBase? 16 cs

/-- A decimal number below 256 without a leading zero. -/
def octet? (cs : List Char) : Option Nat :=
  if cs.length = 1 ∨ cs.head? ≠ some '0' then (Text.digitsValue? cs).filter (· < 256) else none

/-- The two groups that four decimal numbers spell. -/
def dotted? (cs : List Char) : Option (List Nat) := do
  match ← (cs.splitOn '.').mapM octet? with
  | [a, b, c, d] => return [a * 256 + b, c * 256 + d]
  | _ => none

/-- The groups between colons; `atEnd` says that nothing follows them. -/
def groups? (atEnd : Bool) (cs : List Char) : Option (List Nat) :=
  if cs = [] then some []
  else
    let parts := cs.splitOn ':'
    match parts.getLast? with
    | some last =>
      if atEnd ∧ '.' ∈ last then do
        return (← parts.dropLast.mapM group?) ++ (← dotted? last)
      else parts.mapM group?
    | none => none

/-- What stands before and after the first pair of colons, if there is one. -/
def splitPair : List Char → List Char × Option (List Char)
  | ':' :: ':' :: rest => ([], some rest)
  | c :: rest => (c :: (splitPair rest).1, (splitPair rest).2)
  | [] => ([], none)

/-- The eight groups of an address. -/
def parse? (cs : List Char) : Option (List Nat) :=
  match splitPair cs with
  | (all, none) => (groups? true all).filter (·.length = 8)
  | (before, some after) => do
    let front ← groups? false before
    let back ← groups? true after
    let given := front.length + back.length
    if given < 8 then return front ++ List.replicate (8 - given) 0 ++ back else none

/-- The place and length of the longest run of zeros, the first of equally long ones. -/
def longestZeros : List Nat → Nat → Nat × Nat
  | [], place => (place, 0)
  | n :: rest, place =>
    let here := ((n :: rest).takeWhile (· = 0)).length
    let later := longestZeros rest (place + 1)
    if here ≠ 0 ∧ later.2 ≤ here then (place, here) else later

def groupsText (groups : List Nat) : List Char :=
  [':'].intercalate (groups.map (Nat.toDigits 16))

/-- The groups as text; the longest run of zeros is left out unless it is a single one. -/
def toText (groups : List Nat) : List Char :=
  let (place, length) := longestZeros groups 0
  if length < 2 then groupsText groups
  else groupsText (groups.take place) ++ [':', ':'] ++ groupsText (groups.drop (place + length))

end CertRegistry.Url.Ipv6
