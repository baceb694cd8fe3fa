import CertRegistry.Text.Composition
import CertRegistry.Text.Folding
import CertRegistry.Url.Label
import CertRegistry.Url.Percent

/-!
# Domain names

A domain name is compared without regard to case and form, and sent in ASCII. Labels may be empty,
and few characters of ASCII are ruled out.
-/

namespace CertRegistry.Url.Domain

/-- The ASCII characters that a domain name cannot hold. -/
def isForbidden (c : Char) : Bool :=
  c = ' ' || Percent.isControl c ||
    c ∈ ['%', '#', '/', ':', '<', '>', '?', '@', '[', '\\', ']', '^', '|']

/-- The runs of characters that are left out: those that only tell how others are shown. -/
def ignoredRuns : Text.Runs := #[
  (0xAD, 0xAD), (0x34F, 0x34F), (0x115F, 0x1160), (0x17B4, 0x17B5), (0x180B, 0x180F),
  (0x200B, 0x200B), (0x2060, 0x2064), (0x206A, 0x206F), (0x3164, 0x3164), (0xFE00, 0xFE0F),
  (0xFEFF, 0xFEFF), (0xFFA0, 0xFFA0), (0x1BCA0, 0x1BCA3), (0x1D173, 0x1D17A), (0xE0100, 0xE01EF)
]

/-- The runs of characters that a domain name cannot hold: controls, marks of the direction of
writing, separators, replacements, and what has a full stop inside. -/
def unusableRuns : Text.Runs := #[
  (0x80, 0x9F), (0x600, 0x605), (0x61C, 0x61C), (0x6DD, 0x6DD), (0x70F, 0x70F), (0x890, 0x891),
  (0x8E2, 0x8E2), (0x1680, 0x1680), (0x200E, 0x200F), (0x2024, 0x2026), (0x2028, 0x202E),
  (0x2066, 0x2069), (0x2488, 0x249B), (0x2FF0, 0x2FFF), (0x31EF, 0x31EF), (0x33C2, 0x33C2),
  (0x33C7, 0x33C7), (0x33D8, 0x33D8), (0xFE12, 0xFE12), (0xFE19, 0xFE19), (0xFE30, 0xFE30),
  (0xFE52, 0xFE52), (0xFFF9, 0xFFFD), (0x110BD, 0x110BD), (0x110CD, 0x110CD), (0x13430, 0x1343F),
  (0x1F100, 0x1F100), (0xE0001, 0xE0001), (0xE0020, 0xE007F)
]

/-- What a character stands for, unless no domain name can hold it. -/
def map? (c : Char) : Option (List Char) :=
  if c.toNat < 0x80 then some (Text.fold c)
  else if ignoredRuns.contains c then some []
  else if unusableRuns.contains c || Text.standsForBlank c || !Text.isAssigned c then none
  else some (Text.fold c)

/-- The text of a domain name as it is compared. -/
def normalize? (cs : List Char) : Option (List Char) := do
  let mapped ← cs.mapM map?
  let text := Text.composed mapped.flatten
  if text.any isForbidden then none else return text

/-- Whether a name has been written as it is compared. -/
def isNormal (cs : List Char) : Bool :=
  cs.all (fun c => map? c = some [c]) && normalize? cs = some cs

/-- Reads a label of a name that is written as it is compared. -/
def label? (cs : List Char) : Option Label :=
  match cs with
  | 'x' :: 'n' :: '-' :: '-' :: rest =>
    (Label.ofPunycode? rest).filter fun label => isNormal label.text
  | _ => Label.ofText? cs

/-- A domain name as it is sent. -/
def toAscii? (cs : List Char) : Option (List Char) := do
  let octets := Percent.decode (Bytes.ofText (String.ofList cs))
  let text ← normalize? (← Bytes.text? octets).toList
  let labels ← (text.splitOn '.').mapM label?
  if Label.areReadable labels then return ['.'].intercalate (labels.map (·.written)) else none

end CertRegistry.Url.Domain
