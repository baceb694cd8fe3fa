import CertRegistry.Text.Marks

/-!
# Printable characters

The characters that show as a sign of their own: not controls, format characters, separators other
than the space or fillers, and not marks that are a part of the character before.
-/

namespace CertRegistry.Text

/-- The runs of characters without a sign, marks apart, from U+007F on. -/
def hiddenRuns : Runs := #[
  (0x7F, 0xA0), (0xAD, 0xAD), (0x600, 0x605), (0x61C, 0x61C), (0x6DD, 0x6DD), (0x70F, 0x70F),
  (0x890, 0x891), (0x8E2, 0x8E2), (0x115F, 0x1160), (0x1680, 0x1680), (0x180E, 0x180E),
  (0x2000, 0x200F), (0x2028, 0x202F), (0x205F, 0x2064), (0x2066, 0x206F), (0x3000, 0x3000),
  (0x3164, 0x3164), (0xFEFF, 0xFEFF), (0xFFA0, 0xFFA0), (0xFFF9, 0xFFFB), (0x110BD, 0x110BD),
  (0x110CD, 0x110CD), (0x13430, 0x1343F), (0x1BCA0, 0x1BCA3), (0x1D173, 0x1D17A),
  (0xE0001, 0xE0001), (0xE0020, 0xE007F)
]

/-- Whether a character shows as a sign of its own. -/
def isPrintable (c : Char) : Bool :=
  if c.toNat < 0x7F then 0x20 ≤ c.toNat
  else !hiddenRuns.contains c && !isExtending c && isAssigned c

end CertRegistry.Text
