import CertRegistry.Text.Runs

/-!
# Capital letters

The capital letters of all scripts and the small letters that belong to them, for those pairs
that are one character each.
-/

namespace CertRegistry.Text

/-- Runs of capital letters from U+0080 on, and the small letter that belongs to the first one; the
others follow in order. -/
def capitalRuns : Array (Nat × Nat × Nat) := #[
  (0xC0, 0xD6, 0xE0), (0xD8, 0xDE, 0xF8), (0x178, 0x178, 0xFF), (0x181, 0x181, 0x253),
  (0x186, 0x186, 0x254), (0x187, 0x187, 0x188), (0x189, 0x18A, 0x256), (0x18B, 0x18B, 0x18C),
  (0x18E, 0x18E, 0x1DD), (0x18F, 0x18F, 0x259), (0x190, 0x190, 0x25B), (0x191, 0x191, 0x192),
  (0x193, 0x193, 0x260), (0x194, 0x194, 0x263), (0x196, 0x196, 0x269), (0x197, 0x197, 0x268),
  (0x198, 0x198, 0x199), (0x19C, 0x19C, 0x26F), (0x19D, 0x19D, 0x272), (0x19F, 0x19F, 0x275),
  (0x1A6, 0x1A6, 0x280), (0x1A7, 0x1A7, 0x1A8), (0x1A9, 0x1A9, 0x283), (0x1AC, 0x1AC, 0x1AD),
  (0x1AE, 0x1AE, 0x288), (0x1AF, 0x1AF, 0x1B0), (0x1B1, 0x1B2, 0x28A), (0x1B7, 0x1B7, 0x292),
  (0x1B8, 0x1B8, 0x1B9), (0x1BC, 0x1BC, 0x1BD), (0x1F4, 0x1F4, 0x1F5), (0x1F6, 0x1F6, 0x195),
  (0x1F7, 0x1F7, 0x1BF), (0x220, 0x220, 0x19E), (0x23A, 0x23A, 0x2C65), (0x23B, 0x23B, 0x23C),
  (0x23D, 0x23D, 0x19A), (0x23E, 0x23E, 0x2C66), (0x241, 0x241, 0x242), (0x243, 0x243, 0x180),
  (0x244, 0x244, 0x289), (0x245, 0x245, 0x28C), (0x376, 0x376, 0x377), (0x37F, 0x37F, 0x3F3),
  (0x386, 0x386, 0x3AC), (0x388, 0x38A, 0x3AD), (0x38C, 0x38C, 0x3CC), (0x38E, 0x38F, 0x3CD),
  (0x391, 0x3A1, 0x3B1), (0x3A3, 0x3AB, 0x3C3), (0x3CF, 0x3CF, 0x3D7), (0x3F4, 0x3F4, 0x3B8),
  (0x3F7, 0x3F7, 0x3F8), (0x3FA, 0x3FA, 0x3FB), (0x3FD, 0x3FF, 0x37B), (0x400, 0x40F, 0x450),
  (0x410, 0x42F, 0x430), (0x4C0, 0x4C0, 0x4CF), (0x531, 0x556, 0x561), (0x10A0, 0x10C5, 0x2D00),
  (0x10C7, 0x10C7, 0x2D27), (0x10CD, 0x10CD, 0x2D2D), (0x1C89, 0x1C89, 0x1C8A),
  (0x1C90, 0x1CBA, 0x10D0), (0x1CBD, 0x1CBF, 0x10FD), (0x1E9E, 0x1E9E, 0xDF),
  (0x1F08, 0x1F0F, 0x1F00), (0x1F18, 0x1F1D, 0x1F10), (0x1F28, 0x1F2F, 0x1F20),
  (0x1F38, 0x1F3F, 0x1F30), (0x1F48, 0x1F4D, 0x1F40), (0x1F59, 0x1F59, 0x1F51),
  (0x1F5B, 0x1F5B, 0x1F53), (0x1F5D, 0x1F5D, 0x1F55), (0x1F5F, 0x1F5F, 0x1F57),
  (0x1F68, 0x1F6F, 0x1F60), (0x1FB8, 0x1FB9, 0x1FB0), (0x1FBA, 0x1FBA, 0x1F70),
  (0x1FC8, 0x1FC8, 0x1F72), (0x1FCA, 0x1FCA, 0x1F74), (0x1FD8, 0x1FD9, 0x1FD0),
  (0x1FDA, 0x1FDA, 0x1F76), (0x1FE8, 0x1FE9, 0x1FE0), (0x1FEA, 0x1FEA, 0x1F7A),
  (0x1FEC, 0x1FEC, 0x1FE5), (0x1FF8, 0x1FF8, 0x1F78), (0x1FFA, 0x1FFA, 0x1F7C),
  (0x2126, 0x2126, 0x3C9), (0x212A, 0x212A, 0x6B), (0x212B, 0x212B, 0xE5),
  (0x2132, 0x2132, 0x214E), (0x2183, 0x2183, 0x2184), (0x2C00, 0x2C2F, 0x2C30),
  (0x2C60, 0x2C60, 0x2C61), (0x2C62, 0x2C62, 0x26B), (0x2C63, 0x2C63, 0x1D7D),
  (0x2C64, 0x2C64, 0x27D), (0x2C6D, 0x2C6D, 0x251), (0x2C6E, 0x2C6E, 0x271),
  (0x2C6F, 0x2C6F, 0x250), (0x2C70, 0x2C70, 0x252), (0x2C72, 0x2C72, 0x2C73),
  (0x2C75, 0x2C75, 0x2C76), (0x2C7E, 0x2C7F, 0x23F), (0x2CF2, 0x2CF2, 0x2CF3),
  (0xA77D, 0xA77D, 0x1D79), (0xA78B, 0xA78B, 0xA78C), (0xA78D, 0xA78D, 0x265),
  (0xA7AA, 0xA7AA, 0x266), (0xA7AB, 0xA7AB, 0x25C), (0xA7AC, 0xA7AC, 0x261),
  (0xA7AD, 0xA7AD, 0x26C), (0xA7AE, 0xA7AE, 0x26A), (0xA7B0, 0xA7B0, 0x29E),
  (0xA7B1, 0xA7B1, 0x287), (0xA7B2, 0xA7B2, 0x29D), (0xA7B3, 0xA7B3, 0xAB53),
  (0xA7C4, 0xA7C4, 0xA794), (0xA7C5, 0xA7C5, 0x282), (0xA7C6, 0xA7C6, 0x1D8E),
  (0xA7CB, 0xA7CB, 0x264), (0xA7DC, 0xA7DC, 0x19B), (0xA7F5, 0xA7F5, 0xA7F6),
  (0x10400, 0x10427, 0x10428), (0x104B0, 0x104D3, 0x104D8), (0x10570, 0x1057A, 0x10597),
  (0x1057C, 0x1058A, 0x105A3), (0x1058C, 0x10592, 0x105B3), (0x10594, 0x10595, 0x105BB),
  (0x10C80, 0x10CB2, 0x10CC0), (0x10D50, 0x10D65, 0x10D70), (0x118A0, 0x118BF, 0x118C0),
  (0x16E40, 0x16E5F, 0x16E60), (0x16EA0, 0x16EB8, 0x16EBB), (0x1E900, 0x1E921, 0x1E922)
]

/-- Runs in which every other letter, from the first to the last one, is a capital letter before
its small one. -/
def alternatingRuns : Runs := #[
  (0x100, 0x12E), (0x134, 0x136), (0x139, 0x13D), (0x141, 0x147), (0x14A, 0x176), (0x179, 0x17D),
  (0x182, 0x184), (0x1A0, 0x1A4), (0x1B3, 0x1B5), (0x1CD, 0x1DB), (0x1DE, 0x1EE), (0x1F8, 0x21E),
  (0x222, 0x232), (0x246, 0x24E), (0x370, 0x372), (0x3D8, 0x3EE), (0x460, 0x480), (0x48A, 0x4BE),
  (0x4C1, 0x4CD), (0x4D0, 0x52E), (0x1E00, 0x1E94), (0x1EA0, 0x1EFE), (0x2C67, 0x2C6B),
  (0x2C80, 0x2CE2), (0x2CEB, 0x2CED), (0xA640, 0xA66C), (0xA680, 0xA69A), (0xA722, 0xA72E),
  (0xA732, 0xA76E), (0xA779, 0xA77B), (0xA77E, 0xA786), (0xA790, 0xA792), (0xA796, 0xA7A8),
  (0xA7B4, 0xA7C2), (0xA7C7, 0xA7C9), (0xA7CC, 0xA7DA)
]

/-- The small letter that belongs to a capital one. -/
def smallLetter? (c : Char) : Option Char :=
  let n := c.toNat
  if c.isUpper then some c.toLower
  else if n < 0x80 then none
  else
    match capitalRuns.find? fun (first, last, _) => first ≤ n && n ≤ last with
    | some (first, _, small) => some (Char.ofNat (small + (n - first)))
    | none =>
      if alternatingRuns.any fun (first, last) =>
          first ≤ n && n ≤ last && (n - first) % 2 == 0 then some (Char.ofNat (n + 1))
      else none

end CertRegistry.Text
