import CertRegistry.Bytes

/-!
# The SHA-2 digests

One compression scheme, run over 32-bit words for SHA-256 and over 64-bit words for SHA-512. A
message is padded to whole blocks of sixteen words; every block is stretched to one word per
round, and the rounds stir it into eight words of state.
-/

namespace CertRegistry

/-- The eight working words. -/
structure Sha2.State (W : Type) where
  a : W
  b : W
  c : W
  d : W
  e : W
  f : W
  g : W
  h : W

/-- What tells one member of the family from another. -/
structure Sha2 (W : Type) where
  wordSize : Nat
  ofNat : Nat → W
  toNat : W → Nat
  rotate : W → Nat → W
  shift : W → Nat → W
  initial : Sha2.State W
  constants : List W
  /-- Rotations applied to `a` and to `e` in each round. -/
  majorA : Nat × Nat × Nat
  majorE : Nat × Nat × Nat
  /-- Two rotations and a shift for each of the two words that stretch a block. -/
  minorOld : Nat × Nat × Nat
  minorNew : Nat × Nat × Nat

namespace Sha2

variable {W : Type} [Add W] [XorOp W] [AndOp W] [Complement W] (H : Sha2 W)

def rotations (r : Nat × Nat × Nat) (x : W) : W :=
  H.rotate x r.1 ^^^ H.rotate x r.2.1 ^^^ H.rotate x r.2.2

def rotationsShift (r : Nat × Nat × Nat) (x : W) : W :=
  H.rotate x r.1 ^^^ H.rotate x r.2.1 ^^^ H.shift x r.2.2

/-- One round with its constant and its word of the block. -/
def round (s : State W) (k w : W) : State W :=
  let choice := (s.e &&& s.f) ^^^ (~~~ s.e &&& s.g)
  let majority := (s.a &&& s.b) ^^^ (s.a &&& s.c) ^^^ (s.b &&& s.c)
  let t₁ := s.h + H.rotations H.majorE s.e + choice + k + w
  let t₂ := H.rotations H.majorA s.a + majority
  { a := t₁ + t₂, b := s.a, c := s.b, d := s.c, e := s.d + t₁, f := s.e, g := s.f, h := s.g }

/-- The words of a block and `count` more, from a window of the latest sixteen. -/
def stretch : Nat → List W → List W
  | 0, window => window
  | count + 1, window =>
    match window with
    | w₀ :: rest =>
      let fresh := w₀ + H.rotationsShift H.minorOld (rest.getD 0 w₀) + rest.getD 8 w₀ +
        H.rotationsShift H.minorNew (rest.getD 13 w₀)
      w₀ :: stretch count (rest ++ [fresh])
    | [] => []

/-- The words that octets spell, each of `wordSize` octets. -/
def words : Nat → Bytes → List W
  | 0, _ => []
  | count + 1, bs =>
    H.ofNat (Bytes.toNat (bs.take H.wordSize)) :: words count (bs.drop H.wordSize)

/-- Stirs one block into the state. -/
def compress (s : State W) (block : Bytes) : State W :=
  let schedule := H.stretch (H.constants.length - 16) (H.words 16 block)
  let t := (H.constants.zip schedule).foldl (fun t kw => H.round t kw.1 kw.2) s
  { a := s.a + t.a, b := s.b + t.b, c := s.c + t.c, d := s.d + t.d,
    e := s.e + t.e, f := s.f + t.f, g := s.g + t.g, h := s.h + t.h }

/-- Stirs in `count` blocks, one after the other. -/
def absorb : Nat → State W → Bytes → State W
  | 0, s, _ => s
  | count + 1, s, bs =>
    absorb count (H.compress s (bs.take (16 * H.wordSize))) (bs.drop (16 * H.wordSize))

/-- The message, a set bit, zeros up to a whole number of blocks, and the length in bits. -/
def padded (message : Bytes) : Bytes :=
  let block := 16 * H.wordSize
  let tail := 2 * H.wordSize
  let zeros := (block - (message.length + 1 + tail) % block) % block
  message ++ 0x80 :: List.replicate zeros 0 ++ Bytes.ofNat tail (8 * message.length)

/-- The octets of the state. -/
def State.octets (s : State W) : Bytes :=
  [s.a, s.b, s.c, s.d, s.e, s.f, s.g, s.h].flatMap fun w => Bytes.ofNat H.wordSize (H.toNat w)

def digest (message : Bytes) : Bytes :=
  let bs := H.padded message
  State.octets H (H.absorb (bs.length / (16 * H.wordSize)) H.initial bs)

theorem length_digest (message : Bytes) : (H.digest message).length = 8 * H.wordSize := by
  simp [digest, State.octets]
  omega

end Sha2

/-- SHA-256. -/
def sha256Scheme : Sha2 UInt32 where
  wordSize := 4
  ofNat := UInt32.ofNat
  toNat := UInt32.toNat
  rotate x n := (x >>> UInt32.ofNat n) ||| (x <<< UInt32.ofNat (32 - n))
  shift x n := x >>> UInt32.ofNat n
  initial :=
    { a := 0x6a09e667, b := 0xbb67ae85, c := 0x3c6ef372, d := 0xa54ff53a,
      e := 0x510e527f, f := 0x9b05688c, g := 0x1f83d9ab, h := 0x5be0cd19 }
  constants := [
    0x428a2f98, 0x71374491, 0xb5c0fbcf, 0xe9b5dba5, 0x3956c25b, 0x59f111f1, 0x923f82a4, 0xab1c5ed5,
    0xd807aa98, 0x12835b01, 0x243185be, 0x550c7dc3, 0x72be5d74, 0x80deb1fe, 0x9bdc06a7, 0xc19bf174,
    0xe49b69c1, 0xefbe4786, 0x0fc19dc6, 0x240ca1cc, 0x2de92c6f, 0x4a7484aa, 0x5cb0a9dc, 0x76f988da,
    0x983e5152, 0xa831c66d, 0xb00327c8, 0xbf597fc7, 0xc6e00bf3, 0xd5a79147, 0x06ca6351, 0x14292967,
    0x27b70a85, 0x2e1b2138, 0x4d2c6dfc, 0x53380d13, 0x650a7354, 0x766a0abb, 0x81c2c92e, 0x92722c85,
    0xa2bfe8a1, 0xa81a664b, 0xc24b8b70, 0xc76c51a3, 0xd192e819, 0xd6990624, 0xf40e3585, 0x106aa070,
    0x19a4c116, 0x1e376c08, 0x2748774c, 0x34b0bcb5, 0x391c0cb3, 0x4ed8aa4a, 0x5b9cca4f, 0x682e6ff3,
    0x748f82ee, 0x78a5636f, 0x84c87814, 0x8cc70208, 0x90befffa, 0xa4506ceb, 0xbef9a3f7, 0xc67178f2]
  majorA := (2, 13, 22)
  majorE := (6, 11, 25)
  minorOld := (7, 18, 3)
  minorNew := (17, 19, 10)

/-- SHA-512. -/
def sha512Scheme : Sha2 UInt64 where
  wordSize := 8
  ofNat := UInt64.ofNat
  toNat := UInt64.toNat
  rotate x n := (x >>> UInt64.ofNat n) ||| (x <<< UInt64.ofNat (64 - n))
  shift x n := x >>> UInt64.ofNat n
  initial :=
    { a := 0x6a09e667f3bcc908, b := 0xbb67ae8584caa73b, c := 0x3c6ef372fe94f82b,
      d := 0xa54ff53a5f1d36f1, e := 0x510e527fade682d1, f := 0x9b05688c2b3e6c1f,
      g := 0x1f83d9abfb41bd6b, h := 0x5be0cd19137e2179 }
  constants := [
    0x428a2f98d728ae22, 0x7137449123ef65cd, 0xb5c0fbcfec4d3b2f, 0xe9b5dba58189dbbc,
    0x3956c25bf348b538, 0x59f111f1b605d019, 0x923f82a4af194f9b, 0xab1c5ed5da6d8118,
    0xd807aa98a3030242, 0x12835b0145706fbe, 0x243185be4ee4b28c, 0x550c7dc3d5ffb4e2,
    0x72be5d74f27b896f, 0x80deb1fe3b1696b1, 0x9bdc06a725c71235, 0xc19bf174cf692694,
    0xe49b69c19ef14ad2, 0xefbe4786384f25e3, 0x0fc19dc68b8cd5b5, 0x240ca1cc77ac9c65,
    0x2de92c6f592b0275, 0x4a7484aa6ea6e483, 0x5cb0a9dcbd41fbd4, 0x76f988da831153b5,
    0x983e5152ee66dfab, 0xa831c66d2db43210, 0xb00327c898fb213f, 0xbf597fc7beef0ee4,
    0xc6e00bf33da88fc2, 0xd5a79147930aa725, 0x06ca6351e003826f, 0x142929670a0e6e70,
    0x27b70a8546d22ffc, 0x2e1b21385c26c926, 0x4d2c6dfc5ac42aed, 0x53380d139d95b3df,
    0x650a73548baf63de, 0x766a0abb3c77b2a8, 0x81c2c92e47edaee6, 0x92722c851482353b,
    0xa2bfe8a14cf10364, 0xa81a664bbc423001, 0xc24b8b70d0f89791, 0xc76c51a30654be30,
    0xd192e819d6ef5218, 0xd69906245565a910, 0xf40e35855771202a, 0x106aa07032bbd1b8,
    0x19a4c116b8d2d0c8, 0x1e376c085141ab53, 0x2748774cdf8eeb99, 0x34b0bcb5e19b48a8,
    0x391c0cb3c5c95a63, 0x4ed8aa4ae3418acb, 0x5b9cca4f7763e373, 0x682e6ff3d6b2b8a3,
    0x748f82ee5defb2fc, 0x78a5636f43172f60, 0x84c87814a1f0ab72, 0x8cc702081a6439ec,
    0x90befffa23631e28, 0xa4506cebde82bde9, 0xbef9a3f7b2c67915, 0xc67178f2e372532b,
    0xca273eceea26619c, 0xd186b8c721c0c207, 0xeada7dd6cde0eb1e, 0xf57d4f7fee6ed178,
    0x06f067aa72176fba, 0x0a637dc5a2c898a6, 0x113f9804bef90dae, 0x1b710b35131c471b,
    0x28db77f523047d84, 0x32caab7b40c72493, 0x3c9ebe0a15c9bebc, 0x431d67c49c100d4c,
    0x4cc5d4becb3e42b6, 0x597f299cfc657e2a, 0x5fcb6fab3ad6faec, 0x6c44198c4a475817]
  majorA := (28, 34, 39)
  majorE := (14, 18, 41)
  minorOld := (1, 8, 7)
  minorNew := (19, 61, 6)

/-- The 32 octets of SHA-256. -/
def sha256 (message : Bytes) : Bytes := sha256Scheme.digest message

/-- The 64 octets of SHA-512. -/
def sha512 (message : Bytes) : Bytes := sha512Scheme.digest message

@[simp]
theorem length_sha256 (message : Bytes) : (sha256 message).length = 32 :=
  sha256Scheme.length_digest message

@[simp]
theorem length_sha512 (message : Bytes) : (sha512 message).length = 64 :=
  sha512Scheme.length_digest message

end CertRegistry
