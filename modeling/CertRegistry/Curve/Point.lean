import CertRegistry.Curve.Modular

/-!
# The curve secp256k1

The points with `y² = x³ + 7` over a prime field, and their group law in affine coordinates with
the point at infinity as zero.
-/

namespace CertRegistry.Curve

/-- The size of the field of coordinates. -/
def fieldSize : Nat := 0xfffffffffffffffffffffffffffffffffffffffffffffffffffffffefffffc2f

/-- The number of points, and so the modulus of the factors of a point. -/
def order : Nat := 0xfffffffffffffffffffffffffffffffebaaedce6af48a03bbfd25e8cd0364141

instance : @NeZero Nat Zero.ofOfNat0 fieldSize := ⟨by decide⟩

instance : @NeZero Nat Zero.ofOfNat0 order := ⟨by decide⟩

abbrev Coordinate := Fin fieldSize

abbrev Scalar := Fin order

inductive Point where
  | infinity
  | affine (x y : Coordinate)
  deriving DecidableEq

/-- Whether two coordinates satisfy the equation of the curve. -/
def onCurve (x y : Coordinate) : Bool := y * y == x * x * x + 7

namespace Point

/-- The third point on the line with the given slope through a point with first coordinate `x₁`
and another with `x₂`, mirrored. -/
def onLine (slope x₁ y₁ x₂ : Coordinate) : Point :=
  let x := slope * slope - x₁ - x₂
  .affine x (slope * (x₁ - x) - y₁)

def add : Point → Point → Point
  | .infinity, q => q
  | p, .infinity => p
  | .affine x₁ y₁, .affine x₂ y₂ =>
    if x₁ ≠ x₂ then
      onLine ((y₂ - y₁) * Modular.inverse (x₂ - x₁)) x₁ y₁ x₂
    else if y₁ + y₂ = 0 then
      .infinity
    else
      onLine (3 * x₁ * x₁ * Modular.inverse (2 * y₁)) x₁ y₁ x₂

instance : Add Point := ⟨add⟩

/-- The sum of as many copies of a point as the lowest `bits` bits of `k` say. -/
def multiple (p : Point) : Nat → Nat → Point
  | 0, _ => .infinity
  | bits + 1, k =>
    let double := multiple (p + p) bits (k / 2)
    if k % 2 = 1 then double + p else double

/-- The sum of `k` copies of a point. -/
def scale (k : Scalar) (p : Point) : Point := p.multiple 256 k.val

end Point

/-- The point whose multiples all others are. -/
def generator : Point :=
  .affine 0x79be667ef9dcbbac55a06295ce870b07029bfcdb2dce28d959f2815b16f81798
    0x483ada7726a3c4655da4fbfc0e1108a8fd17b448a68554199c47d08ffb10d4b8

end CertRegistry.Curve
