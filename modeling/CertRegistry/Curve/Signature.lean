import CertRegistry.Curve.Point
import CertRegistry.Bytes

/-!
# Signatures on the curve

A signature of a number is a pair of scalars. It is made with a one-time factor, its second
half is kept in the lower half of the range, and only such signatures are accepted.
-/

namespace CertRegistry.Curve

structure Signature where
  r : Scalar
  s : Scalar
  deriving DecidableEq

namespace Signature

/-- Whether a scalar lies in the upper half of the range. -/
def isHigh (s : Scalar) : Bool := s.val > order / 2

/-- The first coordinate of a finite point, as a scalar. -/
def xScalar : Point → Option Scalar
  | .infinity => none
  | .affine x _ => some (Fin.ofNat order x.val)

/-- The signature of `message` under the key `secret` with the one-time factor `nonce`, unless one
of its halves comes out as zero. -/
def make? (secret message nonce : Scalar) : Option Signature := do
  let r ← xScalar (generator.scale nonce)
  let s := Modular.inverse nonce * (message + r * secret)
  if r = 0 ∨ s = 0 then none
  else some { r, s := if isHigh s then -s else s }

/-- Whether the signature of `message` is good for a public key. -/
def accepts (key : Point) (message : Scalar) (sig : Signature) : Bool :=
  if sig.r = 0 ∨ sig.s = 0 ∨ isHigh sig.s then false
  else
    let w := Modular.inverse sig.s
    xScalar (key.scale (w * sig.r) + generator.scale (w * message)) == some sig.r

/-- The halves, 32 octets each. -/
def toBytes (sig : Signature) : Bytes := Bytes.ofNat 32 sig.r.val ++ Bytes.ofNat 32 sig.s.val

/-- The number that octets spell, if it is in the range of scalars. -/
def scalar? (bs : Bytes) : Option Scalar :=
  let n := Bytes.toNat bs
  if h : n < order then some ⟨n, h⟩ else none

/-- The signature that 64 octets spell, if both halves are in range. -/
def ofBytes? (bs : Bytes) : Option Signature :=
  if bs.length = 64 then do
    let r ← scalar? (bs.take 32)
    let s ← scalar? (bs.drop 32)
    return { r, s }
  else none

end Signature

end CertRegistry.Curve
