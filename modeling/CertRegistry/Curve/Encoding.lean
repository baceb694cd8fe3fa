import CertRegistry.Bytes
import CertRegistry.Curve.Point

/-!
# Points as octets

A point is written with its first coordinate and the parity of the second. Reading also takes the
long forms with both coordinates, one of which states the parity as well.
-/

namespace CertRegistry.Curve

/-- A number as a coordinate, if it is in range. -/
def Coordinate.ofBytes? (bs : Bytes) : Option Coordinate :=
  let n := Bytes.toNat bs
  if h : n < fieldSize then some ⟨n, h⟩ else none

def Coordinate.isOdd (y : Coordinate) : Bool := y.val % 2 == 1

namespace Point

/-- The point with a given first coordinate and parity of the second. The size of the field leaves
remainder three on division by four, which makes this power a root of every square. -/
def ofX? (x : Coordinate) (odd : Bool) : Option Point :=
  let square := x * x * x + 7
  let root := Modular.power square 256 ((fieldSize + 1) / 4)
  if root * root ≠ square then none
  else some (.affine x (if Coordinate.isOdd root = odd then root else -root))

/-- The short form: 33 octets, or a single zero for infinity. -/
def toBytes : Point → Bytes
  | .infinity => [0]
  | .affine x y => (if Coordinate.isOdd y then 3 else 2) :: Bytes.ofNat 32 x.val

/-- Whether a long form that starts with `tag` may hold a second coordinate of this parity. -/
def longTagAllows (tag : UInt8) (odd : Bool) : Bool :=
  tag == 4 || (tag == 6 && !odd) || (tag == 7 && odd)

/-- The point that octets spell in the short form or in one of the long forms. -/
def ofBytes? : Bytes → Option Point
  | [] => none
  | tag :: body =>
    if body.length = 32 then
      if tag = 2 ∨ tag = 3 then
        (Coordinate.ofBytes? body).bind fun x => ofX? x (tag = 3)
      else none
    else if body.length = 64 then do
      let x ← Coordinate.ofBytes? (body.take 32)
      let y ← Coordinate.ofBytes? (body.drop 32)
      if onCurve x y && longTagAllows tag (Coordinate.isOdd y) then some (.affine x y) else none
    else none

end Point

end CertRegistry.Curve
