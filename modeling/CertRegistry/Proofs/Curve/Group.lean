import CertRegistry.Proofs.Curve.Primality
import Mathlib.AlgebraicGeometry.EllipticCurve.Affine.Point
import Mathlib.Tactic.LinearCombination

/-!
# Points as elements of a group

Each element of the group of the elliptic curve `y² = x³ + 7` is a point with residues as
coordinates. Sums and multiples of points are sums and multiples in the group. Points that are on no
curve play no part in this.
-/

namespace CertRegistry.Curve

open CertRegistry.Modular WeierstrassCurve.Affine

/-- The curve over the field of coordinates. -/
def weierstrass : WeierstrassCurve.Affine (ZMod fieldSize) where
  a₁ := 0
  a₂ := 0
  a₃ := 0
  a₄ := 0
  a₆ := 7

/-- The finite points of the curve and the one at infinity. -/
abbrev Group := weierstrass.Point

theorem equation_iff {x y : ZMod fieldSize} :
    weierstrass.Equation x y ↔ y * y = x * x * x + 7 := by
  rw [WeierstrassCurve.Affine.equation_iff]
  simp only [weierstrass, zero_mul, add_zero, pow_two, pow_three, mul_assoc]

theorem nonsingular_of_equation {x y : ZMod fieldSize} (h : weierstrass.Equation x y)
    (hy : y + y ≠ 0) : weierstrass.Nonsingular x y := by
  refine (nonsingular_iff x y).mpr ⟨h, Or.inr fun heq => hy ?_⟩
  simp only [weierstrass, zero_mul, sub_zero] at heq
  rw [add_eq_zero_iff_eq_neg]
  exact heq

theorem negY_eq (x y : ZMod fieldSize) : weierstrass.negY x y = -y := by
  simp [weierstrass]

/-! ## Residues as coordinates -/

theorem ofRing_add (a b : ZMod fieldSize) : ofRing (a + b) = ofRing a + ofRing b := by
  rw [ofRing_eq_iff, toRing_add, toRing_ofRing, toRing_ofRing]

theorem ofRing_sub (a b : ZMod fieldSize) : ofRing (a - b) = ofRing a - ofRing b := by
  rw [ofRing_eq_iff, toRing_sub, toRing_ofRing, toRing_ofRing]

theorem ofRing_mul (a b : ZMod fieldSize) : ofRing (a * b) = ofRing a * ofRing b := by
  rw [ofRing_eq_iff, toRing_mul, toRing_ofRing, toRing_ofRing]

theorem ofRing_inv (a : ZMod fieldSize) : ofRing a⁻¹ = inverse (ofRing a) := by
  rw [ofRing_eq_iff, toRing_inverse, toRing_ofRing]

namespace Point

/-- The point that an element of the group is. -/
def ofGroup : Group → Point
  | .zero => .infinity
  | .some x y _ => .affine (ofRing x) (ofRing y)

@[simp]
theorem ofGroup_zero : ofGroup 0 = .infinity := rfl

theorem ofGroup_some {x y : ZMod fieldSize} (h : weierstrass.Nonsingular x y) :
    ofGroup (.some x y h) = .affine (ofRing x) (ofRing y) := rfl

theorem infinity_add (q : Point) : Point.infinity + q = q := rfl

theorem add_infinity (p : Point) : p + Point.infinity = p := by
  cases p <;> rfl

/-- The formulas for the sum are those for the third point on a line. -/
theorem onLine_ofRing (slope x₁ y₁ x₂ : ZMod fieldSize) :
    onLine (ofRing slope) (ofRing x₁) (ofRing y₁) (ofRing x₂) =
      .affine (ofRing (weierstrass.addX x₁ x₂ slope))
        (ofRing (weierstrass.addY x₁ x₂ y₁ slope)) := by
  have hx : weierstrass.addX x₁ x₂ slope = slope * slope - x₁ - x₂ := by
    simp only [addX, weierstrass]
    ring
  have hy : weierstrass.addY x₁ x₂ y₁ slope =
      slope * (x₁ - (slope * slope - x₁ - x₂)) - y₁ := by
    rw [addY, negY_eq, negAddY, hx]
    ring
  simp only [onLine, hx, hy, ofRing_sub, ofRing_mul]

theorem affine_add_affine (x₁ y₁ x₂ y₂ : Coordinate) :
    Point.affine x₁ y₁ + Point.affine x₂ y₂ =
      if x₁ ≠ x₂ then onLine ((y₂ - y₁) * inverse (x₂ - x₁)) x₁ y₁ x₂
      else if y₁ + y₂ = 0 then .infinity
      else onLine (3 * x₁ * x₁ * inverse (2 * y₁)) x₁ y₁ x₂ := rfl

/-- Two points that do not cancel have the third point on their line as sum. -/
theorem ofGroup_add_some {x₁ y₁ x₂ y₂ : ZMod fieldSize} (hp : weierstrass.Nonsingular x₁ y₁)
    (hq : weierstrass.Nonsingular x₂ y₂) (h : ¬ (x₁ = x₂ ∧ y₁ = weierstrass.negY x₂ y₂)) :
    ofGroup (.some x₁ y₁ hp + .some x₂ y₂ hq) =
      onLine (ofRing (weierstrass.slope x₁ x₂ y₁ y₂)) (ofRing x₁) (ofRing y₁) (ofRing x₂) := by
  rw [Point.add_some h, ofGroup_some, onLine_ofRing]

theorem ofGroup_add (p q : Group) : ofGroup (p + q) = ofGroup p + ofGroup q := by
  cases p with
  | zero => exact (congrArg ofGroup (zero_add q)).trans (infinity_add _).symm
  | some x₁ y₁ hp =>
    cases q with
    | zero => exact (congrArg ofGroup (add_zero _)).trans (add_infinity _).symm
    | some x₂ y₂ hq =>
      rw [ofGroup_some, ofGroup_some, affine_add_affine]
      by_cases hx : x₁ = x₂
      · rw [if_neg (not_not.mpr (congrArg ofRing hx))]
        by_cases hy : y₁ = weierstrass.negY x₂ y₂
        · have hsum : ofRing y₁ + ofRing y₂ = (0 : Coordinate) := by
            rw [← ofRing_add, hy, negY_eq, neg_add_cancel, ofRing_eq_iff]
            rfl
          rw [if_pos hsum, Point.add_of_Y_eq hx hy, ofGroup_zero]
        · have hsum : ofRing y₁ + ofRing y₂ ≠ (0 : Coordinate) := by
            intro hzero
            rw [← ofRing_add, ofRing_eq_iff] at hzero
            exact hy ((eq_neg_of_add_eq_zero_left hzero).trans (negY_eq _ _).symm)
          have hslope : weierstrass.slope x₁ x₂ y₁ y₂ = 3 * x₁ * x₁ * (2 * y₁)⁻¹ := by
            rw [slope_of_Y_ne hx hy, negY_eq, div_eq_mul_inv]
            simp only [weierstrass, mul_zero, zero_mul, add_zero, sub_zero, sub_neg_eq_add]
            ring
          rw [if_neg hsum, ofGroup_add_some hp hq fun h => hy h.2, hslope]
          simp only [ofRing_mul, ofRing_inv]
          rfl
      · have hslope : weierstrass.slope x₁ x₂ y₁ y₂ = (y₂ - y₁) * (x₂ - x₁)⁻¹ := by
          rw [slope_of_X_ne hx, div_eq_mul_inv, ← neg_sub x₂, ← neg_sub y₂, inv_neg, neg_mul_neg]
        rw [if_pos (ofRing_injective.ne hx), ofGroup_add_some hp hq fun h => hx h.1, hslope]
        simp only [ofRing_mul, ofRing_inv, ofRing_sub]

/-- Sums of copies are multiples in the group. -/
theorem multiple_ofGroup (p : Group) (bits : Nat) {k : Nat} (h : k < 2 ^ bits) :
    (ofGroup p).multiple bits k = ofGroup (k • p) := by
  induction bits generalizing p k with
  | zero =>
    obtain rfl : k = 0 := by simpa using h
    rw [zero_nsmul]
    rfl
  | succ bits ih =>
    have hhalf : k / 2 < 2 ^ bits := by
      rw [Nat.pow_succ] at h
      omega
    have hdouble : (ofGroup p + ofGroup p).multiple bits (k / 2) = ofGroup ((2 * (k / 2)) • p) := by
      rw [← ofGroup_add, ih (p + p) hhalf, ← two_nsmul, ← mul_nsmul]
    rw [multiple]
    split
    · next hodd =>
      rw [hdouble, ← ofGroup_add, ← succ_nsmul]
      congr 2
      omega
    · next heven =>
      rw [hdouble]
      congr 2
      omega

theorem scale_ofGroup (k : Scalar) (p : Group) : (ofGroup p).scale k = ofGroup (k.val • p) :=
  multiple_ofGroup p 256 (Nat.lt_trans k.isLt (by decide))

end Point

end CertRegistry.Curve
