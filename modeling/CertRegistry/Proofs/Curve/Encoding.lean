import CertRegistry.Curve.Encoding
import CertRegistry.Proofs.Curve.Group
import Mathlib.FieldTheory.Finite.Basic

/-!
# Points that are read back

The short form of a finite point of the group names the first coordinate and the parity of the
second. The second is a square root, found by Euler's criterion, and of the two roots only one has
the parity.
-/

namespace CertRegistry.Curve

open CertRegistry.Modular

theorem Coordinate.ofBytes?_ofNat (x : Coordinate) :
    Coordinate.ofBytes? (Bytes.ofNat 32 x.val) = some x := by
  have hvalue : Bytes.toNat (Bytes.ofNat 32 x.val) = x.val := by
    rw [Bytes.toNat_ofNat]
    exact Nat.mod_eq_of_lt (Nat.lt_trans x.isLt (by decide))
  simp only [Coordinate.ofBytes?, hvalue, x.isLt, dif_pos]

/-- The size of the field is odd, so a coordinate and its negative differ in parity. -/
theorem Coordinate.isOdd_neg {y : Coordinate} (h : y ≠ 0) :
    Coordinate.isOdd (-y) = !Coordinate.isOdd y := by
  have hpos : 0 < y.val := Nat.pos_of_ne_zero fun hzero => h (Fin.ext hzero)
  have hneg : (-y).val = fieldSize - y.val := by
    rw [Fin.neg_def]
    exact Nat.mod_eq_of_lt (Nat.sub_lt (by decide) hpos)
  have hlt : y.val < fieldSize := y.isLt
  have hodd : fieldSize % 2 = 1 := by decide
  have hparity : (fieldSize - y.val) % 2 = 1 ↔ ¬ y.val % 2 = 1 := by omega
  rw [Coordinate.isOdd, Coordinate.isOdd, hneg, Bool.eq_iff_iff]
  simpa using hparity

/-- The power that is taken for a root of a square is one. -/
theorem pow_root (y : ZMod fieldSize) :
    (y * y) ^ ((fieldSize + 1) / 4) * (y * y) ^ ((fieldSize + 1) / 4) = y * y := by
  by_cases hy : y = 0
  · rw [hy, zero_mul, zero_pow (by decide), zero_mul]
  · have hexponent : 2 * ((fieldSize + 1) / 4 + (fieldSize + 1) / 4) = (fieldSize - 1) + 2 := by
      decide
    rw [← pow_add, ← pow_two, ← pow_mul, hexponent, pow_add, ZMod.pow_card_sub_one_eq_one hy,
      one_mul]

namespace Point

theorem ofX?_of_onCurve {x y : Coordinate} (h : onCurve x y = true) :
    ofX? x (Coordinate.isOdd y) = some (.affine x y) := by
  have hsquare : x * x * x + 7 = y * y := (beq_iff_eq.mp h).symm
  unfold ofX?
  simp only [hsquare]
  generalize hroot : power (y * y) 256 ((fieldSize + 1) / 4) = root
  have hpower : toRing root = (toRing y * toRing y) ^ ((fieldSize + 1) / 4) := by
    rw [← hroot, toRing_power _ _ (by decide), toRing_mul]
  have hring : toRing root * toRing root = toRing y * toRing y := by
    rw [hpower, pow_root]
  have hgood : root * root = y * y := by
    rw [← toRing_inj, toRing_mul, toRing_mul, hring]
  rw [if_neg (not_not.mpr hgood)]
  rcases mul_self_eq_mul_self_iff.mp hring with heq | heq
  · rw [if_pos (congrArg Coordinate.isOdd (toRing_injective heq)), toRing_injective heq]
  · rw [← toRing_neg] at heq
    obtain rfl := toRing_injective heq
    by_cases hy : y = 0
    · subst hy
      rfl
    · have hparity : Coordinate.isOdd (-y) ≠ Coordinate.isOdd y := by
        rw [Coordinate.isOdd_neg hy]
        exact Bool.not_ne_self _
      have hback : - -y = y := by
        rw [← toRing_inj, toRing_neg, toRing_neg, neg_neg]
      rw [if_neg hparity, hback]

theorem ofBytes?_toBytes_of_onCurve {x y : Coordinate} (h : onCurve x y = true) :
    ofBytes? (Point.affine x y).toBytes = some (.affine x y) := by
  have hlength : (Bytes.ofNat 32 x.val).length = 32 := Bytes.length_ofNat 32 x.val
  have hroot := ofX?_of_onCurve h
  rw [toBytes, ofBytes?, if_pos hlength, Coordinate.ofBytes?_ofNat]
  generalize Coordinate.isOdd y = odd at hroot
  have htag : (if odd then 3 else 2 : UInt8) = 2 ∨ (if odd then 3 else 2 : UInt8) = 3 := by
    cases odd <;> decide
  have hparity : decide ((if odd then 3 else 2 : UInt8) = 3) = odd := by
    cases odd <;> decide
  rw [if_pos htag, Option.bind_some, hparity, hroot]

theorem onCurve_ofRing {x y : ZMod fieldSize} (h : weierstrass.Equation x y) :
    onCurve (ofRing x) (ofRing y) = true := by
  have hseven : toRing (7 : Coordinate) = 7 := toRing_ofNat 7
  rw [onCurve, beq_iff_eq, ← toRing_inj]
  simpa only [toRing_mul, toRing_add, toRing_ofRing, hseven, equation_iff] using h

/-- Each finite point of the group is read back. -/
theorem ofBytes?_toBytes {p : Group} (h : p ≠ 0) :
    ofBytes? (ofGroup p).toBytes = some (ofGroup p) := by
  cases p with
  | zero => exact absurd rfl h
  | some x y hp => exact ofBytes?_toBytes_of_onCurve (onCurve_ofRing hp.1)

end Point

end CertRegistry.Curve
