import CertRegistry.Proofs.Curve.Group
import Mathlib.Tactic.FieldSimp

/-!
# The order of the generator

The multiple of the generator by the order is infinity. The multiples on the way there are computed
without divisions: coordinates are kept as `x / z²` and `y / z³`. Since the order is prime, the
multiples by scalars are a copy of the field of scalars in the group.
-/

namespace CertRegistry.Curve

open CertRegistry.Modular WeierstrassCurve.Affine

/-- Coordinates of a finite point with their denominators. -/
structure Weighted where
  x : Coordinate
  y : Coordinate
  z : Coordinate

namespace Weighted

def double (q : Weighted) : Weighted :=
  let square := q.y * q.y
  let s := 4 * q.x * square
  let slope := 3 * q.x * q.x
  let x := slope * slope - (s + s)
  { x, y := slope * (s - x) - 8 * square * square, z := 2 * q.y * q.z }

/-- The sum with a finite point. -/
def plus (q : Weighted) (x₁ y₁ : Coordinate) : Weighted :=
  let square := q.z * q.z
  let run := x₁ * square - q.x
  let rise := y₁ * square * q.z - q.y
  let v := q.x * (run * run)
  let x := rise * rise - run * run * run - (v + v)
  { x, y := rise * (v - x) - q.y * (run * run * run), z := run * q.z }

/-- The multiple of a finite point by a number whose highest bit is the one at `bits`, unless a
point on the way has to be added to itself or to its inverse. -/
def climb (x₁ y₁ : Coordinate) : Nat → Nat → Option Weighted
  | 0, _ => some ⟨x₁, y₁, 1⟩
  | bits + 1, k =>
    match climb x₁ y₁ bits (k / 2) with
    | none => none
    | some q =>
      if q.y + q.y = 0 then none
      else if k % 2 = 0 then some q.double
      else if x₁ * (q.double.z * q.double.z) = q.double.x then none
      else some (q.double.plus x₁ y₁)

/-- Whether the coordinates are those of an element of the group. -/
def IsAt (q : Weighted) (p : Group) : Prop :=
  ∃ x y h, p = .some x y h ∧ toRing q.z ≠ 0 ∧ toRing q.x = x * toRing q.z ^ 2 ∧
    toRing q.y = y * toRing q.z ^ 3

/-- The sum of two points is found from any slope that satisfies the equation of their line. -/
theorem IsAt.add {q : Weighted} {x₁ y₁ x₂ y₂ slope : ZMod fieldSize}
    {h₁ : weierstrass.Nonsingular x₁ y₁} {h₂ : weierstrass.Nonsingular x₂ y₂}
    (hne : ¬ (x₁ = x₂ ∧ y₁ = weierstrass.negY x₂ y₂))
    (hslope : weierstrass.slope x₁ x₂ y₁ y₂ = slope) (hz : toRing q.z ≠ 0)
    (hx : toRing q.x = (slope ^ 2 - x₁ - x₂) * toRing q.z ^ 2)
    (hy : toRing q.y = (slope * (x₁ - (slope ^ 2 - x₁ - x₂)) - y₁) * toRing q.z ^ 3) :
    q.IsAt (.some x₁ y₁ h₁ + .some x₂ y₂ h₂) := by
  refine ⟨_, _, _, Point.add_some hne, hz, ?_, ?_⟩
  · rw [hx, hslope, addX]
    simp only [weierstrass]
    ring
  · rw [hy, hslope, addY, negY_eq, negAddY, addX]
    simp only [weierstrass]
    ring

theorem IsAt.double {q : Weighted} {p : Group} (h : q.IsAt p) (hy : q.y + q.y ≠ 0) :
    q.double.IsAt (2 • p) := by
  obtain ⟨x, y, hp, rfl, hz, hqx, hqy⟩ := h
  have hyy : y + y ≠ 0 := by
    intro hzero
    refine hy (toRing_injective ?_)
    rw [toRing_add, hqy, ← add_mul, hzero, zero_mul]
    rfl
  have hslope : weierstrass.slope x x y y = 3 * x ^ 2 / (y + y) := by
    rw [slope_of_Y_ne rfl, negY_eq]
    · simp only [weierstrass, mul_zero, zero_mul, add_zero, sub_zero, sub_neg_eq_add]
    · rw [negY_eq]
      exact fun heq => hyy (add_eq_zero_iff_eq_neg.mpr heq)
  have hline : 3 * x ^ 2 / (y + y) * (y + y) = 3 * x ^ 2 := div_mul_cancel₀ _ hyy
  generalize 3 * x ^ 2 / (y + y) = slope at hslope hline
  rw [two_nsmul]
  have htwo : toRing (2 : Coordinate) = 2 := toRing_ofNat 2
  have hthree : toRing (3 : Coordinate) = 3 := toRing_ofNat 3
  have hfour : toRing (4 : Coordinate) = 4 := toRing_ofNat 4
  have height : toRing (8 : Coordinate) = 8 := toRing_ofNat 8
  refine IsAt.add (fun h => hyy ?_) hslope ?_ ?_ ?_
  · exact add_eq_zero_iff_eq_neg.mpr (h.2.trans (negY_eq _ _))
  · simp only [Weighted.double, toRing_mul, hqy, htwo]
    have hcube : (y + y) * toRing q.z ^ 4 ≠ 0 := mul_ne_zero hyy (pow_ne_zero 4 hz)
    convert hcube using 1
    ring
  · simp only [Weighted.double, toRing_mul, toRing_sub, toRing_add, htwo, hthree, hfour, hqx, hqy]
    linear_combination (-(toRing q.z) ^ 8) * (slope * (y + y) + 3 * x ^ 2) * hline
  · simp only [Weighted.double, toRing_mul, toRing_sub, toRing_add, htwo, hthree, hfour, height,
      hqx, hqy]
    linear_combination (toRing q.z) ^ 12 * ((slope * (y + y)) ^ 2 + slope * (y + y) * (3 * x ^ 2) +
      (3 * x ^ 2) ^ 2 - 12 * x * y ^ 2) * hline

theorem IsAt.plus {q : Weighted} {p : Group} (h : q.IsAt p) {x₁ y₁ : ZMod fieldSize}
    (h₁ : weierstrass.Nonsingular x₁ y₁) (hne : ofRing x₁ * (q.z * q.z) ≠ q.x) :
    (q.plus (ofRing x₁) (ofRing y₁)).IsAt (p + .some x₁ y₁ h₁) := by
  obtain ⟨x, y, hp, rfl, hz, hqx, hqy⟩ := h
  have hxx : x ≠ x₁ := by
    rintro rfl
    refine hne (toRing_injective ?_)
    rw [toRing_mul, toRing_mul, toRing_ofRing, hqx, pow_two]
  have hrun : x₁ - x ≠ 0 := sub_ne_zero.mpr hxx.symm
  have hslope : weierstrass.slope x₁ x y₁ y = (y₁ - y) / (x₁ - x) := slope_of_X_ne hxx.symm
  have hline : (y₁ - y) / (x₁ - x) * (x₁ - x) = y₁ - y := div_mul_cancel₀ _ hrun
  generalize (y₁ - y) / (x₁ - x) = slope at hslope hline
  rw [add_comm]
  refine IsAt.add (fun h => hxx h.1.symm) hslope ?_ ?_ ?_
  · simp only [Weighted.plus, toRing_mul, toRing_sub, toRing_ofRing, hqx]
    have hcube : (x₁ - x) * toRing q.z ^ 3 ≠ 0 := mul_ne_zero hrun (pow_ne_zero 3 hz)
    convert hcube using 1
    ring
  · simp only [Weighted.plus, toRing_mul, toRing_sub, toRing_add, toRing_ofRing, hqx, hqy]
    linear_combination (-(toRing q.z) ^ 6) * (slope * (x₁ - x) + (y₁ - y)) * hline
  · simp only [Weighted.plus, toRing_mul, toRing_sub, toRing_add, toRing_ofRing, hqx, hqy]
    linear_combination (toRing q.z) ^ 9 * ((slope * (x₁ - x)) ^ 2 + slope * (x₁ - x) * (y₁ - y) +
      (y₁ - y) ^ 2 - (x₁ - x) ^ 2 * (2 * x₁ + x)) * hline

theorem isAt_climb {x₁ y₁ : ZMod fieldSize} (h₁ : weierstrass.Nonsingular x₁ y₁) {bits k : Nat}
    {q : Weighted} (h : climb (ofRing x₁) (ofRing y₁) bits k = some q) (hk : k / 2 ^ bits = 1) :
    q.IsAt (k • .some x₁ y₁ h₁) := by
  induction bits generalizing k q with
  | zero =>
    obtain rfl : k = 1 := by simpa using hk
    cases h
    have hone : toRing (1 : Coordinate) = 1 := toRing_ofNat 1
    refine ⟨x₁, y₁, h₁, one_nsmul _, ?_, ?_, ?_⟩
    · rw [hone]
      exact one_ne_zero
    · rw [hone, toRing_ofRing, one_pow, mul_one]
    · rw [hone, toRing_ofRing, one_pow, mul_one]
  | succ bits ih =>
    rw [climb] at h
    cases hhalf : climb (ofRing x₁) (ofRing y₁) bits (k / 2) with
    | none =>
      rw [hhalf] at h
      cases h
    | some half =>
      have hbits : k / 2 / 2 ^ bits = 1 := by
        rw [Nat.div_div_eq_div_mul, ← Nat.pow_succ']
        exact hk
      have hat := ih hhalf hbits
      rw [hhalf] at h
      simp only at h
      split at h
      · cases h
      next hy =>
        have hdouble := hat.double hy
        rw [← mul_nsmul'] at hdouble
        split at h
        · next heven =>
          cases h
          rwa [show 2 * (k / 2) = k by omega] at hdouble
        · next hodd =>
          split at h
          · cases h
          next hx =>
            cases h
            have hplus := hdouble.plus h₁ hx
            rwa [← succ_nsmul, show 2 * (k / 2) + 1 = k by omega] at hplus

/-- Whether the multiple of a finite point by a number whose highest bit is the one at `bits` is its
inverse. -/
def comesBack (bits k : Nat) : Point → Bool
  | .infinity => false
  | .affine x y =>
    match climb x y bits k with
    | none => false
    | some q => q.x = x * (q.z * q.z) && q.y = -(y * (q.z * q.z * q.z))

theorem nsmul_of_comesBack {x₁ y₁ : ZMod fieldSize} {h₁ : weierstrass.Nonsingular x₁ y₁}
    {bits k : Nat} (hk : k / 2 ^ bits = 1)
    (h : comesBack bits k (Point.ofGroup (.some x₁ y₁ h₁)) = true) :
    k • (.some x₁ y₁ h₁ : Group) = -.some x₁ y₁ h₁ := by
  rw [Point.ofGroup_some, comesBack] at h
  split at h
  · cases h
  next q hq =>
    obtain ⟨x, y, hp, hmultiple, hz, hqx, hqy⟩ := isAt_climb h₁ hq hk
    rw [Bool.and_eq_true, decide_eq_true_eq, decide_eq_true_eq] at h
    have hx : x = x₁ := by
      refine mul_right_cancel₀ (pow_ne_zero 2 hz) ?_
      rw [← hqx, h.1, toRing_mul, toRing_mul, toRing_ofRing, pow_two]
    have hy : y = -y₁ := by
      refine mul_right_cancel₀ (pow_ne_zero 3 hz) ?_
      rw [← hqy, h.2, toRing_neg, toRing_mul, toRing_mul, toRing_mul, toRing_ofRing]
      ring
    subst hx hy
    rw [hmultiple, Point.neg_some, Point.some.injEq]
    exact ⟨rfl, (negY_eq _ _).symm⟩

end Weighted

/-! ## Multiples by scalars -/

theorem exists_ofGroup {x y : Coordinate} (h : onCurve x y = true) (hy : y + y ≠ 0) :
    ∃ p : Group, Point.ofGroup p = .affine x y := by
  have hseven : toRing (7 : Coordinate) = 7 := toRing_ofNat 7
  have hequation : weierstrass.Equation (toRing x) (toRing y) := by
    rw [onCurve, beq_iff_eq, ← toRing_inj] at h
    simpa only [toRing_mul, toRing_add, hseven, equation_iff] using h
  have hdouble : toRing y + toRing y ≠ 0 := by
    rw [← toRing_add]
    exact fun hzero => hy (toRing_injective hzero)
  refine ⟨.some _ _ (nonsingular_of_equation hequation hdouble), ?_⟩
  rw [Point.ofGroup_some, ofRing_toRing, ofRing_toRing]

theorem exists_base : ∃ p : Group, Point.ofGroup p = generator :=
  exists_ofGroup (by decide +kernel) (by decide +kernel)

/-- The generator as an element of the group. -/
noncomputable def base : Group := exists_base.choose

theorem ofGroup_base : Point.ofGroup base = generator := exists_base.choose_spec

theorem base_ne_zero : base ≠ 0 := by
  intro h
  have hpoint := ofGroup_base
  rw [h] at hpoint
  cases hpoint

theorem order_nsmul_base : order • base = 0 := by
  have hcheck : Weighted.comesBack 255 (order - 1) (Point.ofGroup base) = true := by
    rw [ofGroup_base]
    decide +kernel
  have hne := base_ne_zero
  generalize base = p at hcheck hne
  cases p with
  | zero => exact absurd rfl hne
  | some x y h =>
    have hback := Weighted.nsmul_of_comesBack (by decide) hcheck
    have hpred : order = order - 1 + 1 := by decide
    rw [hpred, succ_nsmul, hback, neg_add_cancel]

/-- The multiples of the generator by scalars. -/
noncomputable def multiples : ZMod order →+ Group :=
  ZMod.lift order ⟨zmultiplesHom Group base, by
    rw [zmultiplesHom_apply, natCast_zsmul, order_nsmul_base]⟩

theorem multiples_natCast (k : Nat) : multiples k = k • base := by
  rw [← natCast_zsmul, ← zmultiplesHom_apply, ← Int.cast_natCast k]
  exact ZMod.lift_coe order _ _

theorem nsmul_multiples (k : Scalar) (a : ZMod order) :
    k.val • multiples a = multiples (toRing k * a) := by
  rw [← map_nsmul, nsmul_eq_mul]
  rfl

theorem multiples_eq_zero {a : ZMod order} : multiples a = 0 ↔ a = 0 := by
  constructor
  · intro h
    by_contra hne
    have hone := nsmul_multiples (ofRing a⁻¹) a
    rw [h, nsmul_zero, toRing_ofRing, inv_mul_cancel₀ hne] at hone
    have hbase := multiples_natCast 1
    rw [Nat.cast_one, ← hone, one_nsmul] at hbase
    exact base_ne_zero hbase.symm
  · rintro rfl
    exact map_zero _

theorem scale_multiples (k : Scalar) (a : ZMod order) :
    (Point.ofGroup (multiples a)).scale k = Point.ofGroup (multiples (toRing k * a)) := by
  rw [Point.scale_ofGroup, nsmul_multiples]

theorem scale_generator (k : Scalar) :
    generator.scale k = Point.ofGroup (multiples (toRing k)) := by
  rw [← ofGroup_base, Point.scale_ofGroup, toRing, multiples_natCast]

end CertRegistry.Curve
