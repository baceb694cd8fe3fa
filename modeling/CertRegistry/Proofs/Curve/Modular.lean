import CertRegistry.Curve.Modular
import Mathlib.Data.ZMod.Basic
import Mathlib.Algebra.Field.ZMod
import Mathlib.Tactic.Ring

/-!
# Residues as elements of a ring

Residues are carried over to the ring of integers modulo `m` and back. The run of Euclid then gives
the inverse of the field, for a prime modulus, and repeated squaring gives powers. The invariant of
the run is that each number is its factor times the residue to be inverted.
-/

namespace CertRegistry.Modular

variable {m : Nat}

/-- A residue as an element of the ring of integers modulo `m`. -/
def toRing (a : Fin m) : ZMod m := a.val

@[simp]
theorem toRing_add (a b : Fin m) : toRing (a + b) = toRing a + toRing b := by
  simp [toRing, Fin.val_add]

@[simp]
theorem toRing_mul (a b : Fin m) : toRing (a * b) = toRing a * toRing b := by
  simp [toRing, Fin.val_mul]

@[simp]
theorem toRing_sub (a b : Fin m) : toRing (a - b) = toRing a - toRing b := by
  have hb : b.val ≤ m := b.isLt.le
  simp only [toRing, Fin.sub_def, ZMod.natCast_mod, Nat.cast_add, Nat.cast_sub hb,
    ZMod.natCast_self]
  ring

@[simp]
theorem toRing_neg (a : Fin m) : toRing (-a) = -toRing a := by
  have ha : a.val ≤ m := a.isLt.le
  simp only [toRing, Fin.neg_def, ZMod.natCast_mod, Nat.cast_sub ha, ZMod.natCast_self, zero_sub]

@[simp]
theorem toRing_residue (a : Fin m) (n : Nat) : toRing (residue a n) = n := by
  simp [toRing, residue]

theorem toRing_injective : Function.Injective (toRing : Fin m → ZMod m) := by
  intro a b h
  have hmod : a.val % m = b.val % m := (ZMod.natCast_eq_natCast_iff' _ _ _).mp h
  rw [Nat.mod_eq_of_lt a.isLt, Nat.mod_eq_of_lt b.isLt] at hmod
  exact Fin.ext hmod

theorem val_toRing (a : Fin m) : (toRing a).val = a.val := ZMod.val_natCast_of_lt a.isLt

theorem toRing_inj {a b : Fin m} : toRing a = toRing b ↔ a = b := toRing_injective.eq_iff

section Back

variable [NeZero m]

/-- An element of the ring as a residue. -/
def ofRing (a : ZMod m) : Fin m := ⟨a.val, a.val_lt⟩

@[simp]
theorem toRing_ofRing (a : ZMod m) : toRing (ofRing a) = a := ZMod.natCast_zmod_val a

@[simp]
theorem ofRing_toRing (a : Fin m) : ofRing (toRing a) = a :=
  toRing_injective (toRing_ofRing _)

theorem ofRing_injective : Function.Injective (ofRing : ZMod m → Fin m) :=
  Function.LeftInverse.injective toRing_ofRing

theorem ofRing_inj {a b : ZMod m} : ofRing a = ofRing b ↔ a = b := ofRing_injective.eq_iff

theorem ofRing_eq_iff {a : ZMod m} {b : Fin m} : ofRing a = b ↔ a = toRing b := by
  rw [← ofRing_inj, ofRing_toRing]

theorem toRing_ofNat (n : Nat) : toRing (Fin.ofNat m n) = n := by
  simp [toRing, Fin.ofNat]

end Back

/-! ## Inverses -/

/-- The numbers that Euclid ends with have no divisor in common. -/
theorem euclid_mul {a : ZMod m} (r₀ r₁ : Nat) (t₀ t₁ : Fin m) (hcoprime : Nat.Coprime r₀ r₁)
    (h₀ : (r₀ : ZMod m) = toRing t₀ * a) (h₁ : (r₁ : ZMod m) = toRing t₁ * a) :
    toRing (euclid r₀ r₁ t₀ t₁) * a = 1 := by
  induction r₀, r₁, t₀, t₁ using euclid.induct with
  | case1 r₀ t₀ t₁ =>
    have hone : r₀ = 1 := (Nat.coprime_zero_right r₀).mp hcoprime
    rw [euclid, if_pos rfl, ← h₀, hone, Nat.cast_one]
  | case2 r₀ r₁ t₀ t₁ hne ih =>
    rw [euclid, if_neg hne]
    refine ih ?_ h₁ ?_
    · rwa [Nat.Coprime, Nat.gcd_comm, ← Nat.gcd_rec, Nat.gcd_comm]
    · have hdivide : ((r₀ % r₁ : Nat) : ZMod m) = r₀ - (r₀ / r₁ : Nat) * r₁ := by
        rw [eq_sub_iff_add_eq, ← Nat.cast_mul, ← Nat.cast_add, Nat.mul_comm, Nat.mod_add_div]
      rw [hdivide, h₀, h₁, toRing_sub, toRing_mul, toRing_residue]
      ring

theorem toRing_inverse [Fact m.Prime] (a : Fin m) : toRing (inverse a) = (toRing a)⁻¹ := by
  by_cases ha : toRing a = 0
  · have hzero : a.val = 0 := by
      have hdvd : m ∣ a.val := (ZMod.natCast_eq_zero_iff _ _).mp ha
      exact Nat.eq_zero_of_dvd_of_lt hdvd a.isLt
    rw [ha, inv_zero, inverse, hzero, euclid, if_pos rfl, toRing_residue, Nat.cast_zero]
  · have hprime : m.Prime := Fact.out
    refine eq_inv_of_mul_eq_one_left (euclid_mul m a.val _ _ ?_ ?_ ?_)
    · refine (Nat.Prime.coprime_iff_not_dvd hprime).mpr fun hdvd => ha ?_
      exact (ZMod.natCast_eq_zero_iff _ _).mpr hdvd
    · rw [toRing_residue, Nat.cast_zero, zero_mul, ZMod.natCast_self]
    · rw [toRing_residue, Nat.cast_one, one_mul]
      rfl

/-! ## Powers -/

theorem toRing_power (a : Fin m) (bits : Nat) {k : Nat} (h : k < 2 ^ bits) :
    toRing (power a bits k) = toRing a ^ k := by
  induction bits generalizing a k with
  | zero =>
    obtain rfl : k = 0 := by simpa using h
    simp [power]
  | succ bits ih =>
    have hhalf : k / 2 < 2 ^ bits := by
      rw [Nat.pow_succ] at h
      omega
    have hsquare : toRing (power (a * a) bits (k / 2)) = toRing a ^ (2 * (k / 2)) := by
      rw [ih (a * a) hhalf, toRing_mul, ← pow_two, ← pow_mul]
    rw [power]
    split
    · next hodd =>
      rw [toRing_mul, hsquare, ← pow_succ]
      congr 1
      omega
    · next heven =>
      rw [hsquare]
      congr 1
      omega

end CertRegistry.Modular
