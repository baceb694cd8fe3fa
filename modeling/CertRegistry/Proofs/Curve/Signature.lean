import CertRegistry.Curve.Signature
import CertRegistry.Proofs.Curve.Order

/-!
# Signatures that are accepted

A signature of `z` with the factor `k` has `s = (z + r d) / k` or its negative, so that the point
that is compared is the multiple of the generator by `k` or by `-k`: both have the same first
coordinate. Of the factors one and two at least one makes a signature, because their points have
different first coordinates modulo the order.
-/

namespace CertRegistry.Curve.Signature

open CertRegistry.Modular WeierstrassCurve.Affine

/-- Whether both halves are in the ranges of a signature in the lower half. -/
structure IsLow (sig : Signature) : Prop where
  one_le_r : 1 ≤ sig.r.val
  one_le_s : 1 ≤ sig.s.val
  s_le : sig.s.val ≤ order / 2

theorem isHigh_eq_false_iff {s : Scalar} : isHigh s = false ↔ s.val ≤ order / 2 := by
  simp [isHigh]

theorem one_le_val {s : Scalar} (h : s ≠ 0) : 1 ≤ s.val :=
  Nat.one_le_iff_ne_zero.mpr fun hzero => h (Fin.ext hzero)

theorem val_neg_of_isHigh {s : Scalar} (h : isHigh s = true) : (-s).val = order - s.val := by
  have hhigh : s.val > order / 2 := of_decide_eq_true h
  rw [Fin.neg_def]
  exact Nat.mod_eq_of_lt (Nat.sub_lt (by decide) (by omega))

theorem xScalar_ofGroup_neg (p : Group) :
    xScalar (Point.ofGroup (-p)) = xScalar (Point.ofGroup p) := by
  cases p with
  | zero => rfl
  | some x y h => rfl

/-- What a signature consists of, and that the second half is a quotient or its negative. -/
theorem make?_eq_some {secret z nonce : Scalar} {sig : Signature}
    (h : make? secret z nonce = some sig) :
    xScalar (generator.scale nonce) = some sig.r ∧ sig.IsLow ∧
      (toRing sig.s = (toRing nonce)⁻¹ * (toRing z + toRing sig.r * toRing secret) ∨
        toRing sig.s = -((toRing nonce)⁻¹ * (toRing z + toRing sig.r * toRing secret))) := by
  rw [make?, Option.bind_eq_bind, Option.bind_eq_some_iff] at h
  obtain ⟨r, hr, h⟩ := h
  generalize hs : inverse nonce * (z + r * secret) = s at h
  have hring : toRing s = (toRing nonce)⁻¹ * (toRing z + toRing r * toRing secret) := by
    rw [← hs, toRing_mul, toRing_inverse, toRing_add, toRing_mul]
  simp only at h
  split at h
  · cases h
  next hne =>
    cases h
    obtain ⟨hr0, hs0⟩ := not_or.mp hne
    refine ⟨hr, ?_⟩
    simp only
    cases hhigh : isHigh s with
    | false =>
      rw [if_neg Bool.false_ne_true]
      exact ⟨⟨one_le_val hr0, one_le_val hs0, isHigh_eq_false_iff.mp hhigh⟩, Or.inl hring⟩
    | true =>
      rw [if_pos rfl]
      have hval := val_neg_of_isHigh hhigh
      have hbound : s.val > order / 2 := of_decide_eq_true hhigh
      have hlt : s.val < order := s.isLt
      have hodd : order % 2 = 1 := by decide
      refine ⟨⟨one_le_val hr0, ?_, ?_⟩, Or.inr ?_⟩
      · rw [hval]
        omega
      · rw [hval]
        omega
      · rw [toRing_neg, hring]

/-- The sum that is compared is a single multiple of the generator. -/
theorem scale_add_scale (secret z r w : Scalar) :
    (generator.scale secret).scale (w * r) + generator.scale (w * z) =
      Point.ofGroup (multiples (toRing w * (toRing z + toRing r * toRing secret))) := by
  rw [scale_generator, scale_multiples, scale_generator, ← Point.ofGroup_add, ← map_add]
  congr 2
  rw [toRing_mul, toRing_mul]
  ring

theorem accepts_of_make? {secret z nonce : Scalar} {sig : Signature}
    (h : make? secret z nonce = some sig) : sig.accepts (generator.scale secret) z = true := by
  obtain ⟨hr, hlow, hs⟩ := make?_eq_some h
  have hr0 : sig.r ≠ 0 := fun heq => by simpa [heq] using hlow.one_le_r
  have hs0 : sig.s ≠ 0 := fun heq => by simpa [heq] using hlow.one_le_s
  have hhigh : isHigh sig.s = false := isHigh_eq_false_iff.mpr hlow.s_le
  have hring : toRing sig.s ≠ 0 := fun heq => hs0 (toRing_injective heq)
  generalize hsum : toRing z + toRing sig.r * toRing secret = sum at hs
  have hfactor : toRing (inverse sig.s) * sum = toRing nonce ∨
      toRing (inverse sig.s) * sum = -toRing nonce := by
    rw [toRing_inverse, inv_mul_eq_iff_eq_mul₀ hring, inv_mul_eq_iff_eq_mul₀ hring]
    have hnonce : toRing nonce ≠ 0 := by
      intro hzero
      rw [hzero, inv_zero, zero_mul, neg_zero, or_self] at hs
      exact hring hs
    rcases hs with hs | hs
    · left
      rw [hs, mul_right_comm, inv_mul_cancel₀ hnonce, one_mul]
    · right
      rw [hs, neg_mul_neg, mul_right_comm, inv_mul_cancel₀ hnonce, one_mul]
  have hpoint :
      xScalar (Point.ofGroup (multiples (toRing (inverse sig.s) * sum))) = some sig.r := by
    rw [← hr, scale_generator]
    rcases hfactor with heq | heq
    · rw [heq]
    · rw [heq, map_neg, xScalar_ofGroup_neg]
  rw [accepts, if_neg (by simp [hr0, hs0, hhigh])]
  simp only [scale_add_scale, hsum, hpoint, beq_self_eq_true]

/-- The first coordinates of the generator and its double are different scalars. -/
theorem xScalar_one_two :
    (xScalar (generator.scale 1)).isSome ∧ (xScalar (generator.scale 2)).isSome ∧
      xScalar (generator.scale 1) ≠ some 0 ∧ xScalar (generator.scale 2) ≠ some 0 ∧
      xScalar (generator.scale 1) ≠ xScalar (generator.scale 2) := by
  decide +kernel

/-- A factor that makes no signature although its point has a first coordinate makes the second
half vanish. -/
theorem make?_eq_none {secret z nonce r : Scalar} (hnonce : toRing nonce ≠ 0)
    (hr : xScalar (generator.scale nonce) = some r) (hr0 : r ≠ 0)
    (h : make? secret z nonce = none) : toRing z + toRing r * toRing secret = 0 := by
  rw [make?, hr, Option.bind_eq_bind, Option.bind_some] at h
  simp only at h
  split at h
  next hzero =>
    have hs := congrArg toRing (hzero.resolve_left hr0)
    rw [toRing_mul, toRing_inverse, toRing_add, toRing_mul] at hs
    exact (mul_eq_zero.mp hs).resolve_left (inv_ne_zero hnonce)
  · cases h

theorem exists_make?_one_or_two {secret : Scalar} (hsecret : secret ≠ 0) (z : Scalar) :
    ∃ sig, (make? secret z 1).or (make? secret z 2) = some sig := by
  obtain ⟨hsome₁, hsome₂, hr₁, hr₂, hne⟩ := xScalar_one_two
  obtain ⟨r₁, h₁⟩ := Option.isSome_iff_exists.mp hsome₁
  obtain ⟨r₂, h₂⟩ := Option.isSome_iff_exists.mp hsome₂
  rw [h₁] at hr₁ hne
  rw [h₂] at hr₂ hne
  cases hfirst : make? secret z 1 with
  | some sig => exact ⟨sig, rfl⟩
  | none =>
    cases hsecond : make? secret z 2 with
    | some sig => exact ⟨sig, rfl⟩
    | none =>
      have hz₁ := make?_eq_none (by decide +kernel) h₁ (fun heq => hr₁ (congrArg some heq)) hfirst
      have hz₂ := make?_eq_none (by decide +kernel) h₂ (fun heq => hr₂ (congrArg some heq)) hsecond
      have hsame : toRing r₁ * toRing secret = toRing r₂ * toRing secret :=
        add_left_cancel (hz₁.trans hz₂.symm)
      have hnonzero : toRing secret ≠ 0 := fun heq => hsecret (toRing_injective heq)
      exact absurd (congrArg some (toRing_injective (mul_right_cancel₀ hnonzero hsame))) hne

end CertRegistry.Curve.Signature
