import CertRegistry.Proofs.Bytes.HexReading
import CertRegistry.Proofs.Curve.Encoding
import CertRegistry.Proofs.Curve.Order

/-!
# Octets that spell a point

A finite point is written in three ways: its first coordinate with the parity of the second, or both
coordinates, with the parity as well or without. These are the octets that are read as the point.
Since no point has zero as its second coordinate, a parity tells the point and its negative apart.
-/

namespace CertRegistry.Curve

open CertRegistry.Modular

/-! ## Points of the curve -/

/-- The number seven is no cube, up to its sign. A cube raised to a third of the order of the field
without zero is one. -/
theorem cube_add_seven_ne_zero (x : ZMod fieldSize) : x * x * x + 7 ≠ 0 := by
  intro hzero
  have hseven : toRing (7 : Coordinate) = 7 := toRing_ofNat 7
  have hcube : x * x * x = toRing (-7 : Coordinate) := by
    rw [toRing_neg, hseven]
    exact eq_neg_of_add_eq_zero_left hzero
  have hx : x ≠ 0 := by
    rintro rfl
    have hnone : (-7 : Coordinate) ≠ 0 := by decide
    rw [mul_zero] at hcube
    exact hnone (toRing_injective hcube.symm)
  have hpower : toRing (power (-7 : Coordinate) 256 ((fieldSize - 1) / 3)) = 1 := by
    have hexponent : 3 * ((fieldSize - 1) / 3) = fieldSize - 1 := by decide
    rw [toRing_power _ _ (by decide), ← hcube, ← pow_three', ← pow_mul, hexponent,
      ZMod.pow_card_sub_one_eq_one hx]
  have hone : toRing (1 : Coordinate) = 1 := by
    rw [← Nat.cast_one]
    exact toRing_ofNat 1
  have hcheck : power (-7 : Coordinate) 256 ((fieldSize - 1) / 3) ≠ 1 := by decide +kernel
  exact hcheck (toRing_injective (hpower.trans hone.symm))

variable {x y : Coordinate}

theorem onCurve_iff : onCurve x y = true ↔
    toRing y * toRing y = toRing x * toRing x * toRing x + 7 := by
  have hseven : toRing (7 : Coordinate) = 7 := toRing_ofNat 7
  rw [onCurve, beq_iff_eq, ← toRing_inj]
  simp only [toRing_mul, toRing_add, hseven]

theorem ne_zero_of_onCurve (h : onCurve x y = true) : y ≠ 0 := by
  rintro rfl
  rw [onCurve_iff] at h
  refine cube_add_seven_ne_zero (toRing x) (h.symm.trans ?_)
  have hzero : toRing (0 : Coordinate) = 0 := Nat.cast_zero
  rw [hzero, mul_zero]

theorem onCurve_neg (h : onCurve x y = true) : onCurve x (-y) = true := by
  rw [onCurve_iff] at h ⊢
  rw [toRing_neg, neg_mul_neg, h]

/-- Every point whose coordinates satisfy the equation is one of the group. -/
theorem exists_ofGroup_of_onCurve (h : onCurve x y = true) :
    ∃ p : Group, Point.ofGroup p = .affine x y := by
  refine exists_ofGroup h fun hzero => ?_
  have hy := ne_zero_of_onCurve h
  have hneg : -y = y := by
    rw [← toRing_inj, toRing_neg, neg_eq_iff_add_eq_zero, ← toRing_add, hzero]
    exact Nat.cast_zero
  have hparity := Coordinate.isOdd_neg hy
  rw [hneg] at hparity
  exact absurd hparity.symm (Bool.not_ne_self _)

/-! ## Reading points -/

theorem Coordinate.ofBytes?_eq_some_iff {bs : Bytes} (hlength : bs.length = 32) :
    Coordinate.ofBytes? bs = some x ↔ bs = Bytes.ofNat 32 x.val := by
  constructor
  · intro h
    unfold Coordinate.ofBytes? at h
    simp only at h
    split at h
    · cases h
      simp only
      rw [← hlength, Bytes.ofNat_toNat]
    · cases h
  · intro h
    rw [h]
    exact Coordinate.ofBytes?_ofNat x

namespace Point

/-- A first coordinate and a parity tell the only point that has both. -/
theorem ofX?_eq_some_iff {odd : Bool} {p : Point} :
    ofX? x odd = some p ↔ ∃ y, p = .affine x y ∧ onCurve x y = true ∧ Coordinate.isOdd y = odd := by
  constructor
  · intro h
    unfold ofX? at h
    simp only at h
    generalize power (x * x * x + 7) 256 ((fieldSize + 1) / 4) = root at h
    split at h
    · cases h
    next hroot =>
      have hcurve : onCurve x root = true := beq_iff_eq.mpr (not_not.mp hroot)
      cases h
      by_cases hparity : Coordinate.isOdd root = odd
      · exact ⟨root, by rw [if_pos hparity], hcurve, hparity⟩
      · refine ⟨-root, by rw [if_neg hparity], onCurve_neg hcurve, ?_⟩
        rw [Coordinate.isOdd_neg (ne_zero_of_onCurve hcurve)]
        exact Bool.not_eq.mpr hparity
  · rintro ⟨y, rfl, hcurve, rfl⟩
    exact ofX?_of_onCurve hcurve

/-- The ways to write the point with these coordinates. -/
def encodings (x y : Nat) : List Bytes :=
  [UInt8.ofNat (2 + y % 2) :: Bytes.ofNat 32 x,
    4 :: (Bytes.ofNat 32 x ++ Bytes.ofNat 32 y),
    UInt8.ofNat (6 + y % 2) :: (Bytes.ofNat 32 x ++ Bytes.ofNat 32 y)]

theorem isOdd_cases (y : Coordinate) :
    (Coordinate.isOdd y = true ∧ y.val % 2 = 1) ∨ (Coordinate.isOdd y = false ∧ y.val % 2 = 0) := by
  rcases Nat.mod_two_eq_zero_or_one y.val with h | h
  · exact .inr ⟨by simp [Coordinate.isOdd, h], h⟩
  · exact .inl ⟨by simp [Coordinate.isOdd, h], h⟩

/-- The tags of the short form and the parities that they stand for. -/
theorem shortTag_iff {tag : UInt8} : ((tag = 2 ∨ tag = 3) ∧ Coordinate.isOdd y = decide (tag = 3)) ↔
    tag = UInt8.ofNat (2 + y.val % 2) := by
  rcases isOdd_cases y with ⟨hodd, hmod⟩ | ⟨hodd, hmod⟩
  · rw [hodd, hmod]
    constructor
    · rintro ⟨-, h⟩
      exact of_decide_eq_true h.symm
    · rintro rfl
      decide
  · rw [hodd, hmod]
    constructor
    · rintro ⟨htag, h⟩
      exact htag.resolve_right (of_decide_eq_false h.symm)
    · rintro rfl
      decide

theorem longTagAllows_iff {tag : UInt8} : longTagAllows tag (Coordinate.isOdd y) = true ↔
    tag = 4 ∨ tag = UInt8.ofNat (6 + y.val % 2) := by
  rcases isOdd_cases y with ⟨hodd, hmod⟩ | ⟨hodd, hmod⟩
  · rw [hodd, hmod]
    simp [longTagAllows]
  · rw [hodd, hmod]
    simp [longTagAllows]

section Forms

variable {tag : UInt8} {body : Bytes} {p : Point}

theorem ofBytes?_short (hlength : body.length = 32) : ofBytes? (tag :: body) = some p ↔
    ∃ x y : Coordinate, p = .affine x y ∧ onCurve x y = true ∧
      tag = UInt8.ofNat (2 + y.val % 2) ∧ body = Bytes.ofNat 32 x.val := by
  have hsteps : ofBytes? (tag :: body) = some p ↔ (tag = 2 ∨ tag = 3) ∧
      ∃ x, Coordinate.ofBytes? body = some x ∧ ofX? x (decide (tag = 3)) = some p := by
    rw [ofBytes?, if_pos hlength]
    by_cases htag : tag = 2 ∨ tag = 3
    · rw [if_pos htag, Option.bind_eq_some_iff]
      exact (and_iff_right htag).symm
    · rw [if_neg htag]
      simp [htag]
  rw [hsteps]
  constructor
  · rintro ⟨htag, x, hx, hread⟩
    obtain ⟨y, hp, hcurve, hodd⟩ := ofX?_eq_some_iff.mp hread
    exact ⟨x, y, hp, hcurve, shortTag_iff.mp ⟨htag, hodd⟩,
      (Coordinate.ofBytes?_eq_some_iff hlength).mp hx⟩
  · rintro ⟨x, y, hp, hcurve, htag, hbody⟩
    obtain ⟨htag, hodd⟩ := shortTag_iff.mpr htag
    exact ⟨htag, x, (Coordinate.ofBytes?_eq_some_iff hlength).mpr hbody,
      ofX?_eq_some_iff.mpr ⟨y, hp, hcurve, hodd⟩⟩

theorem ofBytes?_long (hlength : body.length = 64) : ofBytes? (tag :: body) = some p ↔
    ∃ x y : Coordinate, p = .affine x y ∧ onCurve x y = true ∧
      (tag = 4 ∨ tag = UInt8.ofNat (6 + y.val % 2)) ∧
        body = Bytes.ofNat 32 x.val ++ Bytes.ofNat 32 y.val := by
  have hfront : (body.take 32).length = 32 := by simp [hlength]
  have hback : (body.drop 32).length = 32 := by simp [hlength]
  have hsteps : ofBytes? (tag :: body) = some p ↔
      ∃ x, Coordinate.ofBytes? (body.take 32) = some x ∧
        ∃ y, Coordinate.ofBytes? (body.drop 32) = some y ∧
          (onCurve x y && longTagAllows tag (Coordinate.isOdd y)) = true ∧ .affine x y = p := by
    rw [ofBytes?, if_neg (by omega), if_pos hlength]
    simp only [Option.bind_eq_bind, Option.bind_eq_some_iff, Option.ite_none_right_eq_some,
      Option.some.injEq]
  rw [hsteps]
  constructor
  · rintro ⟨x, hx, y, hy, hgood, rfl⟩
    obtain ⟨hcurve, htag⟩ := Bool.and_eq_true_iff.mp hgood
    refine ⟨x, y, rfl, hcurve, longTagAllows_iff.mp htag, ?_⟩
    rw [← (Coordinate.ofBytes?_eq_some_iff hfront).mp hx,
      ← (Coordinate.ofBytes?_eq_some_iff hback).mp hy, List.take_append_drop]
  · rintro ⟨x, y, hp, hcurve, htag, hbody⟩
    refine ⟨x, ?_, y, ?_, Bool.and_eq_true_iff.mpr ⟨hcurve, longTagAllows_iff.mpr htag⟩, hp.symm⟩
    · rw [Coordinate.ofBytes?_eq_some_iff hfront, hbody]
      exact List.take_left' (Bytes.length_ofNat 32 _)
    · rw [Coordinate.ofBytes?_eq_some_iff hback, hbody]
      exact List.drop_left' (Bytes.length_ofNat 32 _)

end Forms

theorem mem_encodings_cons {tag : UInt8} {body : Bytes} {x y : Nat} :
    tag :: body ∈ encodings x y ↔
      (tag = UInt8.ofNat (2 + y % 2) ∧ body = Bytes.ofNat 32 x) ∨
      ((tag = 4 ∨ tag = UInt8.ofNat (6 + y % 2)) ∧
        body = Bytes.ofNat 32 x ++ Bytes.ofNat 32 y) := by
  simp only [encodings, List.mem_cons, List.cons.injEq, List.not_mem_nil, or_false, or_and_right]

/-- The octets that are read as a point are the ways to write it. -/
theorem ofBytes?_eq_some_iff {bs : Bytes} {p : Point} : ofBytes? bs = some p ↔
    ∃ x y : Coordinate, p = .affine x y ∧ onCurve x y = true ∧ bs ∈ encodings x.val y.val := by
  cases bs with
  | nil => simp [ofBytes?, encodings]
  | cons tag body =>
    constructor
    · intro h
      by_cases hshort : body.length = 32
      · obtain ⟨x, y, hp, hcurve, hform⟩ := (ofBytes?_short hshort).mp h
        exact ⟨x, y, hp, hcurve, mem_encodings_cons.mpr (.inl hform)⟩
      · by_cases hlong : body.length = 64
        · obtain ⟨x, y, hp, hcurve, hform⟩ := (ofBytes?_long hlong).mp h
          exact ⟨x, y, hp, hcurve, mem_encodings_cons.mpr (.inr hform)⟩
        · rw [ofBytes?, if_neg hshort, if_neg hlong] at h
          cases h
    · rintro ⟨x, y, hp, hcurve, hmem⟩
      rcases mem_encodings_cons.mp hmem with hform | hform
      · refine (ofBytes?_short ?_).mpr ⟨x, y, hp, hcurve, hform⟩
        rw [hform.2, Bytes.length_ofNat]
      · refine (ofBytes?_long ?_).mpr ⟨x, y, hp, hcurve, hform⟩
        rw [hform.2, List.length_append, Bytes.length_ofNat, Bytes.length_ofNat]

end Point

end CertRegistry.Curve
