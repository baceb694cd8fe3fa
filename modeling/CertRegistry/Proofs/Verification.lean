import CertRegistry.Proofs.Curve.Decoding
import CertRegistry.Proofs.Signing

/-!
# What is accepted as a signature

A check of a signature reads the key, then the signature, and then compares a point with what the
signature names. Which texts are keys and signatures is told here by what is written of points and
numbers, and the comparison in terms of the group of the curve. Only signatures in the lower half of
their range are accepted, so that nobody can change one signature into another.
-/

namespace CertRegistry

open Curve CertRegistry.Modular

namespace Curve

theorem Point.ofGroup_injective : Function.Injective Point.ofGroup := by
  intro p q h
  cases p with
  | zero =>
    cases q with
    | zero => rfl
    | some x y hq => cases h
  | some x y hp =>
    cases q with
    | zero => cases h
    | some x' y' hq =>
      obtain ⟨hx, hy⟩ := Point.affine.inj h
      obtain rfl := ofRing_injective hx
      obtain rfl := ofRing_injective hy
      rfl

namespace Signature

/-! ## The comparison -/

/-- Whether a pair belongs to a key and a number: the sum of the generator `z / s` times and of the
key `r / s` times has a first coordinate, which is `r` as a scalar. -/
def Belongs (key : Group) (z r s : ZMod order) : Prop :=
  ∃ x y h, (z * s⁻¹).val • base + (r * s⁻¹).val • key = .some x y h ∧ (x.val : ZMod order) = r

theorem xScalar_ofGroup_eq_some_iff {p : Group} {r : Scalar} :
    xScalar (Point.ofGroup p) = some r ↔
      ∃ x y h, p = .some x y h ∧ (x.val : ZMod order) = toRing r := by
  cases p with
  | zero =>
    constructor
    · intro h
      cases h
    · rintro ⟨x, y, h, hp, -⟩
      cases hp
  | some x y h =>
    rw [Point.ofGroup_some, xScalar, Option.some.injEq, ← toRing_inj, toRing_ofNat]
    constructor
    · intro hr
      exact ⟨x, y, h, rfl, hr⟩
    · rintro ⟨x', y', h', hp, hr⟩
      cases hp
      exact hr

/-- A signature is accepted if it is in the lower half and belongs to the key and the number. -/
theorem accepts_iff {key : Group} {z : Scalar} {sig : Signature} :
    sig.accepts (Point.ofGroup key) z = true ↔
      sig.IsLow ∧ Belongs key (toRing z) (toRing sig.r) (toRing sig.s) := by
  have hlow : sig.IsLow ↔ ¬ (sig.r = 0 ∨ sig.s = 0 ∨ isHigh sig.s = true) := by
    rw [not_or, not_or, Bool.not_eq_true, isHigh_eq_false_iff]
    constructor
    · rintro ⟨hr, hs, hle⟩
      exact ⟨fun h => by simp [h] at hr, fun h => by simp [h] at hs, hle⟩
    · rintro ⟨hr, hs, hle⟩
      exact ⟨one_le_val hr, one_le_val hs, hle⟩
  have hfactor : ∀ a : Scalar,
      (inverse sig.s * a).val = (toRing a * (toRing sig.s)⁻¹).val := by
    intro a
    rw [← val_toRing, toRing_mul, toRing_inverse, mul_comm]
  rw [accepts, hlow]
  split
  · next hbad => simp [hbad]
  · next hgood =>
    simp only
    rw [← ofGroup_base, Point.scale_ofGroup, Point.scale_ofGroup, ← Point.ofGroup_add, hfactor,
      hfactor, beq_iff_eq, xScalar_ofGroup_eq_some_iff, add_comm, and_iff_right hgood, Belongs]

/-! ## Reading signatures -/

theorem scalar?_eq_some_iff {bs : Bytes} {s : Scalar} (hlength : bs.length = 32) :
    scalar? bs = some s ↔ bs = Bytes.ofNat 32 s.val := by
  constructor
  · intro h
    unfold scalar? at h
    simp only at h
    split at h
    · cases h
      have hself := Bytes.ofNat_toNat bs
      rw [hlength] at hself
      exact hself.symm
    · cases h
  · intro h
    rw [h]
    exact scalar?_ofNat s

theorem ofBytes?_eq_some_iff {bs : Bytes} {sig : Signature} :
    ofBytes? bs = some sig ↔ bs = sig.toBytes := by
  constructor
  · intro h
    unfold ofBytes? at h
    split at h
    · next hlength =>
      have hfront : (bs.take 32).length = 32 := by simp [hlength]
      have hback : (bs.drop 32).length = 32 := by simp [hlength]
      obtain ⟨r, hr, h⟩ := Option.bind_eq_some_iff.mp h
      obtain ⟨s, hs, h⟩ := Option.bind_eq_some_iff.mp h
      cases h
      rw [toBytes, ← (scalar?_eq_some_iff hfront).mp hr, ← (scalar?_eq_some_iff hback).mp hs,
        List.take_append_drop]
    · cases h
  · intro h
    rw [h]
    exact ofBytes?_toBytes sig

end Signature

end Curve

/-! ## Texts of keys and signatures -/

/-- Whether a text is a way to write a point, as digits of either case. -/
def IsPublicKey (text : String) (key : Group) : Prop :=
  ∃ x y h octets, key = .some x y h ∧ octets ∈ Point.encodings x.val y.val ∧
    Hex.Spells text octets

/-- Whether a text is what is written of two scalars, as digits of either case. -/
structure IsSignature (text : String) (r s : Nat) : Prop where
  r_lt : r < order
  s_lt : s < order
  spells : Hex.Spells text (Bytes.ofNat 32 r ++ Bytes.ofNat 32 s)

/-- Whether an error is about the text of a public key. -/
def KeyError.IsOfPublicKey : KeyError → Prop
  | publicKeyNotHex _ | publicKeyMalformed => True
  | _ => False

/-- Whether an error is about the text of a signature. -/
def KeyError.IsOfSignature : KeyError → Prop
  | signatureNotHex _ | signatureMalformed => True
  | _ => False

variable {text publicKey signature : String} {message : Bytes} {key : Group}

theorem publicKeyOfText_eq_ok_iff {p : Point} :
    publicKeyOfText text = .ok p ↔ ∃ key, IsPublicKey text key ∧ Point.ofGroup key = p := by
  have hsteps : publicKeyOfText text = .ok p ↔
      ∃ octets, Hex.decode text = .ok octets ∧ Point.ofBytes? octets = some p := by
    rw [publicKeyOfText]
    cases Hex.decode text with
    | error fault => simp
    | ok octets => cases hread : Point.ofBytes? octets <;> simp [hread]
  rw [hsteps]
  constructor
  · rintro ⟨octets, hdecode, hread⟩
    obtain ⟨x, y, rfl, hcurve, hmem⟩ := Point.ofBytes?_eq_some_iff.mp hread
    obtain ⟨key, hkey⟩ := exists_ofGroup_of_onCurve hcurve
    refine ⟨key, ?_, hkey⟩
    cases key with
    | zero => cases hkey
    | some x' y' h =>
      obtain ⟨rfl, rfl⟩ := Point.affine.inj hkey
      exact ⟨x', y', h, octets, rfl, hmem, Hex.decode_eq_ok_iff_spells.mp hdecode⟩
  · rintro ⟨_, ⟨x, y, h, octets, rfl, hmem, hspells⟩, rfl⟩
    exact ⟨octets, Hex.decode_eq_ok_iff_spells.mpr hspells,
      Point.ofBytes?_eq_some_iff.mpr ⟨ofRing x, ofRing y, rfl, Point.onCurve_ofRing h.1, hmem⟩⟩

theorem publicKeyOfText_eq_error {e : KeyError} (h : publicKeyOfText text = .error e) :
    e.IsOfPublicKey := by
  unfold publicKeyOfText at h
  split at h
  · cases h
    trivial
  · split at h
    · cases h
    · cases h
      trivial

theorem signatureOfText_eq_ok_iff {sig : Signature} :
    signatureOfText text = .ok sig ↔ Hex.Spells text sig.toBytes := by
  rw [← Hex.decode_eq_ok_iff_spells, signatureOfText]
  cases Hex.decode text with
  | error fault => simp
  | ok octets =>
    rw [Except.ok.injEq, ← Signature.ofBytes?_eq_some_iff]
    cases hread : Signature.ofBytes? octets <;> simp [hread]

theorem signatureOfText_eq_error {e : KeyError} (h : signatureOfText text = .error e) :
    e.IsOfSignature := by
  unfold signatureOfText at h
  split at h
  · cases h
    trivial
  · split at h
    · cases h
    · cases h
      trivial

theorem exists_signatureOfText_iff :
    (∃ sig, signatureOfText text = .ok sig) ↔ ∃ r s, IsSignature text r s := by
  simp only [signatureOfText_eq_ok_iff]
  constructor
  · rintro ⟨sig, h⟩
    exact ⟨_, _, sig.r.isLt, sig.s.isLt, h⟩
  · rintro ⟨r, s, hr, hs, h⟩
    exact ⟨{ r := ⟨r, hr⟩, s := ⟨s, hs⟩ }, h⟩

/-! ## The check as a whole -/

/-- The key is read first. -/
theorem verify_of_no_key (message : Bytes) (signature : String)
    (h : ¬ ∃ key, IsPublicKey publicKey key) :
    ∃ e, verify publicKey message signature = .error e ∧ e.IsOfPublicKey := by
  cases hkey : publicKeyOfText publicKey with
  | error e => exact ⟨e, by rw [verify, hkey]; rfl, publicKeyOfText_eq_error hkey⟩
  | ok p =>
    obtain ⟨key, hread, -⟩ := publicKeyOfText_eq_ok_iff.mp hkey
    exact absurd ⟨key, hread⟩ h

theorem verify_of_no_signature (message : Bytes) (hkey : IsPublicKey publicKey key)
    (h : ¬ ∃ r s, IsSignature signature r s) :
    ∃ e, verify publicKey message signature = .error e ∧ e.IsOfSignature := by
  have hread := publicKeyOfText_eq_ok_iff.mpr ⟨key, hkey, rfl⟩
  cases hsignature : signatureOfText signature with
  | error e =>
    exact ⟨e, by rw [verify, hread, hsignature]; rfl, signatureOfText_eq_error hsignature⟩
  | ok sig => exact absurd (exists_signatureOfText_iff.mp ⟨sig, hsignature⟩) h

/-- What is accepted of the signatures that can be read. -/
theorem verify_of_signature (message : Bytes) (hkey : IsPublicKey publicKey key) {r s : Nat}
    (h : IsSignature signature r s) :
    ∃ good, verify publicKey message signature = .ok good ∧
      (good = true ↔ 1 ≤ r ∧ 1 ≤ s ∧ s ≤ order / 2 ∧
        Signature.Belongs key (Signer.messageScalar message).val r s) := by
  have hread := publicKeyOfText_eq_ok_iff.mpr ⟨key, hkey, rfl⟩
  have hsignature := signatureOfText_eq_ok_iff.mpr
    (show Hex.Spells signature (Signature.toBytes ⟨⟨r, h.r_lt⟩, ⟨s, h.s_lt⟩⟩) from h.spells)
  refine ⟨_, by rw [verify, hread, hsignature]; rfl, Signature.accepts_iff.trans ?_⟩
  constructor
  · rintro ⟨⟨hr, hs, hle⟩, hbelongs⟩
    exact ⟨hr, hs, hle, hbelongs⟩
  · rintro ⟨hr, hs, hle, hbelongs⟩
    exact ⟨⟨hr, hs, hle⟩, hbelongs⟩

/-- Half of the range is not more than a half: one of a scalar and its negative is above it. -/
theorem not_both_low {s : Nat} (h : s ≤ order / 2) : ¬ order - s ≤ order / 2 := by
  have hodd : order % 2 = 1 := by decide
  omega

/-- Nothing is accepted but a signature in the lower half. -/
theorem low_of_verify {r s : Nat} (hs : s < order)
    (hspells : Hex.Spells signature (Bytes.ofNat 32 r ++ Bytes.ofNat 32 s))
    (h : verify publicKey message signature = .ok true) : s ≤ order / 2 := by
  by_cases hkey : ∃ key, IsPublicKey publicKey key
  · obtain ⟨key, hkey⟩ := hkey
    by_cases hread : ∃ r s, IsSignature signature r s
    · obtain ⟨r', s', hread⟩ := hread
      obtain ⟨good, hgood, hiff⟩ := verify_of_signature message hkey hread
      rw [h] at hgood
      obtain rfl := Except.ok.inj hgood
      -- the text spells one list of octets, whose second half is one number below the order
      have hbytes := Hex.Spells.unique hspells hread.spells
      have hback := (List.append_inj hbytes (by rw [Bytes.length_ofNat, Bytes.length_ofNat])).2
      have heq := congrArg Bytes.toNat hback
      rw [toNat_ofNat_scalar hs, toNat_ofNat_scalar hread.s_lt] at heq
      rw [heq]
      exact (hiff.mp rfl).2.2.1
    · obtain ⟨e, he, -⟩ := verify_of_no_signature message hkey hread
      rw [h] at he
      cases he
  · obtain ⟨e, he, -⟩ := verify_of_no_key message signature hkey
    rw [h] at he
    cases he

/-- A text is refused as a public key exactly if it is none of the three ways to write a point, in
digits of either case; then, whatever the key, as a signature exactly if it is not what is written
of two scalars. Whether any other signature is accepted is told by the curve, and never an error: it
has to belong to the key and the message, and to have its second half in the lower half of the
range. So of two signatures with opposite second halves one at most is accepted. -/
theorem verify_decided (publicKey signature : String) (message : Bytes) :
    ((∃ e, verify publicKey message signature = .error e ∧ e.IsOfPublicKey) ↔
      ¬ ∃ key, IsPublicKey publicKey key) ∧
    (∀ key, IsPublicKey publicKey key →
      ((∃ e, verify publicKey message signature = .error e ∧ e.IsOfSignature) ↔
        ¬ ∃ r s, IsSignature signature r s) ∧
      ∀ r s, IsSignature signature r s →
        ∃ good, verify publicKey message signature = .ok good ∧
          (good = true ↔ 1 ≤ r ∧ 1 ≤ s ∧ s ≤ order / 2 ∧
            Signature.Belongs key (Signer.messageScalar message).val r s)) ∧
    ∀ (opposite : String) (r s : Nat), 0 < s → s < order →
      Hex.Spells signature (Bytes.ofNat 32 r ++ Bytes.ofNat 32 s) →
      Hex.Spells opposite (Bytes.ofNat 32 r ++ Bytes.ofNat 32 (order - s)) →
      ¬ (verify publicKey message signature = .ok true ∧
        verify publicKey message opposite = .ok true) := by
  refine ⟨⟨?_, verify_of_no_key message signature⟩,
    fun key hkey => ⟨⟨?_, verify_of_no_signature message hkey⟩, ?_⟩, ?_⟩
  · rintro ⟨e, he, hof⟩ ⟨key, hkey⟩
    by_cases hread : ∃ r s, IsSignature signature r s
    · obtain ⟨r, s, hread⟩ := hread
      obtain ⟨good, hgood, -⟩ := verify_of_signature message hkey hread
      rw [he] at hgood
      cases hgood
    · obtain ⟨e', he', hof'⟩ := verify_of_no_signature message hkey hread
      rw [he] at he'
      obtain rfl := Except.error.inj he'
      cases e <;> first | exact hof | exact hof'
  · rintro ⟨e, he, -⟩ ⟨r, s, hread⟩
    obtain ⟨good, hgood, -⟩ := verify_of_signature message hkey hread
    rw [he] at hgood
    cases hgood
  · intro r s hread
    exact verify_of_signature message hkey hread
  · rintro opposite r s hpos hlt hspells hopposite ⟨h, h'⟩
    exact not_both_low (low_of_verify hlt hspells h)
      (low_of_verify (Nat.sub_lt (hpos.trans hlt) hpos) hopposite h')

/-- A key in capital digits is read, and a signature in the upper half is no error for it. -/
theorem verify_decided_high :
    IsPublicKey "0279BE667EF9DCBBAC55A06295CE870B07029BFCDB2DCE28D959F2815B16F81798" base ∧
    IsSignature (Hex.encode (Bytes.ofNat 32 1 ++ Bytes.ofNat 32 (order - 1))) 1 (order - 1) ∧
    verify "0279BE667EF9DCBBAC55A06295CE870B07029BFCDB2DCE28D959F2815B16F81798" []
      (Hex.encode (Bytes.ofNat 32 1 ++ Bytes.ofNat 32 (order - 1))) = .ok false := by
  have hpoint : publicKeyOfText
      "0279BE667EF9DCBBAC55A06295CE870B07029BFCDB2DCE28D959F2815B16F81798" = .ok generator := by
    decide +kernel
  obtain ⟨key, hkey, heq⟩ := publicKeyOfText_eq_ok_iff.mp hpoint
  rw [Point.ofGroup_injective (heq.trans ofGroup_base.symm)] at hkey
  have hread : IsSignature (Hex.encode (Bytes.ofNat 32 1 ++ Bytes.ofNat 32 (order - 1))) 1
      (order - 1) :=
    ⟨by decide, by decide, Hex.decode_eq_ok_iff_spells.mp (Hex.decode_encode _)⟩
  obtain ⟨good, hgood, hiff⟩ := ((verify_decided _ _ []).2.1 base hkey).2 1 (order - 1) hread
  have hfalse : good = false := by
    rw [Bool.eq_false_iff]
    intro htrue
    exact absurd (hiff.mp htrue).2.2.1 (by decide)
  rw [hfalse] at hgood
  exact ⟨hkey, hread, hgood⟩

end CertRegistry
