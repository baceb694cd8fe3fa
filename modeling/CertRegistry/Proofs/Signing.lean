import CertRegistry.Proofs.Bytes.Hex
import CertRegistry.Proofs.Curve.Encoding
import CertRegistry.Proofs.Curve.Nonce
import CertRegistry.Proofs.Curve.Signature
import CertRegistry.Signer

/-!
# Signatures of keys

What a key signs is accepted for its public half. Factors come from a draw or, should it fail, are
one or two; any factor that makes a signature will do here.
-/

namespace CertRegistry

open Curve CertRegistry.Modular

/-- There is room for every scalar in 32 octets. -/
theorem Curve.toNat_ofNat_scalar {n : Nat} (h : n < order) :
    Bytes.toNat (Bytes.ofNat 32 n) = n := by
  rw [Bytes.toNat_ofNat]
  exact Nat.mod_eq_of_lt (Nat.lt_trans h (by decide))

theorem Curve.Signature.scalar?_ofNat (s : Scalar) : scalar? (Bytes.ofNat 32 s.val) = some s := by
  simp only [scalar?, toNat_ofNat_scalar s.isLt, s.isLt, dif_pos]

theorem Curve.Signature.ofBytes?_toBytes (sig : Signature) : ofBytes? sig.toBytes = some sig := by
  have hlength : sig.toBytes.length = 64 := by simp [toBytes]
  have htake : sig.toBytes.take 32 = Bytes.ofNat 32 sig.r.val :=
    List.take_left' (Bytes.length_ofNat 32 _)
  have hdrop : sig.toBytes.drop 32 = Bytes.ofNat 32 sig.s.val :=
    List.drop_left' (Bytes.length_ofNat 32 _)
  rw [ofBytes?, if_pos hlength, htake, hdrop, scalar?_ofNat, scalar?_ofNat]
  rfl

theorem signatureOfText_encode (sig : Signature) :
    signatureOfText (Hex.encode sig.toBytes) = .ok sig := by
  simp only [signatureOfText, Hex.decode_encode, Signature.ofBytes?_toBytes]

namespace Signer

variable (signer : Signer) (message : Bytes)

theorem publicKey_eq_ofGroup :
    signer.publicKey = Point.ofGroup (multiples (toRing signer.secret)) := by
  rw [signer.publicKey_eq, scale_generator]

theorem publicKeyOfText_publicKeyHex :
    publicKeyOfText signer.publicKeyHex = .ok signer.publicKey := by
  have hne : multiples (toRing signer.secret) ≠ 0 := by
    rw [ne_eq, multiples_eq_zero]
    exact fun hzero => signer.secret_ne_zero (toRing_injective hzero)
  have hread : Point.ofBytes? signer.publicKey.toBytes = some signer.publicKey := by
    rw [publicKey_eq_ofGroup]
    exact Point.ofBytes?_toBytes hne
  simp only [publicKeyOfText, publicKeyHex, Hex.decode_encode, hread]

/-- The signature is what the draw finds, however long that takes. -/
theorem signature_eq_of_findSome? {count : Nat} {sig : Signature}
    (h : (Nonce.Source.seed signer.secret (messageScalar message)).findSome?
      (Signature.make? signer.secret (messageScalar message)) count = some sig) :
    signer.signature message = sig := by
  rw [signature, Nonce.Source.findSome?_stateCount h]
  rfl

/-- Some factor makes the signature: one that was drawn, or one of the last two. -/
theorem exists_make?_signature : ∃ nonce,
    Signature.make? signer.secret (messageScalar message) nonce =
      some (signer.signature message) := by
  rw [signature]
  generalize hdrawn : (Nonce.Source.seed signer.secret (messageScalar message)).findSome?
    (Signature.make? signer.secret (messageScalar message)) Nonce.Source.stateCount = drawn
  cases drawn with
  | some sig => exact Nonce.Source.exists_of_findSome? hdrawn
  | none =>
    obtain ⟨sig, hsig⟩ :=
      Signature.exists_make?_one_or_two signer.secret_ne_zero (messageScalar message)
    simp only [Option.none_or, hsig, Option.getD_some]
    rcases Option.or_eq_some_iff.mp hsig with h | ⟨-, h⟩
    · exact ⟨1, h⟩
    · exact ⟨2, h⟩

/-- A signature has the digits of two scalars that are not zero, the second one in the lower half,
and is accepted for the public key. -/
theorem signatures_accepted : (signer.sign message).length = 128 ∧
    (∀ c ∈ (signer.sign message).toList, Hex.IsDigit c) ∧
    (∃ r s : Nat, 1 ≤ r ∧ r < order ∧ 1 ≤ s ∧ s ≤ order / 2 ∧
      signer.sign message = Hex.encode (Bytes.ofNat 32 r ++ Bytes.ofNat 32 s)) ∧
    verify signer.publicKeyHex message (signer.sign message) = .ok true := by
  obtain ⟨nonce, hmake⟩ := signer.exists_make?_signature message
  obtain ⟨-, hlow, -⟩ := Signature.make?_eq_some hmake
  have haccepts := Signature.accepts_of_make? hmake
  rw [← signer.publicKey_eq] at haccepts
  refine ⟨?_, fun c hc => Hex.isDigit_of_mem_encode hc, ?_, ?_⟩
  · rw [sign, Hex.length_encode]
    simp [Signature.toBytes]
  · exact ⟨_, _, hlow.one_le_r, (signer.signature message).r.isLt, hlow.one_le_s, hlow.s_le, rfl⟩
  · rw [verify, publicKeyOfText_publicKeyHex, sign, signatureOfText_encode]
    exact congrArg Except.ok haccepts

end Signer

end CertRegistry
