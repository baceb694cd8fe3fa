import CertRegistry.Bytes.Hex
import CertRegistry.Proofs.Bytes.Ascii

/-!
# Hexadecimal texts that were written

Two lowercase digits for each octet, and nothing else. They are read back as the octets.
-/

namespace CertRegistry.Hex

/-- Whether a character is a lowercase hexadecimal digit. -/
def IsDigit (c : Char) : Prop := ('0' ≤ c ∧ c ≤ '9') ∨ ('a' ≤ c ∧ c ≤ 'f')

instance (c : Char) : Decidable (IsDigit c) := inferInstanceAs (Decidable (_ ∨ _))

theorem isDigit_digit {n : Nat} (h : n < 16) : IsDigit (digit n) := by
  have hall : ∀ i : Fin 16, IsDigit (digit i.val) := by decide
  exact hall ⟨n, h⟩

theorem IsDigit.isAscii {c : Char} (h : IsDigit c) : c.toNat < 0x80 := by
  rcases h with ⟨_, h⟩ | ⟨_, h⟩
  · exact Nat.lt_of_le_of_lt (UInt32.le_iff_toNat_le.mp h) (by decide)
  · exact Nat.lt_of_le_of_lt (UInt32.le_iff_toNat_le.mp h) (by decide)

theorem isDigit_of_isDigit {c : Char} (h : c.isDigit = true) : IsDigit c := by
  simp only [Char.isDigit, ge_iff_le, Bool.and_eq_true, decide_eq_true_eq] at h
  exact Or.inl h

theorem IsDigit.ne {c d : Char} (h : IsDigit c) (hd : ¬ IsDigit d) : c ≠ d := by
  rintro rfl
  exact hd h

/-- Whether a character is a hexadecimal digit of either case. -/
def IsAnyDigit (c : Char) : Prop := c ∈ "0123456789abcdefABCDEF".toList

instance (c : Char) : Decidable (IsAnyDigit c) := inferInstanceAs (Decidable (_ ∈ _))

theorem IsDigit.isAny {c : Char} (h : IsDigit c) : IsAnyDigit c := by
  have hall : ∀ n : Fin 128, IsDigit (Char.ofNat n.val) → IsAnyDigit (Char.ofNat n.val) := by
    decide
  have hself : Char.ofNat c.toNat = c := Char.ofNat_toNat c
  have hany := hall ⟨c.toNat, h.isAscii⟩
  simp only [hself] at hany
  exact hany h

/-- What holds for each of the digits is checked one by one. -/
theorem forall_isAnyDigit {p : Char → Prop} [DecidablePred p]
    (h : ("0123456789abcdefABCDEF".toList.all fun c => decide (p c)) = true) :
    ∀ c, IsAnyDigit c → p c :=
  forall_mem_of_all h

theorem isDigit_of_mem_encode {bs : Bytes} {c : Char} (h : c ∈ (encode bs).toList) :
    IsDigit c := by
  simp only [encode, String.toList_ofList, List.mem_flatMap, List.mem_cons, List.not_mem_nil,
    or_false] at h
  obtain ⟨b, _, rfl | rfl⟩ := h
  · exact isDigit_digit (by have := b.toNat_lt; omega)
  · exact isDigit_digit (by omega)

@[simp]
theorem length_encode (bs : Bytes) : (encode bs).length = 2 * bs.length := by
  simp only [encode, String.length_ofList]
  induction bs with
  | nil => rfl
  | cons b bs ih =>
    simp only [List.flatMap_cons, List.length_append, ih, List.length_cons, List.length_nil]
    omega

theorem length_ofText_encode (bs : Bytes) : (Bytes.ofText (encode bs)).length = 2 * bs.length := by
  rw [Bytes.length_ofText_of_isAscii fun c hc => (isDigit_of_mem_encode hc).isAscii, length_encode]

theorem digitValue?_digit {n : Nat} (h : n < 16) :
    digitValue? (UInt8.ofNat (digit n).toNat) = some n := by
  have hall : ∀ i : Fin 16, digitValue? (UInt8.ofNat (digit i.val).toNat) = some i.val := by decide
  exact hall ⟨n, h⟩

theorem decodePairs_digits (offset : Nat) (bs : Bytes) :
    decodePairs offset ((bs.flatMap fun b => [digit (b.toNat / 16), digit (b.toNat % 16)]).map
      fun c => UInt8.ofNat c.toNat) = .ok bs := by
  induction bs generalizing offset with
  | nil => rfl
  | cons b bs ih =>
    have hhigh : b.toNat / 16 < 16 := by
      have := b.toNat_lt
      omega
    have hlow : b.toNat % 16 < 16 := by omega
    have hsum : 16 * (b.toNat / 16) + b.toNat % 16 = b.toNat := Nat.div_add_mod _ _
    rw [List.flatMap_cons, List.map_append, List.map_cons, List.map_cons, List.map_nil,
      List.cons_append, List.cons_append, List.nil_append, decodePairs, digitValue?_digit hhigh,
      digitValue?_digit hlow]
    simp only [ih, hsum, UInt8.ofNat_toNat]
    rfl

theorem decode_encode (bs : Bytes) : decode (encode bs) = .ok bs := by
  have heven : (Bytes.ofText (encode bs)).length % 2 ≠ 1 := by
    rw [length_ofText_encode]
    omega
  rw [decode, if_neg heven,
    Bytes.ofText_of_isAscii fun c hc => (isDigit_of_mem_encode hc).isAscii, encode,
    String.toList_ofList]
  exact decodePairs_digits 0 bs

end CertRegistry.Hex
