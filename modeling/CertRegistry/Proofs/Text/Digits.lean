import CertRegistry.Text.Digits
import Mathlib.Data.Nat.Digits.Defs

/-!
# Numbers in digits are read back

The digits of a number spell that number, without needless zeros before them. Digits with zeros
before them spell a number too.
-/

namespace CertRegistry.Text

theorem toList_toString (n : Nat) : (toString n).toList = Nat.toDigits 10 n := Nat.toList_repr

theorem isDigit_of_mem_toString {n : Nat} {c : Char} (h : c ∈ (toString n).toList) :
    c.isDigit = true := by
  rw [toList_toString] at h
  exact Nat.isDigit_of_mem_toDigits (by decide) (by decide) h

theorem toString_ne_nil (n : Nat) : (toString n).toList ≠ [] := by
  rw [toList_toString]
  exact Nat.toDigits_ne_nil

theorem foldl_toString (n : Nat) :
    (toString n).toList.foldl (fun n c => n * 10 + (c.toNat - 48)) 0 = n := by
  have h := Nat.ofDigitChars_ten_toDigits (n := n)
  rw [Nat.ofDigitChars_eq_foldl] at h
  rw [toList_toString]
  simp only [Nat.mul_comm 10] at h
  exact h

/-- A zero comes first in the digits of zero only. -/
theorem eq_nil_of_toString {n : Nat} {rest : List Char} (h : (toString n).toList = '0' :: rest) :
    rest = [] := by
  induction n using Nat.strongRecOn generalizing rest with
  | ind n ih =>
    by_cases hsmall : n < 10
    · rw [toList_toString, Nat.toDigits_of_lt_base hsmall] at h
      exact (List.cons.inj h).2.symm
    · have hsplit := Nat.toDigits_of_base_le (b := 10) (by decide) (Nat.le_of_not_lt hsmall)
      rw [toList_toString, hsplit] at h
      have hne : Nat.toDigits 10 (n / 10) ≠ [] := Nat.toDigits_ne_nil
      obtain ⟨first, more, hmore⟩ := List.exists_cons_of_ne_nil hne
      rw [hmore, List.cons_append] at h
      obtain ⟨rfl, -⟩ := List.cons.inj h
      -- the number without its last digit is zero
      have hfront : (toString (n / 10)).toList = '0' :: more := by rw [toList_toString, hmore]
      have hzero := foldl_toString (n / 10)
      rw [hfront, ih (n / 10) (by omega) hfront] at hzero
      change 0 = n / 10 at hzero
      omega

/-! ## Digits of any number -/

/-- Whether characters are the decimal digits of a number, perhaps with zeros before them. -/
structure IsDecimal (cs : List Char) (n : Nat) : Prop where
  ne_nil : cs ≠ []
  isDigit : ∀ c ∈ cs, c.isDigit = true
  value : Nat.ofDigits 10 (cs.reverse.map fun c => c.toNat - 48) = n

/-- The number that digits spell, when they are taken up one by one. -/
theorem foldl_digits (cs : List Char) :
    cs.foldl (fun n c => n * 10 + (c.toNat - 48)) 0 =
      Nat.ofDigits 10 (cs.reverse.map fun c => c.toNat - 48) := by
  rw [Nat.ofDigits_eq_foldr, List.foldr_map, List.foldr_reverse]
  simp only [Nat.cast_id, Nat.add_comm, Nat.mul_comm]

theorem isDecimal_toString (n : Nat) : IsDecimal (toString n).toList n :=
  ⟨toString_ne_nil n, fun _ => isDigit_of_mem_toString, by rw [← foldl_digits, foldl_toString]⟩

theorem digitsValue?_eq_some_iff {cs : List Char} {n : Nat} :
    digitsValue? cs = some n ↔ IsDecimal cs n := by
  unfold digitsValue?
  rw [foldl_digits]
  constructor
  · intro h
    split at h
    · next hdigits => exact ⟨hdigits.1, List.all_eq_true.mp hdigits.2, Option.some.inj h⟩
    · cases h
  · intro h
    rw [if_pos ⟨h.ne_nil, List.all_eq_true.mpr h.isDigit⟩, h.value]

/-- A text spells a number below a bound with its digits, before which there may be a plus sign. -/
theorem natural?_eq_some_iff {bound n : Nat} {s : String} :
    natural? bound s = some n ↔
      (IsDecimal s.toList n ∨ ∃ digits, s.toList = '+' :: digits ∧ IsDecimal digits n) ∧
        n < bound := by
  have hplus : ∀ digits, ¬ IsDecimal ('+' :: digits) n :=
    fun digits h => absurd (h.isDigit '+' List.mem_cons_self) (by decide)
  unfold natural?
  rw [Option.filter_eq_some_iff, decide_eq_true_iff]
  refine and_congr_left fun _ => ?_
  split
  · next digits hs =>
    rw [digitsValue?_eq_some_iff]
    constructor
    · exact fun h => .inr ⟨digits, hs, h⟩
    · rintro (h | ⟨digits', hs', h⟩)
      · exact absurd (hs ▸ h) (hplus digits)
      · rw [hs] at hs'
        cases hs'
        exact h
  · next hs =>
    rw [digitsValue?_eq_some_iff]
    constructor
    · exact .inl
    · rintro (h | ⟨digits, hs', -⟩)
      · exact h
      · exact absurd hs' (hs digits)

end CertRegistry.Text
