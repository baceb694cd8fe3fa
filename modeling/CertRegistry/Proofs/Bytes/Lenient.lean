import CertRegistry.Bytes.Lenient

/-!
# The lenient reading of UTF-8

Octets that are the UTF-8 of a text are read as that text, unless it starts with the mark of the
octet order.
-/

namespace CertRegistry.Bytes

/-- The last octet of a character. -/
theorem lenientChars_last {low high value : Nat} {b : UInt8} (rest : Bytes)
    (h : low ≤ b.toNat ∧ b.toNat ≤ high) : lenientChars (some ⟨1, low, high, value⟩) (b :: rest) =
      Char.ofNat (value * 64 + (b.toNat - 0x80)) :: lenientChars none rest := by
  simp [lenientChars, advance, h]

/-- An octet inside of a character. -/
theorem lenientChars_inner {missing low high value : Nat} {b : UInt8} (rest : Bytes)
    (h : low ≤ b.toNat ∧ b.toNat ≤ high) :
    lenientChars (some ⟨missing + 2, low, high, value⟩) (b :: rest) =
      lenientChars (some ⟨missing + 1, 0x80, 0xBF, value * 64 + (b.toNat - 0x80)⟩) rest := by
  simp [lenientChars, advance, h]

/-- The first octet of a character of several octets. -/
theorem lenientChars_begin {b : UInt8} {begun : Begun} (rest : Bytes)
    (h : begin b = ([], some begun)) :
    lenientChars none (b :: rest) = lenientChars (some begun) rest := by
  simp [lenientChars, advance, h]

theorem begin_of_two {n : Nat} (h : 0x7F < n) (h' : n ≤ 0x7FF) :
    begin (UInt8.ofNat (n / 64 % 32 + 0xC0)) = ([], some ⟨1, 0x80, 0xBF, n / 64⟩) := by
  have hval : (UInt8.ofNat (n / 64 % 32 + 0xC0)).toNat = n / 64 + 0xC0 := by
    rw [UInt8.toNat_ofNat']
    omega
  simp only [begin, hval]
  rw [if_neg (by omega), if_neg (by omega), if_pos (by omega), Nat.add_sub_cancel]

theorem begin_of_three {n : Nat} (h : 0x7FF < n) (h' : n ≤ 0xFFFF) :
    begin (UInt8.ofNat (n / 4096 % 16 + 0xE0)) =
      ([], some ⟨2, if n / 4096 = 0 then 0xA0 else 0x80, if n / 4096 = 0xD then 0x9F else 0xBF,
        n / 4096⟩) := by
  have hval : (UInt8.ofNat (n / 4096 % 16 + 0xE0)).toNat = n / 4096 + 0xE0 := by
    rw [UInt8.toNat_ofNat']
    omega
  simp only [begin, hval]
  rw [if_neg (by omega), if_neg (by omega), if_neg (by omega), if_pos (by omega),
    Nat.add_sub_cancel]
  simp only [Nat.add_eq_right, show (n / 4096 + 0xE0 = 0xED) = (n / 4096 = 0xD) by simp]

theorem begin_of_four {n : Nat} (h : 0xFFFF < n) (h' : n < 0x110000) :
    begin (UInt8.ofNat (n / 262144 % 8 + 0xF0)) =
      ([], some ⟨3, if n / 262144 = 0 then 0x90 else 0x80, if n / 262144 = 4 then 0x8F else 0xBF,
        n / 262144⟩) := by
  have hval : (UInt8.ofNat (n / 262144 % 8 + 0xF0)).toNat = n / 262144 + 0xF0 := by
    rw [UInt8.toNat_ofNat']
    omega
  simp only [begin, hval]
  rw [if_neg (by omega), if_neg (by omega), if_neg (by omega), if_neg (by omega),
    Nat.add_sub_cancel]
  simp only [Nat.add_eq_right, show (n / 262144 + 0xF0 = 0xF4) = (n / 262144 = 4) by simp]

/-- An octet that carries six bits. -/
theorem toNat_tail (n : Nat) : (UInt8.ofNat (n % 64 + 0x80)).toNat = n % 64 + 0x80 := by
  rw [UInt8.toNat_ofNat']
  omega

/-- The octets of a character are read as that character. -/
theorem lenientChars_utf8EncodeChar (c : Char) (rest : Bytes) :
    lenientChars none (String.utf8EncodeChar c ++ rest) = c :: lenientChars none rest := by
  have hchar : Char.ofNat c.toNat = c := Char.ofNat_toNat c
  have hvalid : c.toNat < 0xD800 ∨ (0xDFFF < c.toNat ∧ c.toNat < 0x110000) := c.valid
  have hval : c.val.toNat = c.toNat := rfl
  simp only [String.utf8EncodeChar, hval]
  generalize c.toNat = n at hchar hvalid
  subst hchar
  split
  · -- One octet is the number of the character.
    have hoctet : (UInt8.ofNat n).toNat = n := by
      rw [UInt8.toNat_ofNat']
      omega
    simp [lenientChars, advance, begin, hoctet, show n < 128 by omega]
  · split
    · rw [List.cons_append, List.cons_append, List.nil_append,
        lenientChars_begin _ (begin_of_two (by omega) (by omega)),
        lenientChars_last _ (by rw [toNat_tail]; omega), toNat_tail,
        show n / 64 * 64 + (n % 64 + 0x80 - 0x80) = n by omega]
    · split
      · rw [List.cons_append, List.cons_append, List.cons_append, List.nil_append,
          lenientChars_begin _ (begin_of_three (by omega) (by omega)),
          lenientChars_inner _ (by rw [toNat_tail]; split <;> split <;> omega),
          lenientChars_last _ (by rw [toNat_tail]; omega), toNat_tail, toNat_tail,
          show (n / 4096 * 64 + (n / 64 % 64 + 0x80 - 0x80)) * 64 + (n % 64 + 0x80 - 0x80) = n by
            omega]
      · rw [List.cons_append, List.cons_append, List.cons_append, List.cons_append,
          List.nil_append, lenientChars_begin _ (begin_of_four (by omega) (by omega)),
          lenientChars_inner _ (by rw [toNat_tail]; split <;> split <;> omega),
          lenientChars_inner _ (by rw [toNat_tail]; omega),
          lenientChars_last _ (by rw [toNat_tail]; omega), toNat_tail, toNat_tail, toNat_tail,
          show ((n / 262144 * 64 + (n / 4096 % 64 + 0x80 - 0x80)) * 64 +
            (n / 64 % 64 + 0x80 - 0x80)) * 64 + (n % 64 + 0x80 - 0x80) = n by omega]

theorem lenientChars_ofText (s : String) : lenientChars none (ofText s) = s.toList := by
  rw [← String.ofList_toList (s := s), ofText_ofList, String.toList_ofList]
  induction s.toList with
  | nil => rfl
  | cons c cs ih => rw [List.flatMap_cons, lenientChars_utf8EncodeChar, ih]

/-- No octet of UTF-8 is one of those that mark UTF-16. -/
theorem toNat_lt_of_mem_ofText {s : String} {b : UInt8} (h : b ∈ ofText s) : b.toNat < 0xF8 := by
  rw [← String.ofList_toList (s := s), ofText_ofList] at h
  obtain ⟨c, -, hb⟩ := List.mem_flatMap.mp h
  have hvalid : c.val.toNat < 0xD800 ∨ (0xDFFF < c.val.toNat ∧ c.val.toNat < 0x110000) := c.valid
  simp only [String.utf8EncodeChar] at hb
  split at hb
  · obtain rfl := List.mem_singleton.mp hb
    rw [UInt8.toNat_ofNat']
    omega
  · split at hb
    · simp only [List.mem_cons, List.not_mem_nil, or_false] at hb
      rcases hb with rfl | rfl <;> rw [UInt8.toNat_ofNat'] <;> omega
    · split at hb
      · simp only [List.mem_cons, List.not_mem_nil, or_false] at hb
        rcases hb with rfl | rfl | rfl <;> rw [UInt8.toNat_ofNat'] <;> omega
      · simp only [List.mem_cons, List.not_mem_nil, or_false] at hb
        rcases hb with rfl | rfl | rfl | rfl <;> rw [UInt8.toNat_ofNat'] <;> omega

theorem lenientText_ofText {s : String} (h : s.toList.head? ≠ some '\uFEFF') :
    lenientText (ofText s) = s := by
  have hchars := lenientChars_ofText s
  unfold lenientText
  split
  · next rest heq =>
    rw [heq] at hchars
    have hmark : lenientChars none (0xEF :: 0xBB :: 0xBF :: rest) =
        '\uFEFF' :: lenientChars none rest := rfl
    rw [← hchars, hmark] at h
    exact absurd rfl h
  · next rest heq => exact absurd (toNat_lt_of_mem_ofText (heq ▸ List.mem_cons_self)) (by decide)
  · next rest heq => exact absurd (toNat_lt_of_mem_ofText (heq ▸ List.mem_cons_self)) (by decide)
  · rw [hchars, String.ofList_toList]

end CertRegistry.Bytes
