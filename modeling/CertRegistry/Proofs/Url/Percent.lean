import CertRegistry.Proofs.Bytes.HexReading
import CertRegistry.Url.Percent

/-!
# Escapes that are resolved

Escaping puts only percent signs and digits for what it does not keep. Who resolves the escapes gets
the octets of the text back, if the text has no percent signs of its own.
-/

namespace CertRegistry.Url.Percent

variable {escaped : Char → Bool} {cs : List Char} {c : Char}

/-! ## What escaping leaves -/

theorem stands_digit {n : Nat} (h : n < 16) : Hex.Stands (Nat.digitChar n).toUpper n := by
  have hall : ∀ i : Fin 16, (Nat.digitChar i.val).toUpper.toLower = Hex.digit i.val := by decide
  exact ⟨h, hall ⟨n, h⟩⟩

/-- An escape is a percent sign and the digits of the octet. -/
theorem exists_escape (b : UInt8) : ∃ high low, escape b = ['%', high, low] ∧
    Hex.Stands high (b.toNat / 16) ∧ Hex.Stands low (b.toNat % 16) :=
  ⟨_, _, rfl, stands_digit (Nat.div_lt_of_lt_mul b.toNat_lt),
    stands_digit (Nat.mod_lt _ (by decide))⟩

theorem of_mem_encode (h : c ∈ encode escaped cs) :
    (c ∈ cs ∧ c.toNat < 0x80 ∧ escaped c = false) ∨ c = '%' ∨ Hex.IsAnyDigit c := by
  obtain ⟨d, hd, hmem⟩ := List.mem_flatMap.mp h
  split at hmem
  next hkept =>
    obtain rfl := List.mem_singleton.mp hmem
    exact Or.inl ⟨hd, hkept⟩
  next =>
    obtain ⟨b, -, hb⟩ := List.mem_flatMap.mp hmem
    obtain ⟨high, low, hescape, hhigh, hlow⟩ := exists_escape b
    rw [hescape] at hb
    simp only [List.mem_cons, List.not_mem_nil, or_false] at hb
    rcases hb with rfl | rfl | rfl
    · exact Or.inr (Or.inl rfl)
    · exact Or.inr (Or.inr hhigh.value.2.2)
    · exact Or.inr (Or.inr hlow.value.2.2)

/-- What is neither a percent sign nor a digit is there before escaping. -/
theorem mem_of_mem_encode (h : c ∈ encode escaped cs) (hc : c ≠ '%' ∧ ¬ Hex.IsAnyDigit c) :
    c ∈ cs := by
  rcases of_mem_encode h with ⟨hmem, -⟩ | hpercent | hdigit
  · exact hmem
  · exact absurd hpercent hc.1
  · exact absurd hdigit hc.2

/-! ## Back -/

theorem decode_cons {b : UInt8} (hb : b ≠ 0x25) (rest : Bytes) :
    decode (b :: rest) = b :: decode rest := by
  rw [decode]
  exact fun _ _ _ h _ => hb h

theorem decode_escape (b : UInt8) (rest : Bytes) :
    decode ((escape b).flatMap String.utf8EncodeChar ++ rest) = b :: decode rest := by
  obtain ⟨high, low, hescape, hhigh, hlow⟩ := exists_escape b
  have hvalue : 16 * (b.toNat / 16) + b.toNat % 16 = b.toNat := by omega
  have hpercent : String.utf8EncodeChar '%' = [0x25] := by decide
  rw [hescape]
  simp only [List.flatMap_cons, List.flatMap_nil, hpercent,
    Bytes.utf8EncodeChar_of_lt hhigh.isAscii, Bytes.utf8EncodeChar_of_lt hlow.isAscii,
    List.cons_append, List.nil_append]
  rw [decode]
  simp only [hhigh.value.1, hlow.value.1, hvalue, UInt8.ofNat_toNat]

theorem decode_escapes (bs rest : Bytes) :
    decode ((bs.flatMap escape).flatMap String.utf8EncodeChar ++ rest) = bs ++ decode rest := by
  induction bs with
  | nil => rfl
  | cons b bs ih =>
    rw [List.flatMap_cons, List.flatMap_append, List.append_assoc, decode_escape, ih,
      List.cons_append]

/-- A text without percent signs is what its escaped form is resolved to. -/
theorem decode_encode (escaped : Char → Bool) (h : '%' ∉ cs) :
    decode (Bytes.ofText (String.ofList (encode escaped cs))) =
      Bytes.ofText (String.ofList cs) := by
  rw [Bytes.ofText_ofList, Bytes.ofText_ofList]
  induction cs with
  | nil => rfl
  | cons c cs ih =>
    obtain ⟨hc, hcs⟩ := not_or.mp (mt List.mem_cons.mpr h)
    have hrest := ih hcs
    rw [encode, List.flatMap_cons, List.flatMap_append, ← encode, List.flatMap_cons]
    split
    next hkept =>
      have hne : UInt8.ofNat c.toNat ≠ 0x25 := by
        intro heq
        have hnat := congrArg UInt8.toNat heq
        rw [UInt8.toNat_ofNat', Nat.mod_eq_of_lt (Nat.lt_trans hkept.1 (by decide))] at hnat
        exact hc (Char.toNat_inj.mp hnat.symm)
      rw [List.flatMap_singleton, Bytes.utf8EncodeChar_of_lt hkept.1, List.singleton_append,
        decode_cons hne, hrest, List.singleton_append]
    next =>
      have hoctets : Bytes.ofText (String.singleton c) = String.utf8EncodeChar c := by
        rw [String.singleton_eq_ofList, Bytes.ofText_ofList, List.flatMap_singleton]
      rw [hoctets, decode_escapes, hrest]

end CertRegistry.Url.Percent
