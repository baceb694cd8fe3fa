import CertRegistry.Proofs.Bytes.Hex
import CertRegistry.Proofs.Stages
import CertRegistry.Text.Digits
import Mathlib.Data.List.Induction

/-!
# Hexadecimal texts that are read

A text is read as octets if it is what is written of them, but for the case of its digits. The
octets spell the number that the digits spell.
-/

namespace CertRegistry

/-- Octets are as many octets of the number that they spell. -/
theorem Bytes.ofNat_toNat (bs : Bytes) : ofNat bs.length (toNat bs) = bs := by
  induction bs using List.reverseRecOn with
  | nil => rfl
  | append_singleton bs b ih =>
    have hless := b.toNat_lt
    have hlow : UInt8.ofNat (256 * toNat bs + b.toNat) = b := by
      refine UInt8.toNat_inj.mp ?_
      rw [UInt8.toNat_ofNat']
      omega
    have hhigh : (256 * toNat bs + b.toNat) / 256 = toNat bs := by omega
    rw [List.length_append, List.length_singleton, toNat_append_singleton, ofNat, hlow, hhigh, ih]

namespace Hex

/-- The digits of octets. -/
def digits (bs : Bytes) : List Char :=
  bs.flatMap fun b => [digit (b.toNat / 16), digit (b.toNat % 16)]

theorem encode_eq_ofList (bs : Bytes) : encode bs = String.ofList (digits bs) := rfl

@[simp]
theorem digits_cons (b : UInt8) (bs : Bytes) :
    digits (b :: bs) = digit (b.toNat / 16) :: digit (b.toNat % 16) :: digits bs := rfl

/-! ## Single digits -/

/-- Whether a character is the digit of a number, in either case. -/
def Stands (c : Char) (n : Nat) : Prop := n < 16 ∧ c.toLower = digit n

theorem toNat_le_toNat_toLower (c : Char) : c.toNat ≤ c.toLower.toNat := by
  unfold Char.toLower
  split
  · next h =>
    have hsum : (c.val + ('a'.val - 'A'.val)).toNat = c.val.toNat + 32 := by
      have hle := UInt32.le_iff_toNat_le.mp h.2
      have hsize : c.val.toNat ≤ 90 := hle
      rw [UInt32.toNat_add, show ('a'.val - 'A'.val).toNat = 32 from rfl]
      omega
    exact Nat.le_trans (Nat.le_add_right _ 32) (Nat.le_of_eq hsum.symm)
  · exact Nat.le_refl _

theorem Stands.isAscii {c : Char} {n : Nat} (h : Stands c n) : c.toNat < 0x80 := by
  have hle := toNat_le_toNat_toLower c
  have hlower := (isDigit_digit h.1).isAscii
  rw [← h.2] at hlower
  exact Nat.lt_of_le_of_lt hle hlower

theorem Stands.value {c : Char} {n : Nat} (h : Stands c n) :
    digitValue? (UInt8.ofNat c.toNat) = some n ∧ Text.hexDigit? c = some n ∧ IsAnyDigit c := by
  have hall : ∀ i : Fin 128, ∀ n : Fin 16, (Char.ofNat i.val).toLower = digit n.val →
      digitValue? (UInt8.ofNat i.val) = some n.val ∧
        Text.hexDigit? (Char.ofNat i.val) = some n.val ∧ IsAnyDigit (Char.ofNat i.val) := by
    decide +kernel
  have hself : Char.ofNat c.toNat = c := Char.ofNat_toNat c
  have hc := hall ⟨c.toNat, h.isAscii⟩ ⟨n, h.1⟩
  simp only [hself] at hc
  exact hc h.2

theorem IsAnyDigit.exists_stands {c : Char} (h : IsAnyDigit c) : ∃ n, Stands c n := by
  have hall : ∀ c, IsAnyDigit c → ∃ n : Fin 16, c.toLower = digit n.val :=
    forall_isAnyDigit (by decide +kernel)
  obtain ⟨n, hn⟩ := hall c h
  exact ⟨n.val, n.isLt, hn⟩

theorem stands_of_digitValue? {b : UInt8} {n : Nat} (h : digitValue? b = some n) :
    b.toNat < 0x80 ∧ Stands (Char.ofNat b.toNat) n := by
  have hall : ∀ i : Fin 256, (digitValue? (UInt8.ofNat i.val)).all (fun n =>
      decide (i.val < 0x80 ∧ n < 16 ∧ (Char.ofNat i.val).toLower = digit n)) = true := by
    decide +kernel
  have hb := hall ⟨b.toNat, b.toNat_lt⟩
  simp only [UInt8.ofNat_toNat, h, Option.all_some, decide_eq_true_eq] at hb
  exact hb

/-! ## Digits in a row -/

/-- The first octet takes the first two digits. -/
theorem lower_eq_digits_cons {cs : List Char} {b : UInt8} {bs : Bytes} :
    cs.map Char.toLower = digits (b :: bs) ↔ ∃ c d rest, cs = c :: d :: rest ∧
      Stands c (b.toNat / 16) ∧ Stands d (b.toNat % 16) ∧ rest.map Char.toLower = digits bs := by
  have hhigh : b.toNat / 16 < 16 := by
    have := b.toNat_lt
    omega
  have hlow : b.toNat % 16 < 16 := Nat.mod_lt _ (by decide)
  rw [digits_cons]
  constructor
  · intro h
    obtain ⟨c, cs, rfl, hc, h⟩ := List.map_eq_cons_iff.mp h
    obtain ⟨d, rest, rfl, hd, hrest⟩ := List.map_eq_cons_iff.mp h
    exact ⟨c, d, rest, rfl, ⟨hhigh, hc⟩, ⟨hlow, hd⟩, hrest⟩
  · rintro ⟨c, d, rest, rfl, hc, hd, hrest⟩
    rw [List.map_cons, List.map_cons, hc.2, hd.2, hrest]

theorem length_eq_of_lower {cs : List Char} {bs : Bytes} (h : cs.map Char.toLower = digits bs) :
    cs.length = 2 * bs.length := by
  have hlength := length_encode bs
  rw [encode_eq_ofList, String.length_ofList, ← h, List.length_map] at hlength
  exact hlength

theorem isAnyDigit_of_lower {cs : List Char} {bs : Bytes} (h : cs.map Char.toLower = digits bs) :
    ∀ c ∈ cs, IsAnyDigit c := by
  induction bs generalizing cs with
  | nil =>
    rw [List.map_eq_nil_iff.mp h]
    exact List.forall_mem_nil _
  | cons b bs ih =>
    obtain ⟨c, d, rest, rfl, hc, hd, hrest⟩ := lower_eq_digits_cons.mp h
    exact List.forall_mem_cons.mpr
      ⟨hc.value.2.2, List.forall_mem_cons.mpr ⟨hd.value.2.2, ih hrest⟩⟩

section Pair

variable {high low : Nat}

theorem toNat_pair (hhigh : high < 16) (hlow : low < 16) :
    (UInt8.ofNat (16 * high + low)).toNat = 16 * high + low :=
  UInt8.toNat_ofNat_of_lt' (by simp only [UInt8.size]; omega)

theorem toNat_pair_div (hhigh : high < 16) (hlow : low < 16) :
    (UInt8.ofNat (16 * high + low)).toNat / 16 = high := by
  rw [toNat_pair hhigh hlow]
  omega

theorem toNat_pair_mod (hhigh : high < 16) (hlow : low < 16) :
    (UInt8.ofNat (16 * high + low)).toNat % 16 = low := by
  rw [toNat_pair hhigh hlow]
  omega

end Pair

/-- Any even number of digits are those of some octets. -/
theorem exists_digits : ∀ {cs : List Char}, (∀ c ∈ cs, IsAnyDigit c) → cs.length % 2 = 0 →
    ∃ bs, cs.map Char.toLower = digits bs
  | [], _, _ => ⟨[], rfl⟩
  | [_], _, heven => by simp at heven
  | c :: d :: cs, hall, heven => by
    obtain ⟨hc, hall⟩ := List.forall_mem_cons.mp hall
    obtain ⟨hd, hall⟩ := List.forall_mem_cons.mp hall
    rw [List.length_cons, List.length_cons] at heven
    obtain ⟨bs, hbs⟩ := exists_digits hall (by omega)
    obtain ⟨high, hhigh⟩ := hc.exists_stands
    obtain ⟨low, hlow⟩ := hd.exists_stands
    refine ⟨UInt8.ofNat (16 * high + low) :: bs,
      lower_eq_digits_cons.mpr ⟨c, d, cs, rfl, ?_, ?_, hbs⟩⟩
    · rwa [toNat_pair_div hhigh.1 hlow.1]
    · rwa [toNat_pair_mod hhigh.1 hlow.1]

/-- Digits of either case are read as the octets of which they are the digits. -/
theorem decodePairs_of_lower {cs : List Char} {bs : Bytes} (offset : Nat)
    (h : cs.map Char.toLower = digits bs) :
    decodePairs offset (cs.map fun c => UInt8.ofNat c.toNat) = .ok bs := by
  induction bs generalizing cs offset with
  | nil =>
    rw [List.map_eq_nil_iff.mp h]
    rfl
  | cons b bs ih =>
    obtain ⟨c, d, rest, rfl, hc, hd, hrest⟩ := lower_eq_digits_cons.mp h
    have hsum : 16 * (b.toNat / 16) + b.toNat % 16 = b.toNat := Nat.div_add_mod _ _
    rw [List.map_cons, List.map_cons, decodePairs, hc.value.1, hd.value.1]
    simp only [ih _ hrest, hsum, UInt8.ofNat_toNat]
    rfl

/-- The first two octets are read as digits. -/
theorem decodePairs_cons_eq_ok {offset : Nat} {high low : UInt8} {octets bs : Bytes} :
    decodePairs offset (high :: low :: octets) = .ok bs ↔ ∃ h l rest,
      digitValue? high = some h ∧ digitValue? low = some l ∧
        decodePairs (offset + 2) octets = .ok rest ∧ bs = UInt8.ofNat (16 * h + l) :: rest := by
  rw [decodePairs]
  cases digitValue? high with
  | none => simp
  | some h =>
    cases digitValue? low with
    | none => simp
    | some l =>
      constructor
      · intro hmap
        obtain ⟨rest, hrest, rfl⟩ := map_eq_ok.mp hmap
        exact ⟨h, l, rest, rfl, rfl, hrest, rfl⟩
      · rintro ⟨_, _, rest, hhigh, hlow, hrest, rfl⟩
        cases hhigh
        cases hlow
        exact map_eq_ok.mpr ⟨rest, hrest, rfl⟩

/-- Only digits are read. -/
theorem lower_of_decodePairs : ∀ {octets bs : Bytes} {offset : Nat}, octets.length % 2 ≠ 1 →
    decodePairs offset octets = .ok bs →
      (∀ o ∈ octets, o.toNat < 0x80) ∧
        (octets.map fun o => Char.ofNat o.toNat).map Char.toLower = digits bs
  | [], _, _, _, h => by
    cases h
    exact ⟨List.forall_mem_nil _, rfl⟩
  | [_], _, _, hodd, _ => absurd rfl hodd
  | high :: low :: octets, bs, offset, heven, h => by
    obtain ⟨hi, lo, rest, hhigh, hlow, hrest, rfl⟩ := decodePairs_cons_eq_ok.mp h
    rw [List.length_cons, List.length_cons] at heven
    obtain ⟨hascii, hlower⟩ := lower_of_decodePairs (by omega) hrest
    obtain ⟨hhighAscii, hhigh⟩ := stands_of_digitValue? hhigh
    obtain ⟨hlowAscii, hlow⟩ := stands_of_digitValue? hlow
    refine ⟨List.forall_mem_cons.mpr ⟨hhighAscii, List.forall_mem_cons.mpr ⟨hlowAscii, hascii⟩⟩,
      lower_eq_digits_cons.mpr ⟨_, _, _, rfl, ?_, ?_, hlower⟩⟩
    · rwa [toNat_pair_div hhigh.1 hlow.1]
    · rwa [toNat_pair_mod hhigh.1 hlow.1]

/-- The number that digits spell is the number that their octets spell. -/
theorem inBase?_of_lower {cs : List Char} {bs : Bytes} (h : cs.map Char.toLower = digits bs) :
    Text.inBase? 16 cs = some bs.toNat := by
  have hfold : ∀ start, cs.foldlM
      (fun n c => ((Text.hexDigit? c).filter (· < 16)).map (n * 16 + ·)) start =
        some (bs.foldl (fun n b => 256 * n + b.toNat) start) := by
    induction bs generalizing cs with
    | nil =>
      intro start
      rw [List.map_eq_nil_iff.mp h]
      rfl
    | cons b bs ih =>
      intro start
      obtain ⟨c, d, rest, rfl, hc, hd, hrest⟩ := lower_eq_digits_cons.mp h
      have hsum : (start * 16 + b.toNat / 16) * 16 + b.toNat % 16 = 256 * start + b.toNat := by
        omega
      simp only [List.foldlM_cons, hc.value.2.1, hd.value.2.1, Option.filter_some, hc.1, hd.1,
        decide_true, if_true, Option.map_some, List.foldl_cons, Option.bind_eq_bind,
        Option.bind_some, hsum]
      exact ih hrest _
  exact hfold 0

/-! ## Texts -/

/-- A text is read if it is what is written of octets, but for the case of its digits. -/
theorem decode_eq_ok_iff {s : String} {bs : Bytes} :
    decode s = .ok bs ↔ s.toList.map Char.toLower = digits bs := by
  unfold decode
  constructor
  · intro h
    simp only at h
    split at h
    · cases h
    next heven =>
      obtain ⟨hascii, hlower⟩ := lower_of_decodePairs heven h
      have hsame : String.ofList ((Bytes.ofText s).map fun o => Char.ofNat o.toNat) = s :=
        Bytes.ofText_injective (Bytes.ofText_ofList_octets hascii)
      rw [← hsame, String.toList_ofList]
      exact hlower
  · intro h
    have hascii : ∀ c ∈ s.toList, c.toNat < 0x80 := by
      intro c hc
      obtain ⟨n, hn⟩ := (isAnyDigit_of_lower h c hc).exists_stands
      exact hn.isAscii
    have hlength : (Bytes.ofText s).length = 2 * bs.length := by
      rw [Bytes.length_ofText_of_isAscii hascii, ← String.length_toList, length_eq_of_lower h]
    rw [if_neg (by omega), Bytes.ofText_of_isAscii hascii]
    exact decodePairs_of_lower 0 h

/-- The texts that are read are those of an even number of digits. -/
theorem exists_decode_iff {s : String} :
    (∃ bs, decode s = .ok bs) ↔ s.length % 2 = 0 ∧ ∀ c ∈ s.toList, IsAnyDigit c := by
  simp only [decode_eq_ok_iff, ← String.length_toList]
  constructor
  · rintro ⟨bs, h⟩
    have hlength := length_eq_of_lower h
    exact ⟨by omega, isAnyDigit_of_lower h⟩
  · rintro ⟨heven, hall⟩
    exact exists_digits hall heven

/-- Whether a text is what is written of octets, but for the case of its digits. -/
def Spells (s : String) (bs : Bytes) : Prop := s.map Char.toLower = encode bs

theorem decode_eq_ok_iff_spells {s : String} {bs : Bytes} : decode s = .ok bs ↔ Spells s bs := by
  rw [decode_eq_ok_iff, Spells, ← String.toList_inj, String.toList_map, encode_eq_ofList,
    String.toList_ofList]

theorem Spells.unique {s : String} {bs bs' : Bytes} (h : Spells s bs) (h' : Spells s bs') :
    bs = bs' :=
  Except.ok.inj ((decode_eq_ok_iff_spells.mpr h).symm.trans (decode_eq_ok_iff_spells.mpr h'))

end Hex

end CertRegistry
