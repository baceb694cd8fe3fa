import CertRegistry.Proofs.Stages
import CertRegistry.Wire.Varint

/-!
# Reading what was written: numbers, keys and octets with a length

A number below `2 ^ 64` is read back in front of any octets, and so are a key whose tag is in range
and octets that a number can count. A reader that succeeds leaves fewer octets than there were.
-/

namespace CertRegistry.Wire

/-- With `before` octets read there is room for `64 - 7 * before` bits. -/
theorem varintAfter?_putVarint (room : Nat) {before n : Nat} (rest : Bytes)
    (hroom : before + room = 9) (hn : n < 2 * Nat.pow 128 room) :
    varintAfter? before (putVarint n ++ rest) = some (n, rest) := by
  induction room generalizing before n with
  | zero =>
    have hsmall : n < 2 := hn
    rw [putVarint, if_pos (by omega)]
    have hval : (UInt8.ofNat n).toNat = n := by simp; omega
    simp only [List.singleton_append, varintAfter?, hval]
    rw [if_pos (by omega), if_neg (by omega)]
  | succ room ih =>
    have hpow : Nat.pow 128 (room + 1) = 128 * Nat.pow 128 room := Nat.mul_comm _ _
    by_cases hsmall : n < 128
    · rw [putVarint, if_pos hsmall]
      have hval : (UInt8.ofNat n).toNat = n := by simp; omega
      simp only [List.singleton_append, varintAfter?, hval]
      rw [if_pos hsmall, if_neg (by omega)]
    · have hhigh : n / 128 < 2 * Nat.pow 128 room := by omega
      have hrest : varintAfter? (before + 1) (putVarint (n / 128) ++ rest) = some (n / 128, rest) :=
        ih (by omega) hhigh
      have hval : (UInt8.ofNat (n % 128 + 128)).toNat = n % 128 + 128 := by simp; omega
      rw [putVarint, if_neg hsmall, List.cons_append, varintAfter?]
      simp only [hval, hrest]
      rw [if_neg (by omega), if_neg (by omega)]
      simp only [Option.some.injEq, Prod.mk.injEq, and_true]
      omega

theorem takeVarint_putVarint {n : Nat} (rest : Bytes) (h : n < UInt64.size) :
    takeVarint (putVarint n ++ rest) = .ok (n, rest) := by
  simp [takeVarint, varintAfter?_putVarint 9 rest (Nat.zero_add 9) h]

theorem takeKey_put {key : Key} (rest : Bytes) (hpos : 0 < key.tag)
    (htag : 8 * key.tag + 7 < UInt32.size) : takeKey (key.put ++ rest) = .ok (key, rest) := by
  have htype : key.type.toNat < 8 := by cases key.type <;> decide
  have h32 : UInt32.size ≤ UInt64.size := by decide
  have hmod : (8 * key.tag + key.type.toNat) % 8 = key.type.toNat := by omega
  have hdiv : (8 * key.tag + key.type.toNat) / 8 = key.tag := by omega
  have hread := takeVarint_putVarint (n := 8 * key.tag + key.type.toNat) rest (by omega)
  simp only [takeKey, Key.put, hread, bind, Except.bind]
  rw [if_neg (by omega), hmod, hdiv, WireType.ofNat?_toNat]
  simp only [if_neg (show ¬ key.tag = 0 by omega), pure, Except.pure]

theorem takeDelimited_put {v : Bytes} (rest : Bytes) (h : v.length < UInt64.size) :
    takeDelimited (putVarint v.length ++ v ++ rest) = .ok (v, rest) := by
  rw [List.append_assoc]
  simp only [takeDelimited, takeVarint_putVarint _ h, bind, Except.bind]
  rw [if_neg (by simp), List.take_left, List.drop_left]
  rfl

/-! ## Readers use octets up -/

theorem length_varintAfter? {before n : Nat} {bs rest : Bytes}
    (h : varintAfter? before bs = some (n, rest)) : rest.length < bs.length := by
  induction bs generalizing before n with
  | nil => cases h
  | cons b bs ih =>
    simp only [varintAfter?] at h
    split at h
    · split at h
      · cases h
      · cases h
        simp
    · split at h
      · cases h
      · split at h
        · next high tail heq =>
          cases h
          have := ih heq
          simp only [List.length_cons]
          omega
        · cases h

theorem takeVarint_eq_ok {bs rest : Bytes} {n : Nat} :
    takeVarint bs = .ok (n, rest) ↔ varintAfter? 0 bs = some (n, rest) := by
  unfold takeVarint
  split
  · next heq => simp [heq]
  · next heq => simp [heq, fail]

theorem length_takeVarint {bs rest : Bytes} {n : Nat} (h : takeVarint bs = .ok (n, rest)) :
    rest.length < bs.length :=
  length_varintAfter? (takeVarint_eq_ok.mp h)

theorem length_takeKey {bs rest : Bytes} {key : Key} (h : takeKey bs = .ok (key, rest)) :
    rest.length < bs.length := by
  obtain ⟨⟨n, rest'⟩, hread, h⟩ := bind_eq_ok.mp h
  have hless := length_takeVarint hread
  simp only at h
  split at h
  · cases h
  · split at h
    · cases h
    · split at h
      · cases h
      · cases h
        exact hless

/-- Octets with a length are there in full. -/
theorem length_takeDelimited {bs v rest : Bytes} (h : takeDelimited bs = .ok (v, rest)) :
    v.length + rest.length < bs.length := by
  obtain ⟨⟨n, rest'⟩, hread, h⟩ := bind_eq_ok.mp h
  have hless := length_takeVarint hread
  simp only at h
  split at h
  · cases h
  · cases h
    simp only [List.length_take, List.length_drop]
    omega

theorem length_skipOctets {count : Nat} {bs rest : Bytes} (h : skipOctets count bs = .ok rest) :
    rest.length ≤ bs.length := by
  unfold skipOctets at h
  split at h
  · cases h
  · cases h
    simp

theorem length_skipGroup {skip : WireType → Nat → Bytes → Except Fault Bytes} {tag count : Nat}
    {bs rest : Bytes}
    (hskip : ∀ {type tag bs rest}, skip type tag bs = .ok rest → rest.length ≤ bs.length)
    (h : skipGroup skip tag count bs = .ok rest) : rest.length ≤ bs.length := by
  induction count generalizing bs with
  | zero => cases h
  | succ count ih =>
    obtain ⟨⟨key, rest'⟩, hkey, h⟩ := bind_eq_ok.mp h
    have hless := length_takeKey hkey
    simp only at h
    split at h
    · split at h
      · cases h
        omega
      · cases h
    · obtain ⟨tail, hvalue, h⟩ := bind_eq_ok.mp h
      have := hskip hvalue
      have := ih h
      omega

theorem length_skipValue {depth tag : Nat} {type : WireType} {bs rest : Bytes}
    (h : skipValue depth type tag bs = .ok rest) : rest.length ≤ bs.length := by
  induction depth generalizing type tag bs rest with
  | zero => cases h
  | succ depth ih =>
    cases type with
    | varint =>
      obtain ⟨⟨n, tail⟩, hread, rfl⟩ := map_eq_ok.mp h
      exact Nat.le_of_lt (length_takeVarint hread)
    | fixed64 => exact length_skipOctets h
    | fixed32 => exact length_skipOctets h
    | delimited =>
      obtain ⟨⟨v, tail⟩, hread, rfl⟩ := map_eq_ok.mp h
      have hless := length_takeDelimited hread
      simp only
      omega
    | startGroup => exact length_skipGroup ih h
    | endGroup => cases h

end CertRegistry.Wire
