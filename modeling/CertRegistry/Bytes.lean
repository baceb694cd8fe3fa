/-!
# Octets

Byte strings as lists of octets, the UTF-8 texts among them, and the whole numbers they spell
with the most significant octet first.
-/

namespace CertRegistry

/-- A string of octets. -/
abbrev Bytes := List UInt8

namespace Bytes

/-- The UTF-8 octets of a text. -/
def ofText (s : String) : Bytes := s.toByteArray.data.toList

/-- The text whose UTF-8 octets these are, if there is one. -/
def text? (bs : Bytes) : Option String := String.fromUTF8? ⟨bs.toArray⟩

@[simp]
theorem text?_ofText (s : String) : text? (ofText s) = some s := by
  have h : (ByteArray.mk (ofText s).toArray) = s.toByteArray := by simp [ofText]
  simp [text?, String.fromUTF8?, h, s.isValidUTF8, String.fromUTF8]

theorem ofText_of_text? {bs : Bytes} {s : String} (h : text? bs = some s) : ofText s = bs := by
  unfold text? String.fromUTF8? at h
  split at h
  · cases h
    simp [ofText, String.fromUTF8]
  · cases h

theorem ofText_injective {s t : String} (h : ofText s = ofText t) : s = t := by
  have := congrArg text? h
  simpa using this

@[simp]
theorem ofText_append (s t : String) : ofText (s ++ t) = ofText s ++ ofText t := by
  simp [ofText]

theorem ofText_ofList (cs : List Char) :
    ofText (String.ofList cs) = cs.flatMap String.utf8EncodeChar := by
  simp [ofText, List.utf8Encode]

@[simp]
theorem ofText_empty : ofText "" = [] := rfl

@[simp]
theorem ofText_eq_nil {s : String} : ofText s = [] ↔ s = "" :=
  ⟨fun h => ofText_injective (h.trans ofText_empty.symm), fun h => h ▸ ofText_empty⟩

/-- The number that the octets spell, most significant first. -/
def toNat (bs : Bytes) : Nat := bs.foldl (fun n b => 256 * n + b.toNat) 0

/-- The lowest `width` octets of a number, most significant first. -/
def ofNat : Nat → Nat → Bytes
  | 0, _ => []
  | width + 1, n => ofNat width (n / 256) ++ [UInt8.ofNat n]

@[simp]
theorem length_ofNat (width n : Nat) : (ofNat width n).length = width := by
  induction width generalizing n with
  | zero => rfl
  | succ w ih => simp [ofNat, ih]

theorem toNat_append_singleton (bs : Bytes) (b : UInt8) :
    toNat (bs ++ [b]) = 256 * toNat bs + b.toNat := by
  simp [toNat]

theorem toNat_ofNat (width n : Nat) : toNat (ofNat width n) = n % Nat.pow 256 width := by
  induction width generalizing n with
  | zero => simp [ofNat, toNat, Nat.mod_one]
  | succ w ih =>
    have hp : Nat.pow 256 (w + 1) = 256 * Nat.pow 256 w := Nat.mul_comm _ _
    rw [ofNat, toNat_append_singleton, ih, UInt8.toNat_ofNat', hp, Nat.mod_mul]
    omega

end Bytes

end CertRegistry
