import CertRegistry.Proofs.Wire.Codecs

/-!
# How many octets records take

What lies in memory has fewer octets than half of the addresses of 64 bits. A written value takes
few octets more than it has, and what is read has no more than the octets that it was read from.
-/

namespace CertRegistry

/-- Whether octets can lie in memory, where nothing takes up half of the addresses. -/
def Bytes.Storable (bs : Bytes) : Prop := bs.length < 0x8000000000000000

instance (bs : Bytes) : Decidable bs.Storable := inferInstanceAs (Decidable (_ < _))

namespace Wire

theorem length_putVarint_le_of_lt (room : Nat) {n : Nat} (h : n < 128 * Nat.pow 128 room) :
    (putVarint n).length ≤ room + 1 := by
  induction room generalizing n with
  | zero =>
    have hsmall : n < 128 := h
    rw [putVarint, if_pos hsmall]
    simp
  | succ room ih =>
    have hpow : Nat.pow 128 (room + 1) = 128 * Nat.pow 128 room := Nat.mul_comm _ _
    rw [putVarint]
    split
    · simp
    · have hrest := ih (n := n / 128) (by omega)
      simp only [List.length_cons]
      omega

/-- Numbers of 64 bits take ten octets at most. -/
theorem length_putVarint_le {n : Nat} (h : n < UInt64.size) : (putVarint n).length ≤ 10 :=
  length_putVarint_le_of_lt 9 (Nat.lt_of_lt_of_le h (by decide))

theorem length_put_key_le (key : Key) (h : 8 * key.tag + 7 < UInt32.size) :
    key.put.length ≤ 10 := by
  have htype : key.type.toNat < 8 := by cases key.type <;> decide
  have h32 : UInt32.size ≤ UInt64.size := by decide
  exact length_putVarint_le (by omega)

/-! ## What is written -/

namespace Codec

theorem length_put_octets_le {v : Bytes} (h : v.length < UInt64.size) :
    (octets.put v).length ≤ 10 + v.length := by
  have := length_putVarint_le h
  simp only [octets, List.length_append]
  omega

theorem length_put_text_le {v : String} (h : (Bytes.ofText v).length < UInt64.size) :
    (text.put v).length ≤ 10 + (Bytes.ofText v).length :=
  length_put_octets_le h

theorem length_put_text_le_of_le {v : String} {bound : Nat}
    (h : (Bytes.ofText v).length ≤ bound) (hbound : bound < UInt64.size) :
    (text.put v).length ≤ 10 + bound := by
  have := length_put_text_le (v := v) (by omega)
  omega

theorem length_put_text_lt {v : String} {bound : Nat} (h : (Bytes.ofText v).length ≤ bound)
    (hbound : 10 + bound < UInt64.size) : (text.put v).length < UInt64.size := by
  have := length_put_text_le_of_le h (by omega)
  omega

end Codec

theorem Schema.length_put_codec_le {M : Type} {S : Schema M} {m : M}
    (h : (S.encode m).length < UInt64.size) :
    (S.codec.put m).length ≤ 10 + (S.encode m).length :=
  Codec.length_put_octets_le h

theorem Field.length_put_single_le {M α : Type} [DecidableEq α] {tag : Nat} {name : String}
    {codec : Codec α} {get : M → α} {set : M → α → M} {m : M} {bound : Nat}
    (htag : TagInRange tag) (hvalue : (codec.put (get m)).length ≤ bound) :
    ((Field.single tag name codec get set).put m).length ≤ 10 + bound := by
  have hkey := length_put_key_le { tag, type := codec.type } htag.2
  simp only [Field.put, Field.single, Slot.single]
  split
  · simp
  · simp only [List.flatMap_cons, List.flatMap_nil, List.append_nil, Field.putValue,
      List.length_append]
    omega

theorem Field.length_put_repeated_le {M α : Type} {tag : Nat} {name : String} {codec : Codec α}
    {get : M → List α} {set : M → List α → M} {m : M} {bound : Nat} (htag : TagInRange tag)
    (hvalues : ∀ v ∈ get m, (codec.put v).length ≤ bound) :
    ((Field.repeated tag name codec get set).put m).length ≤ (get m).length * (10 + bound) := by
  have hkey := length_put_key_le { tag, type := codec.type } htag.2
  simp only [Field.put, Field.repeated, Slot.repeated]
  generalize get m = vs at hvalues
  induction vs with
  | nil => simp
  | cons v vs ih =>
    have hfirst := hvalues v (by simp)
    have hrest := ih fun w hw => hvalues w (by simp [hw])
    simp only [List.flatMap_cons, List.length_append, Field.putValue, List.length_cons,
      Nat.add_mul]
    omega

/-! ## What is read -/

/-- Reading a value adds no more weight than it takes octets. -/
def Codec.Bounded {α : Type} (c : Codec α) (weight : α → Nat) : Prop :=
  ∀ depth start bs v rest, c.update depth start bs = .ok (v, rest) →
    weight v + rest.length ≤ weight start + bs.length

namespace Codec

theorem Shrinks.bounded_zero {α : Type} {c : Codec α} (h : c.Shrinks) : c.Bounded fun _ => 0 := by
  intro depth start bs v rest hread
  simpa using h depth start bs v rest hread

theorem bounded_octets : octets.Bounded List.length := by
  intro depth start bs v rest h
  have := length_takeDelimited h
  omega

theorem bounded_text : text.Bounded fun s => (Bytes.ofText s).length := by
  intro depth start bs v rest h
  obtain ⟨⟨octets, tail⟩, hread, h⟩ := bind_eq_ok.mp h
  have hless := length_takeDelimited hread
  simp only at h
  split at h
  · next s hs =>
    cases h
    simp only [Bytes.ofText_of_text? hs]
    omega
  · cases h

end Codec

/-- A value that is read into the field adds to the weight of the record what it weighs itself. -/
def Field.Bounded {M : Type} (f : Field M) (weight : M → Nat) : Prop :=
  ∃ w : f.α → Nat, f.codec.Bounded w ∧ ∀ m v,
    weight (f.set m (f.slot.store (f.get m) v)) +
        w ((f.slot.current (f.get m)).getD f.codec.blank) ≤ weight m + w v

namespace Schema

variable {M : Type} {S : Schema M} {level : Nat} {weight : M → Nat}

def Bounded (S : Schema M) (weight : M → Nat) : Prop := ∀ f ∈ S.fields, f.Bounded weight

theorem weight_readField (hweight : S.Bounded weight) {depth : Nat} {m m' : M} {bs rest : Bytes}
    (h : S.readField depth m bs = .ok (m', rest)) :
    weight m' + rest.length ≤ weight m + bs.length := by
  obtain ⟨⟨key, tail⟩, hkey, h⟩ := bind_eq_ok.mp h
  have hless := length_takeKey hkey
  simp only at h
  split at h
  · next f hf =>
    obtain ⟨w, hw, hset⟩ := hweight f (List.mem_of_find?_eq_some hf)
    have h := mapError_eq_ok.mp h
    unfold Field.update at h
    split at h
    · cases h
    · obtain ⟨⟨v, tail'⟩, hread, h⟩ := bind_eq_ok.mp h
      cases h
      have := hw _ _ _ _ _ hread
      have := hset m v
      omega
  · obtain ⟨tail', hskip, h⟩ := bind_eq_ok.mp h
    cases h
    have := length_skipValue hskip
    omega

theorem weight_readFields (hS : S.Lawful level) (hweight : S.Bounded weight) {depth stop : Nat}
    {m m' : M} {bs rest : Bytes} (h : S.readFields depth stop m bs = .ok (m', rest)) :
    weight m' + rest.length ≤ weight m + bs.length :=
  ((readUntil_eq_ok (consumes_readField hS) (by omega)).mp h).1.preserves
    (P := fun m' bs' => weight m' + bs'.length ≤ weight m + bs.length)
    (fun _ _ _ _ hstep hle => Nat.le_trans (weight_readField hweight hstep) hle) (Nat.le_refl _)

theorem bounded_codec (hS : S.Lawful level) (hweight : S.Bounded weight) :
    S.codec.Bounded weight := by
  intro depth start bs v rest h
  cases depth with
  | zero => cases h
  | succ depth =>
    obtain ⟨⟨n, body⟩, hlength, h⟩ := bind_eq_ok.mp h
    have hless := length_takeVarint hlength
    simp only at h
    split at h
    · cases h
    · have := weight_readFields hS hweight h
      omega

/-- A record that was read weighs no more than the octets that spell it. -/
theorem weight_of_decode (hS : S.Lawful level) (hweight : S.Bounded weight)
    (hblank : weight S.blank = 0) {bs : Bytes} {m : M} (h : S.decode bs = .ok m) :
    weight m ≤ bs.length := by
  obtain ⟨⟨m', rest⟩, hread, rfl⟩ := map_eq_ok.mp h
  have := weight_readFields hS hweight hread
  simp only
  omega

end Schema

end Wire

end CertRegistry
