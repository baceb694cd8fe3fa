import CertRegistry.Proofs.Wire.Schema

/-!
# The codecs and the kinds of fields

Each codec of a single value reads back what it wrote, and a field of each kind is lawful when its
codec and its place in the record are.
-/

namespace CertRegistry.Wire

namespace Codec

theorem shrinks_uint64 : uint64.Shrinks := by
  intro depth start bs v rest h
  obtain ⟨⟨n, tail⟩, hread, h⟩ := bind_eq_ok.mp h
  cases h
  exact Nat.le_of_lt (length_takeVarint hread)

theorem roundTrips_uint64 : uint64.RoundTrips 0 := by
  intro depth v rest _ _
  have hread := takeVarint_putVarint rest v.toNat_lt
  simp only [uint64, hread, bind, Except.bind, pure, Except.pure, UInt64.ofNat_toNat]

theorem shrinks_int32 : int32.Shrinks := by
  intro depth start bs v rest h
  obtain ⟨⟨n, tail⟩, hread, h⟩ := bind_eq_ok.mp h
  cases h
  exact Nat.le_of_lt (length_takeVarint hread)

/-- Sign extension to 64 bits leaves the lowest 32 bits as they are. -/
theorem ofNat_signExtended (v : Int32) :
    Int32.ofNat (v.toInt % (UInt64.size : Int)).toNat = v := by
  have hnonneg : 0 ≤ v.toInt % (UInt64.size : Int) := Int.emod_nonneg _ (by decide)
  rw [← Int32.ofInt_eq_ofNat, Int.toNat_of_nonneg hnonneg]
  apply Int32.toInt_inj.mp
  rw [Int32.toInt_ofInt]
  have hlow := v.le_toInt
  have hhigh := v.toInt_lt
  simp only [Int32.size, UInt64.size] at *
  rw [Int.bmod_def]
  omega

theorem roundTrips_int32 : int32.RoundTrips 0 := by
  intro depth v rest _ _
  have hlt : (v.toInt % (UInt64.size : Int)).toNat < UInt64.size := by
    have hnonneg : 0 ≤ v.toInt % (UInt64.size : Int) := Int.emod_nonneg _ (by decide)
    have hless : v.toInt % (UInt64.size : Int) < UInt64.size := Int.emod_lt_of_pos _ (by decide)
    omega
  have hread := takeVarint_putVarint rest hlt
  simp only [int32, hread, bind, Except.bind, pure, Except.pure, ofNat_signExtended]

theorem shrinks_bool : bool.Shrinks := by
  intro depth start bs v rest h
  obtain ⟨⟨n, tail⟩, hread, h⟩ := bind_eq_ok.mp h
  cases h
  exact Nat.le_of_lt (length_takeVarint hread)

theorem roundTrips_bool : bool.RoundTrips 0 := by
  intro depth v rest _ _
  have hread := takeVarint_putVarint (n := v.toNat) rest (by cases v <;> decide)
  simp only [bool, hread, bind, Except.bind, pure, Except.pure]
  cases v <;> rfl

theorem shrinks_octets : octets.Shrinks := by
  intro depth start bs v rest h
  have := length_takeDelimited h
  omega

theorem roundTrips_octets : octets.RoundTrips 0 := by
  intro depth v rest _ hlen
  have hv : v.length < UInt64.size := by
    simp only [octets, List.length_append] at hlen
    omega
  exact takeDelimited_put rest hv

theorem shrinks_text : text.Shrinks := by
  intro depth start bs v rest h
  obtain ⟨⟨octets, tail⟩, hread, h⟩ := bind_eq_ok.mp h
  have hless := length_takeDelimited hread
  simp only at h
  split at h
  · cases h
    omega
  · cases h

theorem roundTrips_text : text.RoundTrips 0 := by
  intro depth v rest _ hlen
  have hv : (Bytes.ofText v).length < UInt64.size := by
    simp only [text, octets, List.length_append] at hlen
    omega
  simp only [text, octets, takeDelimited_put rest hv, bind, Except.bind, Bytes.text?_ofText, pure,
    Except.pure]

end Codec

namespace Field

variable {M α : Type} {tag : Nat} {name : String} {codec : Codec α} {level : Nat}

/-- Whether a tag can stand in a key of 32 bits. -/
def TagInRange (tag : Nat) : Prop := 0 < tag ∧ 8 * tag + 7 < UInt32.size

instance (tag : Nat) : Decidable (TagInRange tag) := inferInstanceAs (Decidable (_ ∧ _))

/-- Whether a part of a record can be set and read back, apart from all other parts. -/
structure Access {M β : Type} (get : M → β) (set : M → β → M) : Prop where
  get_set : ∀ m v, get (set m v) = v
  set_set : ∀ m v w, set (set m v) w = set m w
  set_get : ∀ m, set m (get m) = m

theorem fills_single [DecidableEq α] (blank v : α) :
    (Slot.single blank).Fills blank blank ((Slot.single blank).values v) v := by
  simp only [Slot.single]
  split
  · next hblank => exact hblank.symm
  · exact ⟨rfl, rfl⟩

theorem lawful_single [DecidableEq α] {get : M → α} {set : M → α → M} (htag : TagInRange tag)
    (haccess : Access get set) (hshrinks : codec.Shrinks) (hread : codec.RoundTrips level) :
    (single tag name codec get set).Lawful level where
  tag_pos := htag.1
  tag_lt := htag.2
  get_set := haccess.get_set
  set_set := haccess.set_set
  set_get := haccess.set_get
  shrinks := hshrinks
  roundTrips := hread
  fills b := fills_single codec.blank b

theorem lawful_optional {get : M → Option α} {set : M → Option α → M} (htag : TagInRange tag)
    (haccess : Access get set) (hshrinks : codec.Shrinks) (hread : codec.RoundTrips level) :
    (optional tag name codec get set).Lawful level where
  tag_pos := htag.1
  tag_lt := htag.2
  get_set := haccess.get_set
  set_set := haccess.set_set
  set_get := haccess.set_get
  shrinks := hshrinks
  roundTrips := hread
  fills b := by
    cases b with
    | none => rfl
    | some v => exact ⟨rfl, rfl⟩

theorem fills_repeated (blank : α) (before vs : List α) :
    Slot.repeated.Fills blank before vs (before ++ vs) := by
  induction vs generalizing before with
  | nil => exact (List.append_nil before).symm
  | cons v vs ih =>
    have htail := ih (before ++ [v])
    rw [List.append_assoc] at htail
    exact ⟨rfl, htail⟩

theorem lawful_repeated {get : M → List α} {set : M → List α → M} (htag : TagInRange tag)
    (haccess : Access get set) (hshrinks : codec.Shrinks) (hread : codec.RoundTrips level) :
    (repeated tag name codec get set).Lawful level where
  tag_pos := htag.1
  tag_lt := htag.2
  get_set := haccess.get_set
  set_set := haccess.set_set
  set_get := haccess.set_get
  shrinks := hshrinks
  roundTrips := hread
  fills b := fills_repeated codec.blank [] b

theorem fits_single [DecidableEq α] {get : M → α} {set : M → α → M} {m : M}
    (h : (codec.put (get m)).length < UInt64.size) : (single tag name codec get set).Fits m := by
  intro (v : α) (hv : v ∈ if get m = codec.blank then [] else [get m])
  split at hv
  · cases hv
  · rw [List.mem_singleton.mp hv]
    exact h

theorem fits_repeated {get : M → List α} {set : M → List α → M} {m : M}
    (h : ∀ v ∈ get m, (codec.put v).length < UInt64.size) :
    (repeated tag name codec get set).Fits m :=
  fun v hv => h v hv

end Field

end CertRegistry.Wire
