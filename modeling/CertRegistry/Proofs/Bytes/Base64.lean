import CertRegistry.Bytes.Base64
import CertRegistry.Proofs.Bytes.Ascii
import CertRegistry.Proofs.Stages

/-!
# Base64 is read back

The signs for octets are read as these octets again, group by group, and no other signs are read
as octets at all.
-/

namespace CertRegistry.Base64

theorem symbolValue?_symbol {n : Nat} (h : n < 64) : symbolValue? (symbol n) = some n := by
  revert n
  decide

theorem symbol_ne_pad {n : Nat} (h : n < 64) : (symbol n != pad) = true := by
  revert n
  decide

theorem symbol_lt {n : Nat} (h : n < 64) : (symbol n).toNat < 0x80 := by
  revert n
  decide

theorem lt_of_mem_encodeOctets {bs : Bytes} {c : UInt8} (h : c ∈ encodeOctets bs) :
    c.toNat < 0x80 := by
  induction bs using encodeOctets.induct with
  | case1 => cases h
  | case2 a =>
    have := a.toNat_lt
    simp only [encodeOctets, List.mem_cons, List.not_mem_nil, or_false] at h
    rcases h with rfl | rfl | rfl | rfl
    · exact symbol_lt (by omega)
    · exact symbol_lt (by omega)
    · decide
    · decide
  | case3 a b =>
    have := a.toNat_lt
    have := b.toNat_lt
    simp only [encodeOctets, List.mem_cons, List.not_mem_nil, or_false] at h
    rcases h with rfl | rfl | rfl | rfl
    · exact symbol_lt (by omega)
    · exact symbol_lt (by omega)
    · exact symbol_lt (by omega)
    · decide
  | case4 a b c rest ih =>
    have := a.toNat_lt
    have := b.toNat_lt
    have := c.toNat_lt
    simp only [encodeOctets, List.mem_cons] at h
    rcases h with rfl | rfl | rfl | rfl | h
    · exact symbol_lt (by omega)
    · exact symbol_lt (by omega)
    · exact symbol_lt (by omega)
    · exact symbol_lt (by omega)
    · exact ih h

theorem length_encodeOctets (bs : Bytes) : (encodeOctets bs).length % 4 = 0 := by
  induction bs using encodeOctets.induct with
  | case1 => rfl
  | case2 a => simp [encodeOctets]
  | case3 a b => simp [encodeOctets]
  | case4 a b c rest ih =>
    simp only [encodeOctets, List.length_cons]
    omega

theorem ofText_encode (bs : Bytes) : Bytes.ofText (encode bs) = encodeOctets bs :=
  Bytes.ofText_ofList_octets fun _ hb => lt_of_mem_encodeOctets hb

theorem symbolValues_map_symbol {values : List Nat} (h : ∀ n ∈ values, n < 64) (offset : Nat) :
    symbolValues offset (values.map symbol) = .ok values := by
  induction values generalizing offset with
  | nil => rfl
  | cons n rest ih =>
    have hrest := ih (fun m hm => h m (List.mem_cons_of_mem _ hm)) (offset + 1)
    simp [symbolValues, symbolValue?_symbol (h n List.mem_cons_self), hrest, Functor.map,
      Except.map]

/-- A group that is padded to four signs is read if its signs leave no bits over. -/
theorem decodeLast_group (values : List Nat) (filling : Nat) (hvalues : ∀ n ∈ values, n < 64)
    (hcount : 2 ≤ values.length) (hlength : values.length + filling = 4)
    (hbits : unusedBits values = 0) (offset : Nat) :
    decodeLast offset (values.map symbol ++ List.replicate filling pad) =
      .ok (groupOctets values) := by
  have hsigns : ∀ c ∈ values.map symbol, (c != pad) = true := by
    intro c hc
    obtain ⟨n, hn, rfl⟩ := List.mem_map.mp hc
    exact symbol_ne_pad (hvalues n hn)
  unfold decodeLast
  rw [List.takeWhile_append_of_pos hsigns, List.dropWhile_append_of_pos hsigns,
    List.takeWhile_replicate, List.dropWhile_replicate]
  simp only [bne_self_eq_false, Bool.false_eq_true, if_false, List.append_nil,
    symbolValues_map_symbol hvalues, bind, Except.bind, List.length_append, List.length_map,
    List.length_replicate, hlength, hbits]
  rw [if_neg, if_neg (by omega)]
  · simp
  · simp
    omega

theorem groupOctets_one (a : UInt8) : groupOctets [a.toNat / 4, a.toNat % 4 * 16] = [a] := by
  rw [groupOctets, show a.toNat / 4 * 4 + a.toNat % 4 * 16 / 16 = a.toNat by omega,
    UInt8.ofNat_toNat]

theorem groupOctets_two (a b : UInt8) :
    groupOctets [a.toNat / 4, a.toNat % 4 * 16 + b.toNat / 16, b.toNat % 16 * 4] = [a, b] := by
  have hb := b.toNat_lt
  rw [groupOctets,
    show a.toNat / 4 * 4 + (a.toNat % 4 * 16 + b.toNat / 16) / 16 = a.toNat by omega,
    show (a.toNat % 4 * 16 + b.toNat / 16) % 16 * 16 + b.toNat % 16 * 4 / 4 = b.toNat by omega,
    UInt8.ofNat_toNat, UInt8.ofNat_toNat]

theorem groupOctets_three (a b c : UInt8) :
    groupOctets [a.toNat / 4, a.toNat % 4 * 16 + b.toNat / 16, b.toNat % 16 * 4 + c.toNat / 64,
      c.toNat % 64] = [a, b, c] := by
  have hb := b.toNat_lt
  have hc := c.toNat_lt
  rw [groupOctets,
    show a.toNat / 4 * 4 + (a.toNat % 4 * 16 + b.toNat / 16) / 16 = a.toNat by omega,
    show (a.toNat % 4 * 16 + b.toNat / 16) % 16 * 16 + (b.toNat % 16 * 4 + c.toNat / 64) / 4 =
      b.toNat by omega,
    show (b.toNat % 16 * 4 + c.toNat / 64) % 4 * 64 + c.toNat % 64 = c.toNat by omega,
    UInt8.ofNat_toNat, UInt8.ofNat_toNat, UInt8.ofNat_toNat]

theorem decodeFrom_encodeOctets (bs : Bytes) (offset : Nat) :
    decodeFrom offset (encodeOctets bs) = .ok bs := by
  induction bs using encodeOctets.induct generalizing offset with
  | case1 =>
    simp only [encodeOctets, decodeFrom]
    rfl
  | case2 a =>
    have ha := a.toNat_lt
    have hgroup := decodeLast_group [a.toNat / 4, a.toNat % 4 * 16] 2 (by simp; omega) (by simp)
      rfl (by simp [unusedBits]) offset
    rw [groupOctets_one] at hgroup
    simp only [encodeOctets, decodeFrom]
    exact hgroup
  | case3 a b =>
    have ha := a.toNat_lt
    have hb := b.toNat_lt
    have hgroup := decodeLast_group
      [a.toNat / 4, a.toNat % 4 * 16 + b.toNat / 16, b.toNat % 16 * 4] 1 (by simp; omega) (by simp)
      rfl (by simp [unusedBits]) offset
    rw [groupOctets_two] at hgroup
    simp only [encodeOctets, decodeFrom]
    exact hgroup
  | case4 a b c rest ih =>
    have ha := a.toNat_lt
    have hb := b.toNat_lt
    have hc := c.toNat_lt
    have hvalues : ∀ n ∈ [a.toNat / 4, a.toNat % 4 * 16 + b.toNat / 16,
        b.toNat % 16 * 4 + c.toNat / 64, c.toNat % 64], n < 64 := by
      simp
      omega
    have htail := ih (offset + 4)
    simp only [encodeOctets]
    cases hrest : encodeOctets rest with
    | nil =>
      -- The last group may be a full one.
      rw [hrest] at htail
      have hnil : rest = [] := by
        simp only [decodeFrom] at htail
        exact (Except.ok.inj htail).symm
      have hgroup := decodeLast_group _ 0 hvalues (by simp) rfl rfl offset
      rw [groupOctets_three] at hgroup
      rw [hnil]
      simp only [decodeFrom]
      exact hgroup
    | cons e tail =>
      rw [hrest] at htail
      have hsigns := symbolValues_map_symbol hvalues offset
      simp only [List.map_cons, List.map_nil] at hsigns
      simp only [decodeFrom, hsigns, htail, bind, Except.bind, groupOctets_three]
      rfl

theorem decode_encode (bs : Bytes) : decode (encode bs) = .ok bs := by
  have hlength := length_encodeOctets bs
  have hread := decodeFrom_encodeOctets bs 0
  unfold decode
  simp only [ofText_encode]
  split
  · rw [if_neg (by omega)]
    exact hread
  · next h =>
    rw [List.getLast?_eq_none_iff.mp h] at hread
    simp only [decodeFrom] at hread
    exact hread

/-! ## Nothing else is read -/

theorem symbol_of_symbolValue? {c : UInt8} {n : Nat} (h : symbolValue? c = some n) :
    symbol n = c ∧ n < 64 := by
  have hall : ∀ k < 256, ∀ n ∈ symbolValue? (UInt8.ofNat k),
      symbol n = UInt8.ofNat k ∧ n < 64 := by
    decide +kernel
  have hc := hall c.toNat c.toNat_lt n
  rw [UInt8.ofNat_toNat] at hc
  exact hc h

theorem symbolValues_eq_ok {offset : Nat} {signs : Bytes} {values : List Nat}
    (h : symbolValues offset signs = .ok values) :
    signs = values.map symbol ∧ ∀ n ∈ values, n < 64 := by
  induction signs generalizing offset values with
  | nil =>
    cases h
    exact ⟨rfl, List.forall_mem_nil _⟩
  | cons c rest ih =>
    unfold symbolValues at h
    split at h
    · cases h
    · next n hn =>
      obtain ⟨others, hothers, rfl⟩ := map_eq_ok.mp h
      obtain ⟨hc, hlt⟩ := symbol_of_symbolValue? hn
      obtain ⟨hrest, hall⟩ := ih hothers
      exact ⟨by rw [hrest, List.map_cons, hc], List.forall_mem_cons.mpr ⟨hlt, hall⟩⟩

theorem toNat_ofNat_octet {n : Nat} (h : n < 256) : (UInt8.ofNat n).toNat = n := by
  rw [UInt8.toNat_ofNat']
  exact Nat.mod_eq_of_lt h

/-- A full group spells three octets. -/
theorem encodeOctets_groupOctets {a b c d : Nat} (ha : a < 64) (hb : b < 64) (hc : c < 64)
    (hd : d < 64) (tail : Bytes) :
    encodeOctets (groupOctets [a, b, c, d] ++ tail) =
      [a, b, c, d].map symbol ++ encodeOctets tail := by
  simp only [groupOctets, List.cons_append, List.nil_append, encodeOctets, List.map_cons,
    List.map_nil, toNat_ofNat_octet (show a * 4 + b / 16 < 256 by omega),
    toNat_ofNat_octet (show b % 16 * 16 + c / 4 < 256 by omega),
    toNat_ofNat_octet (show c % 4 * 64 + d < 256 by omega)]
  rw [show (a * 4 + b / 16) / 4 = a by omega,
    show (a * 4 + b / 16) % 4 * 16 + (b % 16 * 16 + c / 4) / 16 = b by omega,
    show (b % 16 * 16 + c / 4) % 16 * 4 + (c % 4 * 64 + d) / 64 = c by omega,
    show (c % 4 * 64 + d) % 64 = d by omega]

/-- A padded group spells two octets or one, if it leaves no bits over. -/
theorem encodeOctets_padded {values : List Nat} (hvalues : ∀ n ∈ values, n < 64)
    (hcount : 2 ≤ values.length ∧ values.length ≤ 3) (hbits : unusedBits values = 0) :
    encodeOctets (groupOctets values) =
      values.map symbol ++ List.replicate (4 - values.length) pad := by
  match values, hcount with
  | [a, b], _ =>
    simp only [List.forall_mem_cons] at hvalues
    simp only [unusedBits] at hbits
    simp only [groupOctets, encodeOctets, toNat_ofNat_octet (show a * 4 + b / 16 < 256 by omega)]
    rw [show (a * 4 + b / 16) / 4 = a by omega, show (a * 4 + b / 16) % 4 * 16 = b by omega]
    rfl
  | [a, b, c], _ =>
    simp only [List.forall_mem_cons] at hvalues
    simp only [unusedBits] at hbits
    simp only [groupOctets, encodeOctets, toNat_ofNat_octet (show a * 4 + b / 16 < 256 by omega),
      toNat_ofNat_octet (show b % 16 * 16 + c / 4 < 256 by omega)]
    rw [show (a * 4 + b / 16) / 4 = a by omega,
      show (a * 4 + b / 16) % 4 * 16 + (b % 16 * 16 + c / 4) / 16 = b by omega,
      show (b % 16 * 16 + c / 4) % 16 * 4 = c by omega]
    rfl

theorem decodeLast_eq_ok {offset : Nat} {group octets : Bytes} (hlength : group.length ≤ 4)
    (h : decodeLast offset group = .ok octets) : group = encodeOctets octets := by
  obtain ⟨values, hread, h⟩ := bind_eq_ok.mp h
  obtain ⟨hsigns, hvalues⟩ := symbolValues_eq_ok hread
  have hgroup : group = values.map symbol ++ group.dropWhile (· != pad) := by
    rw [← hsigns, List.takeWhile_append_dropWhile]
  generalize group.dropWhile (· != pad) = filling at h hgroup
  have hcounted : group.length = values.length + filling.length := by
    rw [hgroup, List.length_append, List.length_map]
  simp only at h
  split at h
  · cases h
  next hfilling =>
  split at h
  · cases h
  next hcount =>
  split at h
  · cases h
  next hwhole =>
  split at h
  · cases h
  next hbits =>
  cases h
  rw [ne_eq, Decidable.not_not] at hwhole hbits
  cases filling with
  | nil =>
    rw [List.append_nil] at hgroup
    rw [List.length_nil] at hcounted
    match values with
    | [] => exact hgroup
    | [a, b, c, d] =>
      simp only [List.forall_mem_cons] at hvalues
      obtain ⟨ha, hb, hc, hd, -⟩ := hvalues
      have hfull := encodeOctets_groupOctets ha hb hc hd []
      rw [List.append_nil, encodeOctets, List.append_nil] at hfull
      rw [hgroup, hfull]
    | [_] | [_, _] | [_, _, _] | _ :: _ :: _ :: _ :: _ :: _ =>
      simp only [List.length_cons, List.length_nil] at hcounted
      omega
  | cons c more =>
    have htwo : ¬ values.length < 2 := fun hlt => hfilling ⟨by simp, Or.inl hlt⟩
    have hpads : ¬ (c :: more).any (· != pad) = true :=
      fun hany => hfilling ⟨by simp, Or.inr hany⟩
    rw [List.length_cons] at hcounted
    have hfill : c :: more = List.replicate (4 - values.length) pad := by
      rw [List.eq_replicate_iff]
      refine ⟨by rw [List.length_cons]; omega, fun x hx => ?_⟩
      simpa using fun hne => hpads (List.any_eq_true.mpr ⟨x, hx, bne_iff_ne.mpr hne⟩)
    rw [hgroup, hfill, encodeOctets_padded hvalues (by omega) hbits]

theorem decodeFrom_eq_ok {offset : Nat} {signs octets : Bytes}
    (h : decodeFrom offset signs = .ok octets) : signs = encodeOctets octets := by
  induction offset, signs using decodeFrom.induct generalizing octets with
  | case1 offset a b c d e rest ih =>
    rw [decodeFrom] at h
    obtain ⟨values, hread, h⟩ := bind_eq_ok.mp h
    obtain ⟨tail, htail, h⟩ := bind_eq_ok.mp h
    cases h
    obtain ⟨hsigns, hvalues⟩ := symbolValues_eq_ok hread
    match values, hsigns with
    | [v, w, x, y], hsigns =>
      simp only [List.forall_mem_cons] at hvalues
      obtain ⟨hv, hw, hx, hy, -⟩ := hvalues
      rw [encodeOctets_groupOctets hv hw hx hy, ← hsigns, ← ih htail]
      rfl
  | case2 offset group hshort =>
    have hlength : group.length ≤ 4 := by
      match group, hshort with
      | [], _ | [_], _ | [_, _], _ | [_, _, _], _ | [_, _, _, _], _ => simp
      | a :: b :: c :: d :: e :: rest, hshort => exact (hshort a b c d e rest rfl).elim
    rw [decodeFrom.eq_2 offset group hshort] at h
    exact decodeLast_eq_ok hlength h

theorem decode_eq_ok_iff {s : String} {octets : Bytes} :
    decode s = .ok octets ↔ s = encode octets := by
  constructor
  · intro h
    apply Bytes.ofText_injective
    rw [ofText_encode]
    unfold decode at h
    simp only at h
    split at h
    · split at h
      · cases h
      · exact decodeFrom_eq_ok h
    · next hnone =>
      cases h
      exact List.getLast?_eq_none_iff.mp hnone
  · rintro rfl
    exact decode_encode octets

end CertRegistry.Base64
