import CertRegistry.Command.Run
import CertRegistry.Proofs.Bytes.HexReading
import CertRegistry.Proofs.Text.Blank

/-!
# Texts of private keys

A private key is written with 64 digits. Which texts are read as a key, and as which one, is told
here by what stands between the blanks of the text and behind its mark.
-/

namespace CertRegistry

open Curve

theorem Curve.Nonce.ofBytes?_eq_some_iff {bs : Bytes} {k : Scalar} :
    ofBytes? bs = some k ↔ Bytes.toNat bs = k.val ∧ k ≠ 0 := by
  have hzero : k ≠ 0 ↔ k.val ≠ 0 := not_congr Fin.ext_iff
  rw [hzero]
  unfold ofBytes?
  simp only
  split
  · split
    · next hnone =>
      constructor
      · intro h
        cases h
      · rintro ⟨hvalue, hne⟩
        exact absurd (hvalue.symm.trans hnone) hne
    · next hne =>
      rw [Option.some.injEq, Fin.ext_iff]
      exact ⟨fun h => ⟨h, h ▸ hne⟩, fun h => h.1⟩
  · next hlarge =>
    constructor
    · intro h
      cases h
    · rintro ⟨hvalue, -⟩
      exact absurd (hvalue ▸ k.isLt) hlarge

namespace Signer

/-- Whether a text is a key with at most one mark before it. -/
def Unmarks (marked key : String) : Prop :=
  marked = "0x" ++ key ∨ (marked = key ∧ ∀ rest, marked ≠ "0x" ++ rest)

/-- Whether a text is a key, possibly marked, between blanks. -/
def Wraps (s key : String) : Prop := ∃ marked, Text.IsInside marked s ∧ Unmarks marked key

/-- Whether a text spells a number from one to below the order in 64 digits of either case. -/
structure Spells (key : String) (n : Nat) : Prop where
  length : key.length = 64
  digits : ∀ c ∈ key.toList, Hex.IsAnyDigit c
  value : Text.inBase? 16 key.toList = some n
  pos : 1 ≤ n
  lt : n < order

variable {s key marked : String} {bs : Bytes} {signer : Signer}

/-! ## What stands in a text -/

theorem dropHexMark_append (key : String) : dropHexMark ("0x" ++ key) = key := by
  have hmarked : ("0x" ++ key).toList = '0' :: 'x' :: key.toList := String.toList_append
  simp only [dropHexMark, hmarked, String.ofList_toList]

theorem dropHexMark_of_unmarked (h : ∀ rest, marked ≠ "0x" ++ rest) :
    dropHexMark marked = marked := by
  unfold dropHexMark
  split
  · next rest hmarked =>
    have hmark : ("0x" ++ String.ofList rest).toList = '0' :: 'x' :: (String.ofList rest).toList :=
      String.toList_append
    refine absurd (String.toList_inj.mp ?_) (h (String.ofList rest))
    rw [hmarked, hmark, String.toList_ofList]
  · rfl

theorem dropHexMark_eq_iff : dropHexMark marked = key ↔ Unmarks marked key := by
  constructor
  · rintro rfl
    by_cases h : ∃ rest, marked = "0x" ++ rest
    · obtain ⟨rest, rfl⟩ := h
      exact .inl (by rw [dropHexMark_append])
    · have hplain : ∀ rest, marked ≠ "0x" ++ rest := fun rest heq => h ⟨rest, heq⟩
      exact .inr ⟨(dropHexMark_of_unmarked hplain).symm, hplain⟩
  · rintro (rfl | ⟨rfl, hplain⟩)
    · exact dropHexMark_append key
    · exact dropHexMark_of_unmarked hplain

theorem wraps_iff : Wraps s key ↔ dropHexMark (Text.trim s) = key := by
  constructor
  · rintro ⟨marked, hinside, hunmarks⟩
    rw [Text.trim_eq_iff.mpr hinside]
    exact dropHexMark_eq_iff.mpr hunmarks
  · exact fun h => ⟨_, Text.trim_eq_iff.mp rfl, dropHexMark_eq_iff.mp h⟩

/-! ## What is read -/

theorem ext_secret {other : Signer} (h : signer.secret = other.secret) : signer = other := by
  obtain ⟨secret, _, publicKey, hpublic⟩ := signer
  obtain ⟨secret', _, publicKey', hpublic'⟩ := other
  obtain rfl : secret = secret' := h
  obtain rfl : publicKey = publicKey' := hpublic.trans hpublic'.symm
  rfl

theorem ofBytes?_eq_some_iff :
    ofBytes? bs = some signer ↔ bs.length = 32 ∧ Bytes.toNat bs = signer.secret.val := by
  unfold ofBytes?
  constructor
  · intro h
    split at h
    · next hlength =>
      split at h
      · next k hk =>
        split at h
        · cases h
          exact ⟨hlength, (Nonce.ofBytes?_eq_some_iff.mp hk).1⟩
        · cases h
      · cases h
    · cases h
  · rintro ⟨hlength, hvalue⟩
    have hsecret := Nonce.ofBytes?_eq_some_iff.mpr ⟨hvalue, signer.secret_ne_zero⟩
    simp only [hlength, if_true, hsecret, dif_pos signer.secret_ne_zero]
    exact congrArg some (ext_secret rfl)

theorem ofText_eq (h : Wraps s key) : ofText s =
    match Hex.decode key with
    | .error fault => .error (.privateKeyNotHex fault)
    | .ok octets =>
      match ofBytes? octets with
      | some signer => .ok signer
      | none => .error .privateKeyMalformed := by
  rewrite [ofText, wraps_iff.mp h]
  rfl

theorem Spells.exists_octets {n : Nat} (h : Spells key n) :
    ∃ octets, Hex.decode key = .ok octets ∧ octets.length = 32 ∧ Bytes.toNat octets = n := by
  have hlength := h.length
  obtain ⟨octets, hoctets⟩ := Hex.exists_decode_iff.mpr ⟨by rw [hlength], h.digits⟩
  have hlower := Hex.decode_eq_ok_iff.mp hoctets
  rw [← String.length_toList, Hex.length_eq_of_lower hlower] at hlength
  exact ⟨octets, hoctets, by omega,
    Option.some.inj ((Hex.inBase?_of_lower hlower).symm.trans h.value)⟩

/-- A key is read if its digits spell a number in range. -/
theorem ofText_eq_ok_iff (h : Wraps s key) :
    ofText s = .ok signer ↔ Spells key signer.secret.val := by
  rw [ofText_eq h]
  constructor
  · intro hread
    split at hread
    · cases hread
    next octets hoctets =>
      split at hread
      · next found hfound =>
        cases hread
        obtain ⟨hlength, hvalue⟩ := ofBytes?_eq_some_iff.mp hfound
        have hlower := Hex.decode_eq_ok_iff.mp hoctets
        have hdigits := Hex.length_eq_of_lower hlower
        refine ⟨?_, Hex.isAnyDigit_of_lower hlower, ?_, ?_, signer.secret.isLt⟩
        · rw [← String.length_toList, hdigits, hlength]
        · rw [Hex.inBase?_of_lower hlower, hvalue]
        · exact Nat.one_le_iff_ne_zero.mpr fun hzero => signer.secret_ne_zero (Fin.ext hzero)
      · cases hread
  · intro hspells
    obtain ⟨octets, hoctets, hlength, hvalue⟩ := hspells.exists_octets
    simp only [hoctets, ofBytes?_eq_some_iff.mpr ⟨hlength, hvalue⟩]

/-- The digits of a number in range are those of a key. -/
theorem exists_ofText_iff (h : Wraps s key) :
    (∃ signer, ofText s = .ok signer) ↔ ∃ n, Spells key n := by
  constructor
  · rintro ⟨signer, hread⟩
    exact ⟨_, (ofText_eq_ok_iff h).mp hread⟩
  · rintro ⟨n, hspells⟩
    have hne : (⟨n, hspells.lt⟩ : Scalar) ≠ 0 := fun hzero =>
      Nat.ne_of_gt hspells.pos (Fin.ext_iff.mp hzero)
    exact ⟨{ secret := ⟨n, hspells.lt⟩, secret_ne_zero := hne }, (ofText_eq_ok_iff h).mpr hspells⟩

/-- What is not hexadecimal is told from what spells no key. -/
theorem ofText_notHex_iff (h : Wraps s key) :
    (∃ fault, ofText s = .error (.privateKeyNotHex fault)) ↔
      key.length % 2 = 1 ∨ ∃ c ∈ key.toList, ¬ Hex.IsAnyDigit c := by
  have hbad : (key.length % 2 = 1 ∨ ∃ c ∈ key.toList, ¬ Hex.IsAnyDigit c) ↔
      ¬ ∃ octets, Hex.decode key = .ok octets := by
    rw [Hex.exists_decode_iff, Classical.not_and_iff_not_or_not]
    simp
  rw [hbad, ofText_eq h]
  cases hdecode : Hex.decode key with
  | error fault => simp
  | ok octets =>
    cases hsigner : ofBytes? octets <;> simp [hsigner]

theorem ofText_eq_error {e : KeyError} (he : ofText s = .error e) :
    (∃ fault, e = .privateKeyNotHex fault) ∨ e = .privateKeyMalformed := by
  rw [ofText_eq (wraps_iff.mpr rfl)] at he
  split at he
  · cases he
    exact .inl ⟨_, rfl⟩
  · split at he
    · cases he
    · cases he
      exact .inr rfl

/-! ## What is written -/

theorem privateKeyHex_of_spells (h : Spells key signer.secret.val) :
    signer.privateKeyHex = key.map Char.toLower := by
  obtain ⟨octets, hoctets, hlength, hvalue⟩ := h.exists_octets
  have hlower := Hex.decode_eq_ok_iff.mp hoctets
  rw [privateKeyHex, ← hvalue, ← hlength, Bytes.ofNat_toNat, Hex.encode_eq_ofList, ← hlower,
    ← String.toList_inj, String.toList_ofList, String.toList_map]

theorem isDigit_of_mem_privateKeyHex (signer : Signer) :
    ∀ c ∈ signer.privateKeyHex.toList, Hex.IsDigit c :=
  fun _ hc => Hex.isDigit_of_mem_encode hc

theorem isBlank_of_isAnyDigit : ∀ c, Hex.IsAnyDigit c → Text.isBlank c = false :=
  Hex.forall_isAnyDigit (by decide +kernel)

/-- A key that was written stands unmarked between blanks. -/
theorem wraps_privateKeyHex (signer : Signer) {blanks : String}
    (hblanks : ∀ c ∈ blanks.toList, Text.isBlank c = true) :
    Wraps (signer.privateKeyHex ++ blanks) signer.privateKeyHex := by
  have hdigits := signer.isDigit_of_mem_privateKeyHex
  refine ⟨_, ⟨⟨[], blanks.toList, by rw [String.toList_append, List.nil_append],
    List.forall_mem_nil _, hblanks⟩,
    fun c hc => isBlank_of_isAnyDigit c (hdigits c (List.mem_of_head? hc)).isAny,
    fun c hc => isBlank_of_isAnyDigit c (hdigits c (List.mem_of_getLast? hc)).isAny⟩,
    .inr ⟨rfl, fun rest heq => ?_⟩⟩
  have hmark : ("0x" ++ rest).toList = '0' :: 'x' :: rest.toList := String.toList_append
  rw [heq, hmark] at hdigits
  exact absurd (hdigits 'x' (by simp)) (by decide)

/-- What is written of a key is read as the key, with blanks behind it as well. -/
theorem ofText_privateKeyHex (signer : Signer) {blanks : String}
    (hblanks : ∀ c ∈ blanks.toList, Text.isBlank c = true) :
    ofText (signer.privateKeyHex ++ blanks) = .ok signer := by
  have hvalue : Bytes.toNat (Bytes.ofNat 32 signer.secret.val) = signer.secret.val := by
    rw [Bytes.toNat_ofNat]
    exact Nat.mod_eq_of_lt (Nat.lt_trans signer.secret.isLt (by decide))
  have hread := ofBytes?_eq_some_iff.mpr ⟨Bytes.length_ofNat 32 _, hvalue⟩
  rw [ofText_eq (signer.wraps_privateKeyHex hblanks)]
  simp only [privateKeyHex, Hex.decode_encode, hread]

/-! ## Where keys come from -/

/-- A text that is stored is read as it is. -/
theorem ofStored_eq {octets : Bytes} (h : Bytes.text? octets = some s) (path : String) :
    ofVariable (some octets) = ofText s ∧ ofFile path (.ok octets) = ofText s := by
  have htext : FileContent.text (.ok octets) = .ok s := by
    simp only [FileContent.text, h]
  constructor
  · simp only [ofVariable, Option.bind_some, h]
  · simp only [ofFile, htext]

end Signer

/-- What a new key is written to is read as that key, and the key that is shown is the public half
of it. -/
theorem Command.generate_readable {around : Surroundings} {path : String}
    (hpath : around.unwritable? path = none) : ∃ content,
      generate around (some path) = .ok
        { Outcome.printed (.record [("public_key", .text around.freshKey.publicKeyHex)]) with
          written := some (path, content) } ∧
      Signer.ofFile path (.ok (Bytes.ofText content)) = .ok around.freshKey := by
  refine ⟨around.freshKey.privateKeyHex ++ "\n", by simp only [generate, hpath], ?_⟩
  rw [(Signer.ofStored_eq (Bytes.text?_ofText _) path).2]
  exact around.freshKey.ofText_privateKeyHex (forall_mem_of_all (by decide))

namespace Signer

/-- A text is read as a key if what stands between its blanks, behind one mark at most, is 64 digits
of a number in range. The key is shown by these digits in lowercase, which are read as the same key.
Other texts are refused, those that are not hexadecimal for that reason. It does not matter where a
text is stored; and the file that a new key is written to holds the key whose public half is
shown. -/
theorem ofText_decided :
    (∀ s, ∃ key, Wraps s key ∧ ∀ other, Wraps s other → other = key) ∧
    (∀ s key, Wraps s key →
      ((∃ signer, ofText s = .ok signer) ↔ ∃ n, Spells key n) ∧
      (∀ signer, ofText s = .ok signer → Spells key signer.secret.val ∧
        signer.privateKeyHex = key.map Char.toLower ∧
        ofText signer.privateKeyHex = .ok signer) ∧
      ((∃ fault, ofText s = .error (.privateKeyNotHex fault)) ↔
        key.length % 2 = 1 ∨ ∃ c ∈ key.toList, ¬ Hex.IsAnyDigit c) ∧
      ∀ e, ofText s = .error e →
        (∃ fault, e = .privateKeyNotHex fault ∧
          e.message = "Invalid private key: " ++ ("not hex: " ++ fault.message)) ∨
        (e = .privateKeyMalformed ∧
          e.message = "Invalid private key: malformed or out-of-range secret key")) ∧
    (∀ octets s path, Bytes.text? octets = some s →
      ofVariable (some octets) = ofText s ∧ ofFile path (.ok octets) = ofText s) ∧
    ∀ {σ : Type} (node : Rest.Node σ) (start : σ) (config : Config) (around : Surroundings)
      (path : String), around.unwritable? path = none → ∃ content,
        Command.run node start around config (.keygen (some path)) = .ok
          { Outcome.printed (.record [("public_key", .text around.freshKey.publicKeyHex)]) with
            written := some (path, content) } ∧
        ofFile path (.ok (Bytes.ofText content)) = .ok around.freshKey := by
  refine ⟨fun s => ?_, fun s key hwraps => ⟨exists_ofText_iff hwraps, fun signer hread => ?_,
    ofText_notHex_iff hwraps, fun e he => ?_⟩, fun octets s path h => ofStored_eq h path,
    fun node start config around path hpath => Command.generate_readable hpath⟩
  · exact ⟨_, wraps_iff.mpr rfl, fun other hother => (wraps_iff.mp hother).symm⟩
  · have hspells := (ofText_eq_ok_iff hwraps).mp hread
    refine ⟨hspells, privateKeyHex_of_spells hspells, ?_⟩
    have hsame := signer.ofText_privateKeyHex
      (show ∀ c ∈ "".toList, Text.isBlank c = true from List.forall_mem_nil _)
    rwa [String.append_empty] at hsame
  · rcases ofText_eq_error he with ⟨fault, rfl⟩ | rfl
    · exact .inl ⟨fault, rfl, rfl⟩
    · exact .inr ⟨rfl, rfl⟩

/-- Digits of either case behind a mark, and a second mark. -/
theorem ofText_decided_marked :
    (∃ signer, ofText
        " 0x2F1E7B7A130D7BA9DA0068B3BB0BA1D79E7E77110302C9F746C3C2A63FE40088\n" = .ok signer ∧
      signer.privateKeyHex =
        "2f1e7b7a130d7ba9da0068b3bb0ba1d79e7e77110302c9f746c3c2a63fe40088") ∧
    ∃ fault, ofText "0x0x2f" = .error (.privateKeyNotHex fault) := by
  obtain ⟨-, hread, -⟩ := ofText_decided
  have hwraps : Wraps " 0x2F1E7B7A130D7BA9DA0068B3BB0BA1D79E7E77110302C9F746C3C2A63FE40088\n"
      "2F1E7B7A130D7BA9DA0068B3BB0BA1D79E7E77110302C9F746C3C2A63FE40088" :=
    wraps_iff.mpr (by decide +kernel)
  have hspells : Spells "2F1E7B7A130D7BA9DA0068B3BB0BA1D79E7E77110302C9F746C3C2A63FE40088"
      0x2F1E7B7A130D7BA9DA0068B3BB0BA1D79E7E77110302C9F746C3C2A63FE40088 :=
    ⟨by decide +kernel, forall_mem_of_all (by decide +kernel), by decide +kernel, by decide,
      by decide⟩
  obtain ⟨hok, hshown, -⟩ := hread _ _ hwraps
  obtain ⟨signer, hsigner⟩ := hok.mpr ⟨_, hspells⟩
  refine ⟨⟨signer, hsigner, (hshown signer hsigner).2.1.trans (by decide +kernel)⟩, ?_⟩
  exact (hread "0x0x2f" "0x2f" (wraps_iff.mpr (by decide +kernel))).2.2.1.mpr
    (.inr ⟨'x', by decide, by decide⟩)

end Signer

end CertRegistry
