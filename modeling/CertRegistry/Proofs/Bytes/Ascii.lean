import CertRegistry.Bytes

/-!
# Texts in ASCII

A text in ASCII has one octet for each character, with the same number.
-/

namespace CertRegistry

/-- What holds for all characters of a text is checked one by one. -/
theorem forall_mem_of_all {p : Char → Prop} [DecidablePred p] {cs : List Char}
    (h : (cs.all fun c => decide (p c)) = true) : ∀ c ∈ cs, p c :=
  fun c hc => of_decide_eq_true (List.all_eq_true.mp h c hc)

theorem all_of_forall_mem {p : Char → Prop} [DecidablePred p] {cs : List Char}
    (h : ∀ c ∈ cs, p c) : (cs.all fun c => decide (p c)) = true :=
  List.all_eq_true.mpr fun c hc => decide_eq_true (h c hc)

namespace Bytes

theorem utf8EncodeChar_of_lt {c : Char} (h : c.toNat < 0x80) :
    String.utf8EncodeChar c = [UInt8.ofNat c.toNat] := by
  have hle : c.val.toNat ≤ 0x7f := Nat.le_of_lt_succ h
  simp only [String.utf8EncodeChar, if_pos hle]
  rfl

theorem ofText_of_isAscii {s : String} (h : ∀ c ∈ s.toList, c.toNat < 0x80) :
    ofText s = s.toList.map fun c => UInt8.ofNat c.toNat := by
  rw [← String.ofList_toList (s := s), ofText_ofList, String.toList_ofList]
  generalize s.toList = cs at h
  induction cs with
  | nil => rfl
  | cons c cs ih =>
    rw [List.flatMap_cons, List.map_cons, utf8EncodeChar_of_lt (h c (by simp)),
      ih fun d hd => h d (by simp [hd])]
    rfl

theorem length_ofText_of_isAscii {s : String} (h : ∀ c ∈ s.toList, c.toNat < 0x80) :
    (ofText s).length = s.length := by
  rw [ofText_of_isAscii h, List.length_map, String.length_toList]

theorem toNat_charOfNat {n : Nat} (h : n < 0x80) : (Char.ofNat n).toNat = n := by
  revert n
  decide

/-- Octets of ASCII are those of the text of their characters. -/
theorem ofText_ofList_octets {bs : Bytes} (h : ∀ b ∈ bs, b.toNat < 0x80) :
    ofText (String.ofList (bs.map fun b => Char.ofNat b.toNat)) = bs := by
  have hascii : ∀ c ∈ (String.ofList (bs.map fun b => Char.ofNat b.toNat)).toList,
      c.toNat < 0x80 := by
    intro c hc
    rw [String.toList_ofList] at hc
    obtain ⟨b, hb, rfl⟩ := List.mem_map.mp hc
    rw [toNat_charOfNat (h b hb)]
    exact h b hb
  rw [ofText_of_isAscii hascii, String.toList_ofList, List.map_map]
  refine (List.map_congr_left fun b hb => ?_).trans (List.map_id _)
  rw [Function.comp_apply, toNat_charOfNat (h b hb), UInt8.ofNat_toNat, id]

end Bytes

end CertRegistry
