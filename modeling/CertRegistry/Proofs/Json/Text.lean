import CertRegistry.Json.Printer

/-!
# Texts are read back from JSON

What is written for a text, with all its escapes, is read as that text, and the reader goes on just
behind the closing quote.
-/

namespace CertRegistry.Json

/-- Whether a reader finds a value in these characters, whatever comes after them, and uses up no
more than them. -/
def Reads {α : Type} (read : Cursor → Except Fault (α × Cursor)) (front : List Char) (a : α) :
    Prop :=
  ∀ cur rest, cur.rest = front ++ rest → ∃ cur', read cur = .ok (a, cur') ∧ cur'.rest = rest

@[simp]
theorem Cursor.rest_pass (cur : Cursor) (c : Char) : (cur.pass c).rest = cur.rest.tail := by
  unfold pass
  split <;> rfl

/-- Characters of one octet each are passed by their number. -/
theorem Cursor.rest_passOctets {cur : Cursor} {front rest : List Char}
    (hfront : ∀ c ∈ front, c.utf8Size = 1) (h : cur.rest = front ++ rest) :
    (cur.passOctets front.length).rest = rest := by
  unfold passOctets
  rw [h]
  clear h
  generalize cur.line = line
  generalize cur.column = column
  induction front generalizing line column with
  | nil =>
    cases rest with
    | nil => rfl
    | cons c rest => simp [passOctets.go, c.utf8Size_pos]
  | cons c front ih =>
    have hsize := hfront c List.mem_cons_self
    have hrest := ih fun d hd => hfront d (List.mem_cons_of_mem _ hd)
    rw [List.cons_append, List.length_cons, passOctets.go, if_neg (by omega), hsize]
    split
    · exact hrest _ _
    · exact hrest _ _

section Escapes

variable (count : Nat) (seen : List Char) {cur : Cursor} {rest : List Char}

theorem readTextFrom_letter {letter c : Char} (hletter : escapedChar? letter = some c)
    (h : cur.rest = '\\' :: letter :: rest) :
    ∃ cur', readTextFrom (count + 1) seen cur = readTextFrom count (c :: seen) cur' ∧
      cur'.rest = rest := by
  have hcode : letter ≠ 'u' := by
    rintro rfl
    cases hletter
  refine ⟨(cur.pass '\\').pass letter, ?_, by simp [h]⟩
  simp [readTextFrom, readEscape, h, hcode, hletter]

theorem hexDigit?_digitChar {n : Nat} (h : n < 16) : Text.hexDigit? (Nat.digitChar n) = some n := by
  revert n
  decide

theorem utf8Size_digitChar {n : Nat} (h : n < 16) : (Nat.digitChar n).utf8Size = 1 := by
  revert n
  decide

theorem readHexCode_hexPair {n : Nat} (hn : n < 0x20)
    (h : cur.rest = '0' :: '0' :: (hexPair n ++ rest)) :
    ∃ cur', readHexCode cur = .ok (n, cur') ∧ cur'.rest = rest := by
  have hhigh := hexDigit?_digitChar (n := n / 16) (by omega)
  have hlow := hexDigit?_digitChar (n := n % 16) (by omega)
  have hzero := hexDigit?_digitChar (n := 0) (by decide)
  have hdigits : (cur.rest.take 4).mapM Text.hexDigit? = some [0, 0, n / 16, n % 16] := by
    rw [h]
    simp [hexPair, hhigh, hlow, show Text.hexDigit? '0' = some 0 from hzero]
  have hsizes : ∀ c ∈ '0' :: '0' :: hexPair n, c.utf8Size = 1 := by
    intro c hc
    simp only [hexPair, List.mem_cons, List.not_mem_nil, or_false] at hc
    rcases hc with rfl | rfl | rfl | rfl
    · decide
    · decide
    · exact utf8Size_digitChar (by omega)
    · exact utf8Size_digitChar (by omega)
  refine ⟨cur.passOctets 4, ?_, Cursor.rest_passOctets hsizes h⟩
  simp only [readHexCode, hdigits]
  rw [show ((0 * 16 + 0) * 16 + n / 16) * 16 + n % 16 = n by omega]

theorem readTextFrom_code {n : Nat} (hn : n < 0x20)
    (h : cur.rest = '\\' :: 'u' :: '0' :: '0' :: (hexPair n ++ rest)) :
    ∃ cur', readTextFrom (count + 1) seen cur = readTextFrom count (Char.ofNat n :: seen) cur' ∧
      cur'.rest = rest := by
  have hbehind : ((cur.pass '\\').pass 'u').rest = '0' :: '0' :: (hexPair n ++ rest) := by
    simp [h]
  obtain ⟨cur', hread, hrest⟩ := readHexCode_hexPair hn hbehind
  refine ⟨cur', ?_, hrest⟩
  have hcode : readCode ((cur.pass '\\').pass 'u') = .ok (Char.ofNat n, cur') := by
    simp only [readCode, hread, bind, Except.bind]
    rw [if_neg (by omega), if_pos (by omega)]
    rfl
  simp [readTextFrom, readEscape, h, hcode]

/-- A written character is taken up in one step. -/
theorem readTextFrom_escape {c : Char} (h : cur.rest = escape c ++ rest) :
    ∃ cur', readTextFrom (count + 1) seen cur = readTextFrom count (c :: seen) cur' ∧
      cur'.rest = rest := by
  unfold escape at h
  split at h
  · next hc =>
    rcases hc with rfl | rfl
    · exact readTextFrom_letter count seen rfl h
    · exact readTextFrom_letter count seen rfl h
  next hquoted =>
  split at h
  · next hc => exact hc ▸ readTextFrom_letter count seen rfl h
  split at h
  · next hc => exact hc ▸ readTextFrom_letter count seen rfl h
  split at h
  · next hc => exact hc ▸ readTextFrom_letter count seen rfl h
  split at h
  · next hc => exact hc ▸ readTextFrom_letter count seen rfl h
  split at h
  · next hc => exact hc ▸ readTextFrom_letter count seen rfl h
  split at h
  · next hcontrol =>
    have hread := readTextFrom_code count seen hcontrol h
    rwa [Char.ofNat_toNat] at hread
  · next hcontrol =>
    obtain ⟨hquote, hslash⟩ := not_or.mp hquoted
    refine ⟨cur.pass c, ?_, by simp [h]⟩
    simp [readTextFrom, h, hquote, hslash, hcontrol]

end Escapes

theorem readTextFrom_escapes {count : Nat} (seen : List Char) {cs : List Char} {cur : Cursor}
    {rest : List Char} (hcount : cs.length < count)
    (h : cur.rest = cs.flatMap escape ++ '"' :: rest) :
    ∃ cur', readTextFrom count seen cur = .ok (String.ofList (seen.reverse ++ cs), cur') ∧
      cur'.rest = rest := by
  induction cs generalizing count seen cur with
  | nil =>
    obtain ⟨count, rfl⟩ : ∃ n, count = n + 1 := ⟨count - 1, by simp at hcount; omega⟩
    have hrest : cur.rest = '"' :: rest := h
    refine ⟨cur.pass '"', ?_, by simp [hrest]⟩
    simp [readTextFrom, hrest]
  | cons c cs ih =>
    obtain ⟨count, rfl⟩ : ∃ n, count = n + 1 := ⟨count - 1, by simp at hcount; omega⟩
    rw [List.flatMap_cons, List.append_assoc] at h
    obtain ⟨cur', hstep, hrest⟩ := readTextFrom_escape count seen h
    obtain ⟨cur'', hread, hend⟩ := ih (c :: seen) (by simpa using hcount) hrest
    refine ⟨cur'', ?_, hend⟩
    rw [hstep, hread, List.reverse_cons, List.append_assoc, List.singleton_append]

theorem escape_ne_nil (c : Char) : escape c ≠ [] := by
  unfold escape
  repeat' split
  all_goals simp

theorem length_le_length_escapes (cs : List Char) : cs.length ≤ (cs.flatMap escape).length := by
  induction cs with
  | nil => exact Nat.zero_le _
  | cons c cs ih =>
    have := List.length_pos_iff.mpr (escape_ne_nil c)
    rw [List.flatMap_cons, List.length_append, List.length_cons]
    omega

theorem reads_text (s : String) : Reads readText (s.toList.flatMap escape ++ ['"']) s := by
  intro cur rest h
  rw [List.append_assoc, List.singleton_append] at h
  have hcount : s.toList.length < cur.rest.length := by
    have := length_le_length_escapes s.toList
    rw [h, List.length_append, List.length_cons]
    omega
  obtain ⟨cur', hread, hrest⟩ := readTextFrom_escapes [] hcount h
  refine ⟨cur', ?_, hrest⟩
  rw [readText, hread, List.reverse_nil, List.nil_append, String.ofList_toList]

end CertRegistry.Json
