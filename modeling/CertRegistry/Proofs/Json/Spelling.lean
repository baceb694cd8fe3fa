import CertRegistry.Json.Skip
import CertRegistry.Proofs.Json.Grammar

/-!
# Texts and numbers as they are spelled

The reader of a text finds the characters that are spelled, or complains; the one that skips goes on
behind the closing quote either way. Numbers are skipped up to where a value can end.
-/

namespace CertRegistry.Json

/-! ## What reading comes to -/

/-- Whether reading comes to a value and goes on from a place, or to a complaint if there is no
value. -/
def Comes {α : Type} (r : Except Fault (α × Cursor)) (a? : Option α) (t : List Char) : Prop :=
  match a? with
  | some a => ∃ cur, r = .ok (a, cur) ∧ cur.rest = t
  | none => ∃ fault, r = .error fault

section Comes

variable {α β : Type} {r : Except Fault (α × Cursor)} {a? : Option α} {t u : List Char}

theorem Comes.bind (h : Comes r a? t) {f : α × Cursor → Except Fault (β × Cursor)}
    {g : α → Option β} (hf : ∀ a cur, a? = some a → cur.rest = t → Comes (f (a, cur)) (g a) u) :
    Comes (r >>= f) (a?.bind g) u := by
  cases a? with
  | none =>
    obtain ⟨fault, rfl⟩ := h
    exact ⟨fault, rfl⟩
  | some a =>
    obtain ⟨cur, rfl, hcur⟩ := h
    exact hf a cur rfl hcur

theorem Comes.map (h : Comes r a? t) (f : α → β) :
    Comes ((fun p => (f p.1, p.2)) <$> r) (a?.map f) t := by
  cases a? with
  | none =>
    obtain ⟨fault, rfl⟩ := h
    exact ⟨fault, rfl⟩
  | some a =>
    obtain ⟨cur, rfl, hcur⟩ := h
    exact ⟨cur, rfl, hcur⟩

end Comes

theorem readLetters_eq_ok {letters : List Char} {cur : Cursor} {t : List Char}
    (h : cur.rest = letters ++ t) : ∃ cur', readLetters letters cur = .ok cur' ∧ cur'.rest = t := by
  induction letters generalizing cur with
  | nil => exact ⟨cur, rfl, h⟩
  | cons c letters ih =>
    obtain ⟨cur', hread, hrest⟩ := @ih (cur.pass c) (by simp [h])
    refine ⟨cur', ?_, hrest⟩
    simp only [readLetters, h, List.cons_append, if_true]
    exact hread

/-! ## Texts -/

theorem utf8Size_of_hexDigit? {c : Char} {n : Nat} (h : Text.hexDigit? c = some n) :
    c.utf8Size = 1 := by
  have hsmall : c.toNat ≤ 0x7F := by
    unfold Text.hexDigit? at h
    split at h
    · next hc =>
      simp only [Char.isDigit, Bool.and_eq_true, decide_eq_true_eq] at hc
      have : c.toNat ≤ 57 := hc.2
      omega
    split at h
    · next hc =>
      have : c.toNat ≤ 102 := hc.2
      omega
    split at h
    · next hc =>
      have : c.toNat ≤ 70 := hc.2
      omega
    · cases h
  rw [Char.utf8Size, if_pos]
  exact UInt32.le_iff_toNat_le.mpr hsmall

theorem readHexCode_eq_ok {a b c d : HexDigit} {cur : Cursor} {t : List Char}
    (h : cur.rest = a.char :: b.char :: c.char :: d.char :: t) :
    ∃ cur', readHexCode cur = .ok (Spelled.unit a b c d, cur') ∧ cur'.rest = t := by
  have hsizes : ∀ e ∈ [a.char, b.char, c.char, d.char], e.utf8Size = 1 := by
    simp [utf8Size_of_hexDigit? a.spells, utf8Size_of_hexDigit? b.spells,
      utf8Size_of_hexDigit? c.spells, utf8Size_of_hexDigit? d.spells]
  refine ⟨cur.passOctets 4, ?_, Cursor.rest_passOctets hsizes h⟩
  simp [readHexCode, h, a.spells, b.spells, c.spells, d.spells, Spelled.unit]

section Codes

variable {a b c d : HexDigit} {cur : Cursor} {t : List Char}

theorem readCode_single (h : cur.rest = a.char :: b.char :: c.char :: d.char :: t)
    (hlow : ¬ (0xDC00 ≤ Spelled.unit a b c d ∧ Spelled.unit a b c d ≤ 0xDFFF))
    (hsingle : Spelled.unit a b c d < 0xD800 ∨ 0xDBFF < Spelled.unit a b c d) :
    Comes (readCode cur) (some (Char.ofNat (Spelled.unit a b c d))) t := by
  obtain ⟨cur', hread, hrest⟩ := readHexCode_eq_ok h
  refine ⟨cur', ?_, hrest⟩
  simp only [readCode, hread, bind, Except.bind, if_neg hlow, if_pos hsingle]
  rfl

/-- The lower half of a character does not come first. -/
theorem readCode_low (h : cur.rest = a.char :: b.char :: c.char :: d.char :: t)
    (hlow : 0xDC00 ≤ Spelled.unit a b c d ∧ Spelled.unit a b c d ≤ 0xDFFF) (u : List Char) :
    Comes (readCode cur) none u := by
  obtain ⟨cur', hread, -⟩ := readHexCode_eq_ok h
  simp only [readCode, hread, bind, Except.bind, if_pos hlow]
  exact ⟨_, rfl⟩

/-- The lower half has to come as a code behind the upper one. -/
theorem readCode_alone (h : cur.rest = a.char :: b.char :: c.char :: d.char :: t)
    (hlow : ¬ (0xDC00 ≤ Spelled.unit a b c d ∧ Spelled.unit a b c d ≤ 0xDFFF))
    (hpaired : ¬ (Spelled.unit a b c d < 0xD800 ∨ 0xDBFF < Spelled.unit a b c d))
    (ht : ∀ u, t ≠ '\\' :: 'u' :: u) (u : List Char) : Comes (readCode cur) none u := by
  obtain ⟨cur', hread, hrest⟩ := readHexCode_eq_ok h
  simp only [readCode, hread, bind, Except.bind, if_neg hlow, if_neg hpaired]
  have hpass : ∀ (e : Char) (cur : Cursor), (∃ fault, readInCodePair e cur = .error fault) ∨
      readInCodePair e cur = .ok (cur.pass e) ∧ ∃ u, cur.rest = e :: u := by
    intro e cur
    unfold readInCodePair
    split
    · exact .inl ⟨_, rfl⟩
    · next f u hcur =>
      split
      · next heq => exact .inr ⟨by rw [heq], u, by rw [hcur, heq]⟩
      · exact .inl ⟨_, rfl⟩
  rcases hpass '\\' cur' with ⟨fault, hfault⟩ | ⟨hslash, v, hv⟩
  · rw [hfault]
    exact ⟨_, rfl⟩
  rw [hslash]
  rcases hpass 'u' (cur'.pass '\\') with ⟨fault, hfault⟩ | ⟨-, w, hw⟩
  · simp only [hfault]
    exact ⟨_, rfl⟩
  · rw [Cursor.rest_pass, hv, List.tail_cons] at hw
    exact absurd (hrest.symm.trans (hv.trans (by rw [hw]))) (ht w)

theorem readInCodePair_eq_ok {e : Char} (h : cur.rest = e :: t) :
    readInCodePair e cur = .ok (cur.pass e) := by
  simp [readInCodePair, h]

theorem readCode_pair {a' b' c' d' : HexDigit}
    (h : cur.rest = a.char :: b.char :: c.char :: d.char :: '\\' :: 'u' ::
      a'.char :: b'.char :: c'.char :: d'.char :: t)
    (hlow : ¬ (0xDC00 ≤ Spelled.unit a b c d ∧ Spelled.unit a b c d ≤ 0xDFFF))
    (hpaired : ¬ (Spelled.unit a b c d < 0xD800 ∨ 0xDBFF < Spelled.unit a b c d)) :
    Comes (readCode cur)
      (if 0xDC00 ≤ Spelled.unit a' b' c' d' ∧ Spelled.unit a' b' c' d' ≤ 0xDFFF then
        some (Char.ofNat (0x10000 + (Spelled.unit a b c d - 0xD800) * 0x400 +
          (Spelled.unit a' b' c' d' - 0xDC00)))
      else none) t := by
  obtain ⟨cur₁, hhigh, hcur₁⟩ := readHexCode_eq_ok h
  have hcur₂ : (cur₁.pass '\\').rest = 'u' :: a'.char :: b'.char :: c'.char :: d'.char :: t := by
    simp [hcur₁]
  have hcur₃ : ((cur₁.pass '\\').pass 'u').rest =
      a'.char :: b'.char :: c'.char :: d'.char :: t := by
    simp [hcur₁]
  obtain ⟨cur₄, hread, hcur₄⟩ := readHexCode_eq_ok hcur₃
  simp only [readCode, hhigh, bind, Except.bind, if_neg hlow, if_neg hpaired,
    readInCodePair_eq_ok hcur₁, readInCodePair_eq_ok hcur₂, hread]
  split
  · exact ⟨cur₄, rfl, hcur₄⟩
  · exact ⟨_, rfl⟩

end Codes

section Steps

variable (count : Nat) (seen : List Char) {cur : Cursor} {t u : List Char}

theorem readEscape_unit (h : cur.rest = '\\' :: 'u' :: t) :
    readEscape (cur.pass '\\') = readCode ((cur.pass '\\').pass 'u') := by
  simp [readEscape, h]

/-- A code that makes up a character is taken up. -/
theorem readTextFrom_unit {c : Char} (h : cur.rest = '\\' :: 'u' :: t)
    (hcode : Comes (readCode ((cur.pass '\\').pass 'u')) (some c) u) :
    ∃ cur', readTextFrom (count + 1) seen cur = readTextFrom count (c :: seen) cur' ∧
      cur'.rest = u := by
  obtain ⟨cur', hread, hrest⟩ := hcode
  exact ⟨cur', by simp [readTextFrom, h, readEscape_unit h, hread], hrest⟩

/-- Half a character is complained about. -/
theorem readTextFrom_unit_none (h : cur.rest = '\\' :: 'u' :: t)
    (hcode : Comes (readCode ((cur.pass '\\').pass 'u')) none u) :
    ∃ fault, readTextFrom (count + 1) seen cur = .error fault := by
  obtain ⟨fault, hfault⟩ := hcode
  exact ⟨fault, by simp [readTextFrom, h, readEscape_unit h, hfault]⟩

theorem readTextFrom_plain {c : Char} (hc : c ≠ '"' ∧ c ≠ '\\' ∧ 0x20 ≤ c.toNat)
    (h : cur.rest = c :: t) :
    readTextFrom (count + 1) seen cur = readTextFrom count (c :: seen) (cur.pass c) := by
  have hvisible : ¬ c.toNat < 0x20 := by omega
  simp [readTextFrom, h, hc.1, hc.2.1, hvisible]

variable {count seen} in
/-- A character that has been read stands before the others. -/
theorem comes_of_step {c : Char} {cur' : Cursor} {cs? : Option (List Char)}
    (hstep : readTextFrom (count + 1) seen cur = readTextFrom count (c :: seen) cur')
    (h : Comes (readTextFrom count (c :: seen) cur')
      (cs?.map fun cs => String.ofList ((c :: seen).reverse ++ cs)) t) :
    Comes (readTextFrom (count + 1) seen cur)
      (((c :: ·) <$> cs?).map fun cs => String.ofList (seen.reverse ++ cs)) t := by
  rw [hstep]
  simpa [Function.comp_def] using h

end Steps

/-- Where a code stands, and what follows it. -/
theorem rest_behind_unit {a b c d : HexDigit} {rest : List Spelled} {cur : Cursor} {t : List Char}
    (h : cur.rest = (Spelled.code a b c d :: rest).flatMap Spelled.chars ++ t) :
    ((cur.pass '\\').pass 'u').rest =
      a.char :: b.char :: c.char :: d.char :: (rest.flatMap Spelled.chars ++ t) := by
  simp [h, Spelled.chars]

/-- Reading the spelled characters one after the other. -/
theorem readTextFrom_spelled (spelled : List Spelled) {count : Nat} (seen : List Char)
    {cur : Cursor} {t : List Char} (hcount : spelled.length < count)
    (h : cur.rest = spelled.flatMap Spelled.chars ++ '"' :: t) :
    Comes (readTextFrom count seen cur)
      ((Spelled.text? spelled).map fun cs => String.ofList (seen.reverse ++ cs)) t := by
  obtain ⟨count, rfl⟩ : ∃ n, count = n + 1 := ⟨count - 1, by omega⟩
  fun_induction Spelled.text? spelled generalizing count seen cur with
  | case1 =>
    have hrest : cur.rest = '"' :: t := h
    refine ⟨cur.pass '"', ?_, by simp [hrest]⟩
    simp [readTextFrom, hrest]
  | case2 c hc rest ih =>
    obtain ⟨count, rfl⟩ : ∃ n, count = n + 1 := ⟨count - 1, by simp at hcount; omega⟩
    exact comes_of_step (readTextFrom_plain _ _ hc h)
      (ih (c :: seen) (by simp [h, Spelled.chars]) count (by simpa using hcount))
  | case3 letter c hc rest ih =>
    obtain ⟨count, rfl⟩ : ∃ n, count = n + 1 := ⟨count - 1, by simp at hcount; omega⟩
    obtain ⟨cur', hstep, hcur'⟩ := readTextFrom_letter (count + 1) seen hc h
    exact comes_of_step hstep (ih (c :: seen) hcur' count (by simpa using hcount))
  | case4 a b c d rest high =>
    rename_i hlow
    have hbehind := rest_behind_unit h
    exact readTextFrom_unit_none _ _ h (readCode_low hbehind hlow t)
  | case5 a b c d rest high =>
    rename_i hlow hsingle ih
    have hbehind := rest_behind_unit h
    obtain ⟨count, rfl⟩ : ∃ n, count = n + 1 := ⟨count - 1, by simp at hcount; omega⟩
    obtain ⟨cur', hstep, hcur'⟩ :=
      readTextFrom_unit (count + 1) seen h (readCode_single hbehind hlow hsingle)
    exact comes_of_step hstep (ih _ hcur' count (by simpa using hcount))
  | case6 a b c d high hlow hpaired a' b' c' d' rest low =>
    rename_i hmatches ih
    have hbehind := rest_behind_unit h
    have hcode := readCode_pair hbehind hlow hpaired
    rw [if_pos hmatches] at hcode
    obtain ⟨count, rfl⟩ : ∃ n, count = n + 1 := ⟨count - 1, by simp at hcount; omega⟩
    obtain ⟨cur', hstep, hcur'⟩ := readTextFrom_unit (count + 1) seen h hcode
    exact comes_of_step hstep (ih _ hcur' count (by simp at hcount; omega))
  | case7 a b c d high hlow hpaired a' b' c' d' rest low =>
    rename_i hmatches
    have hbehind := rest_behind_unit h
    have hcode := readCode_pair hbehind hlow hpaired
    rw [if_neg hmatches] at hcode
    exact readTextFrom_unit_none _ _ h hcode
  | case8 a b c d rest high =>
    rename_i hlow hpaired hother
    have hbehind := rest_behind_unit h
    refine readTextFrom_unit_none _ _ h (readCode_alone hbehind hlow hpaired (fun u hu => ?_) t)
    -- what comes behind is a quote, another character or another escape
    cases rest with
    | nil => cases hu
    | cons next rest =>
      cases next with
      | plain c hc => exact hc.2.1 (List.cons.inj hu).1
      | letter c d hc =>
        obtain rfl := (List.cons.inj (List.cons.inj hu).2).1
        cases hc
      | code a' b' c' d' => exact hother a' b' c' d' rest rfl

theorem length_le_length_spelled (spelled : List Spelled) :
    spelled.length ≤ (spelled.flatMap Spelled.chars).length := by
  induction spelled with
  | nil => exact Nat.zero_le _
  | cons next spelled ih =>
    have hne : 1 ≤ next.chars.length := by cases next <;> simp [Spelled.chars]
    rw [List.flatMap_cons, List.length_append, List.length_cons]
    omega

section Quoted

variable {spelled : List Spelled} {cur : Cursor} {t : List Char}

theorem length_spelled_lt (h : cur.rest = spelled.flatMap Spelled.chars ++ '"' :: t) :
    spelled.length < cur.rest.length := by
  have := length_le_length_spelled spelled
  rw [h, List.length_append, List.length_cons]
  omega

/-- The characters that are spelled between quotes. -/
theorem readText_spelled (h : cur.rest = spelled.flatMap Spelled.chars ++ '"' :: t) :
    Comes (readText cur) ((Spelled.text? spelled).map String.ofList) t :=
  readTextFrom_spelled spelled [] (length_spelled_lt h) h

theorem skipEscape_code {a b c d : HexDigit}
    (h : cur.rest = 'u' :: a.char :: b.char :: c.char :: d.char :: t) :
    ∃ cur', skipEscape cur = .ok cur' ∧ cur'.rest = t := by
  have hbehind : (cur.pass 'u').rest = a.char :: b.char :: c.char :: d.char :: t := by simp [h]
  obtain ⟨cur', hread, hrest⟩ := readHexCode_eq_ok hbehind
  refine ⟨cur', ?_, hrest⟩
  simp only [skipEscape, h, if_true, hread]
  rfl

theorem skipTextFrom_spelled (spelled : List Spelled) {count : Nat} {cur : Cursor}
    (hcount : spelled.length < count) (h : cur.rest = spelled.flatMap Spelled.chars ++ '"' :: t) :
    ∃ cur', skipTextFrom count cur = .ok cur' ∧ cur'.rest = t := by
  induction spelled generalizing count cur with
  | nil =>
    obtain ⟨count, rfl⟩ : ∃ n, count = n + 1 := ⟨count - 1, by simp at hcount; omega⟩
    have hrest : cur.rest = '"' :: t := h
    exact ⟨cur.pass '"', by simp [skipTextFrom, hrest], by simp [hrest]⟩
  | cons next spelled ih =>
    obtain ⟨count, rfl⟩ : ∃ n, count = n + 1 := ⟨count - 1, by omega⟩
    have hmore : spelled.length < count := by simpa using hcount
    cases next with
    | plain c hc =>
      have hvisible : ¬ c.toNat < 0x20 := by omega
      obtain ⟨cur', hskip, hcur'⟩ := @ih count (cur.pass c) hmore (by simp [h, Spelled.chars])
      exact ⟨cur', by simpa [skipTextFrom, h, Spelled.chars, hc.1, hc.2.1, hvisible] using hskip,
        hcur'⟩
    | letter c d hc =>
      have hcode : c ≠ 'u' := by
        rintro rfl
        cases hc
      obtain ⟨cur', hskip, hcur'⟩ := @ih count ((cur.pass '\\').pass c) hmore
        (by simp [h, Spelled.chars])
      exact ⟨cur', by simpa [skipTextFrom, skipEscape, h, Spelled.chars, hcode, hc] using hskip,
        hcur'⟩
    | code a b c d =>
      have hbehind : (cur.pass '\\').rest = 'u' :: a.char :: b.char :: c.char :: d.char ::
          (spelled.flatMap Spelled.chars ++ '"' :: t) := by
        simp [h, Spelled.chars]
      obtain ⟨cur₁, hescape, hcur₁⟩ := skipEscape_code hbehind
      obtain ⟨cur', hskip, hcur'⟩ := ih hmore hcur₁
      exact ⟨cur', by simpa [skipTextFrom, h, Spelled.chars, hescape] using hskip, hcur'⟩

theorem skipText_spelled (h : cur.rest = spelled.flatMap Spelled.chars ++ '"' :: t) :
    ∃ cur', skipText cur = .ok cur' ∧ cur'.rest = t :=
  skipTextFrom_spelled spelled (length_spelled_lt h) h

end Quoted

/-! ## Numbers that are skipped -/

theorem ends_nil : Ends [] := by simp [Ends]

theorem Ends.isDigit {t : List Char} (h : Ends t) : ∀ c, t.head? = some c → c.isDigit = false := by
  intro c hc
  rcases h c hc with hspace | rfl | rfl | rfl
  · simp only [isSpace, Bool.or_eq_true, decide_eq_true_eq] at hspace
    rcases hspace with ((rfl | rfl) | rfl) | rfl <;> decide
  · decide
  · decide
  · decide

theorem Ends.ne_cons {t : List Char} (h : Ends t) {c : Char} (hc : c = '.' ∨ c = 'e' ∨ c = 'E')
    (u : List Char) : t ≠ c :: u := by
  rintro rfl
  rcases h c rfl with hspace | rfl | rfl | rfl
  · rcases hc with rfl | rfl | rfl <;> exact absurd hspace (by decide)
  · exact absurd hc (by decide)
  · exact absurd hc (by decide)
  · exact absurd hc (by decide)

section Numbers

variable {digits t : List Char} {cur : Cursor}

theorem takeDigits_eq (hdigits : ∀ c ∈ digits, c.isDigit = true)
    (ht : ∀ c, t.head? = some c → c.isDigit = false) (h : cur.rest = digits ++ t) :
    ∃ cur', takeDigits cur = (digits.map fun c => c.toNat - 48, cur') ∧ cur'.rest = t := by
  have htail : t.takeWhile Char.isDigit = [] ∧ t.dropWhile Char.isDigit = t := by
    cases t with
    | nil => exact ⟨rfl, rfl⟩
    | cons c t =>
      have hc : ¬ c.isDigit = true := by simp [ht c rfl]
      exact ⟨List.takeWhile_cons_of_neg hc, List.dropWhile_cons_of_neg hc⟩
  have htake : cur.rest.takeWhile Char.isDigit = digits := by
    rw [h, List.takeWhile_append_of_pos hdigits, htail.1, List.append_nil]
  have hdrop : cur.rest.dropWhile Char.isDigit = t := by
    rw [h, List.dropWhile_append_of_pos hdigits, htail.2]
  refine ⟨{ cur with rest := t, column := cur.column + digits.length }, ?_, rfl⟩
  simp only [takeDigits, htake, hdrop]

theorem skipExponent_eq_ok {sign : List Char} (hsign : sign = [] ∨ sign = ['+'] ∨ sign = ['-'])
    (hdigits : IsDigits digits) (ht : Ends t) (h : cur.rest = sign ++ digits ++ t) :
    ∃ cur', skipExponent cur = .ok cur' ∧ cur'.rest = t := by
  have hne : digits.map (fun c => c.toNat - 48) ≠ [] := by simpa using hdigits.1
  have hbehind : ∀ cur₁ : Cursor, cur₁.rest = digits ++ t → ∃ cur',
      takeDigits cur₁ = (digits.map fun c => c.toNat - 48, cur') ∧ cur'.rest = t :=
    fun _ => takeDigits_eq hdigits.2 ht.isDigit
  rcases hsign with rfl | rfl | rfl
  · obtain ⟨cur', htake, hrest⟩ := hbehind cur h
    obtain ⟨c, rest, rfl, hc⟩ := hdigits.exists_cons
    have hplus : c ≠ '+' := by rintro rfl; exact absurd hc (by decide)
    have hminus : c ≠ '-' := by rintro rfl; exact absurd hc (by decide)
    refine ⟨cur', ?_, hrest⟩
    unfold skipExponent
    simp only [h, List.nil_append, List.cons_append]
    split
    · next heq => exact absurd (List.cons.inj heq).1 hplus
    · next heq => exact absurd (List.cons.inj heq).1 hminus
    · rw [htake, if_neg hne]
  · obtain ⟨cur', htake, hrest⟩ := hbehind (cur.pass '+') (by simp [h])
    refine ⟨cur', ?_, hrest⟩
    unfold skipExponent
    simp only [h, List.cons_append, htake, if_neg hne]
  · obtain ⟨cur', htake, hrest⟩ := hbehind (cur.pass '-') (by simp [h])
    refine ⟨cur', ?_, hrest⟩
    unfold skipExponent
    simp only [h, List.cons_append, htake, if_neg hne]

/-- What follows the digits of a number is nothing more, or an exponent. -/
theorem skips_exponent {exponent : List Char} {r : Except Fault Cursor}
    (hexponent : exponent = [] ∨ IsExponent exponent) (ht : Ends t) (h : cur.rest = exponent ++ t)
    (hlower : ∀ u, cur.rest = 'e' :: u → r = skipExponent (cur.pass 'e'))
    (hupper : ∀ u, cur.rest = 'E' :: u → r = skipExponent (cur.pass 'E'))
    (hnone : (∀ u, cur.rest ≠ 'e' :: u) → (∀ u, cur.rest ≠ 'E' :: u) → r = .ok cur) :
    ∃ cur', r = .ok cur' ∧ cur'.rest = t := by
  rcases hexponent with rfl | ⟨mark, sign, digits, rfl, hmark, hsign, hdigits⟩
  · have hend : cur.rest = t := h
    refine ⟨cur, hnone ?_ ?_, hend⟩
    · exact fun u hu => ht.ne_cons (by simp) u (hend.symm.trans hu)
    · exact fun u hu => ht.ne_cons (by simp) u (hend.symm.trans hu)
  · rcases hmark with rfl | rfl
    · rw [hlower _ h]
      exact skipExponent_eq_ok hsign hdigits ht (by simp [h])
    · rw [hupper _ h]
      exact skipExponent_eq_ok hsign hdigits ht (by simp [h])

theorem eq_zero_of_isDigit {c : Char} (hc : c.isDigit = true) (h : c.toNat - 48 = 0) : c = '0' := by
  simp only [Char.isDigit, Bool.and_eq_true, decide_eq_true_eq] at hc
  have hlow : 48 ≤ c.toNat := hc.1
  have hvalue : c.toNat = '0'.toNat := by
    have : '0'.toNat = 48 := rfl
    omega
  rw [← Char.ofNat_toNat c, hvalue]
  rfl

/-- No digit and no point stands at the front of an exponent or behind a number. -/
theorem head_exponent {exponent : List Char} (hexponent : exponent = [] ∨ IsExponent exponent)
    (ht : Ends t) : ∀ c, (exponent ++ t).head? = some c → c.isDigit = false ∧ c ≠ '.' := by
  intro c hc
  rcases hexponent with rfl | ⟨mark, sign, digits, rfl, hmark, -⟩
  · refine ⟨ht.isDigit c hc, ?_⟩
    rintro rfl
    obtain ⟨u, hu⟩ := List.head?_eq_some_iff.mp hc
    exact ht.ne_cons (.inl rfl) u hu
  · cases hc
    rcases hmark with rfl | rfl <;> decide

/-- No digit stands behind the whole part of a number. -/
theorem head_decimals {decimals exponent : List Char}
    (hdecimals : decimals = [] ∨ IsDecimals decimals)
    (hexponent : exponent = [] ∨ IsExponent exponent) (ht : Ends t) :
    ∀ c, (decimals ++ (exponent ++ t)).head? = some c → c.isDigit = false := by
  intro c hc
  rcases hdecimals with rfl | ⟨digits, rfl, -⟩
  · exact (head_exponent hexponent ht c hc).1
  · cases hc
    decide

/-- A zero in front of a number is its only digit. -/
theorem eq_nil_of_zero {whole : List Char} (hwhole : IsDigits whole)
    (hzero : ∀ rest, whole = '0' :: rest → rest = []) {ds : List Nat}
    (h : whole.map (fun c => c.toNat - 48) = 0 :: ds) : ds = [] := by
  obtain ⟨c, rest, rfl, hc⟩ := hwhole.exists_cons
  obtain ⟨hvalue, rfl⟩ := List.cons.inj h
  rw [hzero rest (by rw [eq_zero_of_isDigit hc hvalue]), List.map_nil]

theorem skipNumber_eq_ok {cs : List Char} (hcs : IsUnsigned cs) (ht : Ends t)
    (h : cur.rest = cs ++ t) : ∃ cur', skipNumber cur = .ok cur' ∧ cur'.rest = t := by
  obtain ⟨whole, decimals, exponent, rfl, hwhole, hzero, hdecimals, hexponent⟩ := hcs
  have hpoint := head_exponent hexponent ht
  obtain ⟨cur₁, htake, hrest₁⟩ :=
    takeDigits_eq hwhole.2 (head_decimals hdecimals hexponent ht) (by simpa using h)
  unfold skipNumber
  simp only [htake]
  split
  · next heq => exact absurd (List.map_eq_nil_iff.mp heq) hwhole.1
  · next _ _ heq => cases eq_nil_of_zero hwhole hzero heq
  · rcases hdecimals with rfl | ⟨digits, rfl, hdigits⟩
    · rw [List.nil_append] at hrest₁
      refine skips_exponent hexponent ht hrest₁ ?_ ?_ ?_
      · intro u hu
        simp only [hu]
      · intro u hu
        simp only [hu]
      · intro hlower hupper
        split
        · next hu => exact absurd rfl (hpoint '.' (by rw [← hrest₁, hu]; rfl)).2
        · next hu => exact absurd hu (hlower _)
        · next hu => exact absurd hu (hupper _)
        · rfl
    · have hpass : (cur₁.pass '.').rest = digits ++ (exponent ++ t) := by simp [hrest₁]
      obtain ⟨cur₂, htake₂, hrest₂⟩ := takeDigits_eq hdigits.2 (fun c hc => (hpoint c hc).1) hpass
      have hne : digits.map (fun c => c.toNat - 48) ≠ [] := by simpa using hdigits.1
      simp only [hrest₁, List.cons_append, htake₂, if_neg hne]
      refine skips_exponent hexponent ht hrest₂ ?_ ?_ ?_
      · intro u hu
        simp only [hu]
      · intro u hu
        simp only [hu]
      · intro hlower hupper
        split
        · next hu => exact absurd hu (hlower _)
        · next hu => exact absurd hu (hupper _)
        · rfl

end Numbers

/-! ## Values without parts -/

theorem ne_of_isDigit {c d : Char} (hc : c.isDigit = true) (hd : d.isDigit = false) : c ≠ d := by
  rintro rfl
  rw [hc] at hd
  cases hd

theorem skipScalar_digit {c : Char} (hc : c.isDigit = true) (cur : Cursor) :
    skipScalar c cur = skipNumber cur := by
  unfold skipScalar
  split
  · exact absurd rfl (ne_of_isDigit hc (by decide))
  · exact absurd rfl (ne_of_isDigit hc (by decide))
  · exact absurd rfl (ne_of_isDigit hc (by decide))
  · exact absurd rfl (ne_of_isDigit hc (by decide))
  · exact absurd rfl (ne_of_isDigit hc (by decide))
  · rw [if_pos hc]

theorem skipScalar_eq_ok {d : Doc} {c : Char} {l t : List Char} {cur : Cursor}
    (hd : IsValue d l t) (hscalar : d.IsScalar) (ht : Ends t) (h : cur.rest = l)
    (hc : l.head? = some c) : ∃ cur', skipScalar c cur = .ok cur' ∧ cur'.rest = t := by
  cases hd with
  | null =>
    cases hc
    exact readLetters_eq_ok (by simp [h])
  | true =>
    cases hc
    exact readLetters_eq_ok (by simp [h])
  | false =>
    cases hc
    exact readLetters_eq_ok (by simp [h])
  | number hnumber =>
    rcases hnumber with hunsigned | ⟨rest, rfl, hunsigned⟩
    · obtain ⟨first, rest, rfl, hfirst⟩ := hunsigned.exists_cons
      cases hc
      rw [skipScalar_digit hfirst]
      exact skipNumber_eq_ok hunsigned ht h
    · cases hc
      exact skipNumber_eq_ok hunsigned ht (by simp [h])
  | text =>
    cases hc
    exact skipText_spelled (by rw [Cursor.rest_pass, h, List.tail_cons])
  | list => exact hscalar.elim
  | object => exact hscalar.elim

end CertRegistry.Json
