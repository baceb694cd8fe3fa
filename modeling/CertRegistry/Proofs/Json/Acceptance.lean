import CertRegistry.Proofs.Json.Numbers
import CertRegistry.Proofs.Json.Skipping
import CertRegistry.Proofs.Stages

/-!
# What is accepted has been spelled

Whatever the readers of texts and numbers take, and whatever is skipped, is what the grammar has for
it. A reader that skips keeps what is open in a list, so that a value is known to be one only when
all that is open has been closed.
-/

namespace CertRegistry.Json

variable {cur cur' : Cursor}

theorem gap_skipBlanks (cur : Cursor) : Gap cur.rest cur.skipBlanks.rest := by
  rw [Cursor.rest_skipBlanks]
  exact ⟨cur.rest.takeWhile isSpace, List.takeWhile_append_dropWhile.symm,
    fun _ => List.mem_takeWhile_imp⟩

/-- A place behind blanks that begins with a sign. -/
theorem gap_of_skipBlanks {l : List Char} (h : cur.skipBlanks.rest = l) : Gap cur.rest l :=
  h ▸ gap_skipBlanks cur

theorem eq_of_readLetters {letters : List Char} (h : readLetters letters cur = .ok cur') :
    cur.rest = letters ++ cur'.rest := by
  induction letters generalizing cur with
  | nil =>
    cases h
    rfl
  | cons c letters ih =>
    rw [readLetters] at h
    cases hcur : cur.rest with
    | nil =>
      rw [hcur] at h
      cases h
    | cons d rest =>
      rw [hcur] at h
      simp only at h
      split at h
      · next hd =>
        have := ih h
        rw [Cursor.rest_pass, hcur, List.tail_cons] at this
        rw [hd, this, List.cons_append]
      · cases h

/-! ## Texts -/

theorem eq_of_readHexCode {n : Nat} (h : readHexCode cur = .ok (n, cur')) :
    ∃ a b c d : HexDigit, cur.rest = a.char :: b.char :: c.char :: d.char :: cur'.rest := by
  unfold readHexCode at h
  split at h
  · next hdigits =>
    obtain rfl := (Prod.mk.inj (Except.ok.inj h)).2
    have hchars := mapM_eq_some.mp hdigits
    -- the characters of the digits are the first four
    obtain ⟨a, _, ha, htail₁, htake⟩ := List.forall₂_cons_right_iff.mp hchars
    obtain ⟨b, _, hb, htail₂, rfl⟩ := List.forall₂_cons_right_iff.mp htail₁
    obtain ⟨c, _, hc, htail₃, rfl⟩ := List.forall₂_cons_right_iff.mp htail₂
    obtain ⟨d, _, hd, htail₄, rfl⟩ := List.forall₂_cons_right_iff.mp htail₃
    obtain rfl := List.forall₂_nil_right_iff.mp htail₄
    have hrest : cur.rest = [a, b, c, d] ++ cur.rest.drop 4 := by
      rw [← htake, List.take_append_drop]
    have hsizes : ∀ e ∈ [a, b, c, d], e.utf8Size = 1 := by
      simp [utf8Size_of_hexDigit? ha, utf8Size_of_hexDigit? hb, utf8Size_of_hexDigit? hc,
        utf8Size_of_hexDigit? hd]
    have hbehind : (cur.passOctets 4).rest = cur.rest.drop 4 :=
      Cursor.rest_passOctets hsizes hrest
    refine ⟨⟨a, _, ha⟩, ⟨b, _, hb⟩, ⟨c, _, hc⟩, ⟨d, _, hd⟩, ?_⟩
    rw [hbehind]
    exact hrest
  · simp only at h
    split at h <;> cases h

theorem eq_of_readInCodePair {e : Char} (h : readInCodePair e cur = .ok cur') :
    cur.rest = e :: cur'.rest := by
  unfold readInCodePair at h
  split at h
  · cases h
  · next c rest hcur =>
    split at h
    · next hc =>
      obtain rfl := Except.ok.inj h
      rw [Cursor.rest_pass, hcur, List.tail_cons, hc]
    · cases h

/-- A character that is told by a code takes one code or two. -/
theorem eq_of_readCode {ch : Char} (h : readCode cur = .ok (ch, cur')) :
    ∃ spelled : List Spelled,
      '\\' :: 'u' :: cur.rest = spelled.flatMap Spelled.chars ++ cur'.rest := by
  unfold readCode at h
  obtain ⟨⟨high, cur₁⟩, hhigh, h⟩ := bind_eq_ok.mp h
  obtain ⟨a, b, c, d, hcur⟩ := eq_of_readHexCode hhigh
  simp only at h
  split at h
  · cases h
  split at h
  · obtain rfl := (Prod.mk.inj (Except.ok.inj h)).2
    exact ⟨[.code a b c d], by simp [Spelled.chars, hcur]⟩
  · obtain ⟨cur₂, hslash, h⟩ := bind_eq_ok.mp h
    obtain ⟨cur₃, hletter, h⟩ := bind_eq_ok.mp h
    obtain ⟨⟨low, cur₄⟩, hlow, h⟩ := bind_eq_ok.mp h
    obtain ⟨a', b', c', d', hcur₃⟩ := eq_of_readHexCode hlow
    simp only at h
    split at h
    · obtain rfl := (Prod.mk.inj (Except.ok.inj h)).2
      refine ⟨[.code a b c d, .code a' b' c' d'], ?_⟩
      simp [Spelled.chars, hcur, eq_of_readInCodePair hslash, eq_of_readInCodePair hletter, hcur₃]
    · cases h

theorem eq_of_readEscape {ch : Char} (h : readEscape cur = .ok (ch, cur')) :
    ∃ spelled : List Spelled, '\\' :: cur.rest = spelled.flatMap Spelled.chars ++ cur'.rest := by
  unfold readEscape at h
  split at h
  · cases h
  · next c rest hcur =>
    split at h
    · next hc =>
      obtain ⟨spelled, hspelled⟩ := eq_of_readCode h
      refine ⟨spelled, ?_⟩
      rw [← hspelled, Cursor.rest_pass, hcur, List.tail_cons, hc]
    · cases hletter : escapedChar? c with
      | none =>
        rw [hletter] at h
        cases h
      | some d =>
        rw [hletter] at h
        obtain rfl := (Prod.mk.inj (Except.ok.inj h)).2
        exact ⟨[.letter c d hletter], by simp [Spelled.chars, hcur]⟩

theorem eq_of_readTextFrom {count : Nat} {seen : List Char} {s : String}
    (h : readTextFrom count seen cur = .ok (s, cur')) :
    ∃ spelled : List Spelled, cur.rest = spelled.flatMap Spelled.chars ++ '"' :: cur'.rest := by
  induction count generalizing seen cur with
  | zero => cases h
  | succ count ih =>
    rw [readTextFrom] at h
    split at h
    · cases h
    · next c rest hcur =>
      split at h
      · next hc =>
        obtain rfl := (Prod.mk.inj (Except.ok.inj h)).2
        exact ⟨[], by simp [hcur, hc]⟩
      split at h
      · next hquote hc =>
        split at h
        · next hescape =>
          obtain ⟨front, hfront⟩ := eq_of_readEscape hescape
          obtain ⟨spelled, hspelled⟩ := ih h
          refine ⟨front ++ spelled, ?_⟩
          rw [List.flatMap_append, List.append_assoc, ← hspelled, ← hfront, Cursor.rest_pass, hcur,
            List.tail_cons, hc]
        · cases h
      split at h
      · cases h
      · next hquote hslash hvisible =>
        obtain ⟨spelled, hspelled⟩ := ih h
        refine ⟨.plain c ⟨hquote, hslash, Nat.le_of_not_lt hvisible⟩ :: spelled, ?_⟩
        rw [Cursor.rest_pass, hcur, List.tail_cons] at hspelled
        rw [hcur, hspelled]
        rfl

theorem eq_of_readText {s : String} (h : readText cur = .ok (s, cur')) :
    ∃ spelled : List Spelled, cur.rest = spelled.flatMap Spelled.chars ++ '"' :: cur'.rest :=
  eq_of_readTextFrom h

theorem eq_of_skipEscape (h : skipEscape cur = .ok cur') :
    ∃ next : Spelled, '\\' :: cur.rest = next.chars ++ cur'.rest := by
  unfold skipEscape at h
  split at h
  · cases h
  · next c rest hcur =>
    split at h
    · next hc =>
      obtain ⟨⟨n, cur₁⟩, hcode, rfl⟩ := map_eq_ok.mp h
      obtain ⟨a, b, c', d, hdigits⟩ := eq_of_readHexCode hcode
      rw [Cursor.rest_pass, hcur, List.tail_cons] at hdigits
      exact ⟨.code a b c' d, by simp [Spelled.chars, hcur, hc, hdigits]⟩
    split at h
    · next hletter =>
      obtain ⟨d, hd⟩ := Option.isSome_iff_exists.mp hletter
      obtain rfl := Except.ok.inj h
      exact ⟨.letter c d hd, by simp [Spelled.chars, hcur]⟩
    · cases h

theorem eq_of_skipTextFrom {count : Nat} (h : skipTextFrom count cur = .ok cur') :
    ∃ spelled : List Spelled, cur.rest = spelled.flatMap Spelled.chars ++ '"' :: cur'.rest := by
  induction count generalizing cur with
  | zero => cases h
  | succ count ih =>
    rw [skipTextFrom] at h
    split at h
    · cases h
    · next c rest hcur =>
      split at h
      · next hc =>
        obtain rfl := Except.ok.inj h
        exact ⟨[], by simp [hcur, hc]⟩
      split at h
      · next hquote hc =>
        split at h
        · next hescape =>
          obtain ⟨front, hfront⟩ := eq_of_skipEscape hescape
          obtain ⟨spelled, hspelled⟩ := ih h
          refine ⟨front :: spelled, ?_⟩
          rw [List.flatMap_cons, List.append_assoc, ← hspelled, ← hfront, Cursor.rest_pass, hcur,
            List.tail_cons, hc]
        · cases h
      split at h
      · cases h
      · next hquote hslash hvisible =>
        obtain ⟨spelled, hspelled⟩ := ih h
        refine ⟨.plain c ⟨hquote, hslash, Nat.le_of_not_lt hvisible⟩ :: spelled, ?_⟩
        rw [Cursor.rest_pass, hcur, List.tail_cons] at hspelled
        rw [hcur, hspelled]
        rfl

theorem eq_of_skipText (h : skipText cur = .ok cur') :
    ∃ spelled : List Spelled, cur.rest = spelled.flatMap Spelled.chars ++ '"' :: cur'.rest :=
  eq_of_skipTextFrom h

/-! ## Numbers -/

/-- What is taken is all the digits at the front. -/
theorem eq_of_takeDigits {digits : List Nat} (h : takeDigits cur = (digits, cur')) :
    ∃ cs, cur.rest = cs ++ cur'.rest ∧ (∀ c ∈ cs, c.isDigit = true) ∧
      digits = cs.map fun c => c.toNat - 48 := by
  obtain ⟨rfl, rfl⟩ := Prod.mk.inj h
  exact ⟨cur.rest.takeWhile Char.isDigit, List.takeWhile_append_dropWhile.symm,
    fun _ => List.mem_takeWhile_imp, rfl⟩

theorem isDigits_of_takeDigits {digits : List Nat} (h : takeDigits cur = (digits, cur'))
    (hne : digits ≠ []) : ∃ cs, cur.rest = cs ++ cur'.rest ∧ IsDigits cs := by
  obtain ⟨cs, hcur, hdigits, rfl⟩ := eq_of_takeDigits h
  exact ⟨cs, hcur, by simpa using hne, hdigits⟩

/-- Whether characters are the sign of an exponent, if there is one. -/
def IsSign (sign : List Char) : Prop := sign = [] ∨ sign = ['+'] ∨ sign = ['-']

section Readers

variable {negative : Bool} {significand : Nat} {scale : Int} {x : Number}

theorem eq_of_finish (h : finish negative significand scale cur = .ok (x, cur')) : cur' = cur := by
  unfold finish at h
  split at h
  · exact (Prod.mk.inj (Except.ok.inj h)).2.symm
  · cases h

theorem isDigits_of_readPower {down : Bool}
    (h : readPower negative significand scale down cur = .ok (x, cur')) :
    ∃ digits, cur.rest = digits ++ cur'.rest ∧ IsDigits digits := by
  unfold readPower at h
  rcases htake : takeDigits cur with ⟨digits, after⟩
  simp only [htake] at h
  split at h
  · split at h <;> cases h
  · next hne =>
    obtain ⟨cs, hcur, hdigits⟩ := isDigits_of_takeDigits htake hne
    split at h
    · split at h
      · cases h
      · obtain rfl := (Prod.mk.inj (Except.ok.inj h)).2
        exact ⟨cs, hcur, hdigits⟩
    · obtain rfl := eq_of_finish h
      exact ⟨cs, hcur, hdigits⟩

theorem exists_readPower : ∃ sign down cur₁, IsSign sign ∧ cur.rest = sign ++ cur₁.rest ∧
    readExponent negative significand scale cur =
      readPower negative significand scale down cur₁ := by
  by_cases hplus : ∃ t, cur.rest = '+' :: t
  · obtain ⟨t, hcur⟩ := hplus
    exact ⟨['+'], false, cur.pass '+', .inr (.inl rfl), by simp [hcur],
      readExponent_plus _ _ _ hcur⟩
  by_cases hminus : ∃ t, cur.rest = '-' :: t
  · obtain ⟨t, hcur⟩ := hminus
    exact ⟨['-'], true, cur.pass '-', .inr (.inr rfl), by simp [hcur],
      readExponent_minus _ _ _ hcur⟩
  · exact ⟨[], false, cur, .inl rfl, rfl, readExponent_unsigned _ _ _
      (fun t h => hplus ⟨t, h⟩) fun t h => hminus ⟨t, h⟩⟩

theorem eq_of_readExponent (h : readExponent negative significand scale cur = .ok (x, cur')) :
    ∃ sign digits, IsSign sign ∧ IsDigits digits ∧ cur.rest = sign ++ digits ++ cur'.rest := by
  obtain ⟨sign, down, cur₁, hsign, hcur, hread⟩ :=
    @exists_readPower cur negative significand scale
  obtain ⟨digits, hcur₁, hdigits⟩ := isDigits_of_readPower (hread ▸ h)
  exact ⟨sign, digits, hsign, hdigits, by rw [hcur, hcur₁, List.append_assoc]⟩

theorem eq_of_readTail (h : readTail negative significand scale cur = .ok (x, cur')) :
    ∃ exponent, (exponent = [] ∨ IsExponent exponent) ∧ cur.rest = exponent ++ cur'.rest := by
  unfold readTail at h
  split at h
  · next rest hcur =>
    obtain ⟨sign, digits, hsign, hdigits, hrest⟩ := eq_of_readExponent h
    rw [Cursor.rest_pass, hcur, List.tail_cons] at hrest
    exact ⟨_, .inr ⟨'e', sign, digits, rfl, .inl rfl, hsign, hdigits⟩, by rw [hcur, hrest]; rfl⟩
  · next rest hcur =>
    obtain ⟨sign, digits, hsign, hdigits, hrest⟩ := eq_of_readExponent h
    rw [Cursor.rest_pass, hcur, List.tail_cons] at hrest
    exact ⟨_, .inr ⟨'E', sign, digits, rfl, .inr rfl, hsign, hdigits⟩, by rw [hcur, hrest]; rfl⟩
  · obtain rfl := eq_of_finish h
    exact ⟨[], .inl rfl, rfl⟩

theorem eq_of_readDecimals (h : readDecimals negative significand scale cur = .ok (x, cur')) :
    ∃ digits exponent, IsDigits digits ∧ (exponent = [] ∨ IsExponent exponent) ∧
      cur.rest = digits ++ (exponent ++ cur'.rest) := by
  unfold readDecimals at h
  rcases htake : takeDigits cur with ⟨digits, after⟩
  simp only [htake] at h
  split at h
  · split at h <;> cases h
  · next hne =>
    obtain ⟨cs, hcur, hdigits⟩ := isDigits_of_takeDigits htake hne
    obtain ⟨exponent, hexponent, hafter⟩ := eq_of_readTail h
    exact ⟨cs, exponent, hdigits, hexponent, by rw [hcur, hafter]⟩

end Readers

/-- The whole part of a number has no needless zeros before it. -/
theorem isWhole_of_takeDigits {digits : List Nat} (h : takeDigits cur = (digits, cur'))
    (hne : digits ≠ []) (hzero : ∀ d ds, digits ≠ 0 :: d :: ds) :
    ∃ whole, cur.rest = whole ++ cur'.rest ∧ IsDigits whole ∧
      ∀ rest, whole = '0' :: rest → rest = [] := by
  obtain ⟨whole, hcur, hdigits, rfl⟩ := eq_of_takeDigits h
  refine ⟨whole, hcur, ⟨by simpa using hne, hdigits⟩, ?_⟩
  rintro rest rfl
  cases rest with
  | nil => rfl
  | cons d rest => exact absurd rfl (hzero _ _)

/-- Whatever is read as a number is one. -/
theorem isUnsigned_of_readNumber {negative : Bool} {x : Number}
    (h : readNumber negative cur = .ok (x, cur')) :
    ∃ cs, IsUnsigned cs ∧ cur.rest = cs ++ cur'.rest := by
  unfold readNumber at h
  rcases htake : takeDigits cur with ⟨digits, after⟩
  simp only [htake] at h
  split at h
  · split at h <;> cases h
  · cases h
  · next hne hzero =>
    obtain ⟨whole, hcur, hwhole, hsingle⟩ := isWhole_of_takeDigits htake hne hzero
    have htail : ∀ {significand : Nat} {scale : Int},
        readTail negative significand scale after = .ok (x, cur') →
          ∃ cs, IsUnsigned cs ∧ cur.rest = cs ++ cur'.rest := by
      intro significand scale h
      obtain ⟨exponent, hexponent, hafter⟩ := eq_of_readTail h
      exact ⟨whole ++ ([] ++ exponent), ⟨whole, [], exponent, rfl, hwhole, hsingle, .inl rfl,
        hexponent⟩, by simp [hcur, hafter]⟩
    have hend : cur' = after → ∃ cs, IsUnsigned cs ∧ cur.rest = cs ++ cur'.rest := by
      rintro rfl
      exact ⟨whole ++ ([] ++ []), ⟨whole, [], [], rfl, hwhole, hsingle, .inl rfl, .inl rfl⟩,
        by simp [hcur]⟩
    split at h
    · next rest hafter =>
      obtain ⟨decimals, exponent, hdecimals, hexponent, hrest⟩ := eq_of_readDecimals h
      rw [Cursor.rest_pass, hafter, List.tail_cons] at hrest
      exact ⟨whole ++ ('.' :: decimals ++ exponent), ⟨whole, _, exponent, rfl, hwhole, hsingle,
        .inr ⟨decimals, rfl, hdecimals⟩, hexponent⟩, by simp [hcur, hafter, hrest]⟩
    · exact htail h
    · exact htail h
    · split at h
      · exact hend (Prod.mk.inj (Except.ok.inj h)).2.symm
      · exact hend (eq_of_finish h)

theorem eq_of_skipExponent (h : skipExponent cur = .ok cur') :
    ∃ sign digits, IsSign sign ∧ IsDigits digits ∧ cur.rest = sign ++ digits ++ cur'.rest := by
  have hpower : ∀ {cur₁ : Cursor} {sign : List Char}, IsSign sign → cur.rest = sign ++ cur₁.rest →
      (if (takeDigits cur₁).1 = [] then cur₁.failAhead .invalidNumber
        else .ok (takeDigits cur₁).2) = Except.ok cur' →
      ∃ sign digits, IsSign sign ∧ IsDigits digits ∧ cur.rest = sign ++ digits ++ cur'.rest := by
    intro cur₁ sign hsign hcur h
    split at h
    · cases h
    · next hne =>
      obtain rfl := Except.ok.inj h
      obtain ⟨digits, hcur₁, hdigits⟩ := isDigits_of_takeDigits (Prod.eta _).symm hne
      exact ⟨sign, digits, hsign, hdigits, by rw [hcur, hcur₁, List.append_assoc]⟩
  unfold skipExponent at h
  simp only at h
  split at h
  · next hcur => exact hpower (.inr (.inl rfl)) (by simp [hcur]) h
  · next hcur => exact hpower (.inr (.inr rfl)) (by simp [hcur]) h
  · exact hpower (.inl rfl) rfl h

/-- What is skipped behind the digits of a number is nothing, or an exponent. -/
theorem eq_of_skipTail (after : Cursor) {r : Except Fault Cursor} (h : r = .ok cur')
    (hlower : ∀ u, after.rest = 'e' :: u → r = skipExponent (after.pass 'e'))
    (hupper : ∀ u, after.rest = 'E' :: u → r = skipExponent (after.pass 'E'))
    (hnone : (∀ u, after.rest ≠ 'e' :: u) → (∀ u, after.rest ≠ 'E' :: u) → r = .ok after) :
    ∃ exponent, (exponent = [] ∨ IsExponent exponent) ∧ after.rest = exponent ++ cur'.rest := by
  by_cases he : ∃ u, after.rest = 'e' :: u
  · obtain ⟨u, hu⟩ := he
    obtain ⟨sign, digits, hsign, hdigits, hrest⟩ := eq_of_skipExponent ((hlower u hu).symm.trans h)
    rw [Cursor.rest_pass, hu, List.tail_cons] at hrest
    exact ⟨_, .inr ⟨'e', sign, digits, rfl, .inl rfl, hsign, hdigits⟩, by rw [hu, hrest]; rfl⟩
  by_cases hE : ∃ u, after.rest = 'E' :: u
  · obtain ⟨u, hu⟩ := hE
    obtain ⟨sign, digits, hsign, hdigits, hrest⟩ := eq_of_skipExponent ((hupper u hu).symm.trans h)
    rw [Cursor.rest_pass, hu, List.tail_cons] at hrest
    exact ⟨_, .inr ⟨'E', sign, digits, rfl, .inr rfl, hsign, hdigits⟩, by rw [hu, hrest]; rfl⟩
  · have hsame := (hnone (fun u h => he ⟨u, h⟩) fun u h => hE ⟨u, h⟩).symm.trans h
    obtain rfl := Except.ok.inj hsame
    exact ⟨[], .inl rfl, rfl⟩

/-- Whatever is skipped as a number is one. -/
theorem isUnsigned_of_skipNumber (h : skipNumber cur = .ok cur') :
    ∃ cs, IsUnsigned cs ∧ cur.rest = cs ++ cur'.rest := by
  unfold skipNumber at h
  rcases htake : takeDigits cur with ⟨digits, after⟩
  simp only [htake] at h
  split at h
  · cases h
  · cases h
  · next hne hzero =>
    obtain ⟨whole, hcur, hwhole, hsingle⟩ := isWhole_of_takeDigits htake hne hzero
    by_cases hpoint : ∃ u, after.rest = '.' :: u
    · obtain ⟨u, hafter⟩ := hpoint
      rcases hdecimals : takeDigits (after.pass '.') with ⟨decimals, behind⟩
      simp only [hafter, hdecimals] at h
      split at h
      · cases h
      · next hsome =>
        obtain ⟨cs, hpass, hcs⟩ := isDigits_of_takeDigits hdecimals hsome
        rw [Cursor.rest_pass, hafter, List.tail_cons] at hpass
        obtain ⟨exponent, hexponent, hbehind⟩ := eq_of_skipTail behind h
          (fun u hu => by simp only [hu]) (fun u hu => by simp only [hu])
          (fun hlower hupper => by
            split
            · next hu => exact absurd hu (hlower _)
            · next hu => exact absurd hu (hupper _)
            · rfl)
        exact ⟨whole ++ ('.' :: cs ++ exponent), ⟨whole, _, exponent, rfl, hwhole, hsingle,
          .inr ⟨cs, rfl, hcs⟩, hexponent⟩, by simp [hcur, hafter, hpass, hbehind]⟩
    · obtain ⟨exponent, hexponent, hafter⟩ := eq_of_skipTail after h
        (fun u hu => by simp only [hu]) (fun u hu => by simp only [hu])
        (fun hlower hupper => by
          split
          · next hu => exact absurd ⟨_, hu⟩ hpoint
          · next hu => exact absurd hu (hlower _)
          · next hu => exact absurd hu (hupper _)
          · rfl)
      exact ⟨whole ++ ([] ++ exponent), ⟨whole, [], exponent, rfl, hwhole, hsingle, .inl rfl,
        hexponent⟩, by simp [hcur, hafter]⟩

/-! ## Values without parts -/

/-- A word of which the first letter was there already. -/
theorem eq_of_word {letters rest : List Char} {c : Char} (hcur : cur.rest = c :: rest)
    (h : readLetters letters (cur.pass c) = .ok cur') : cur.rest = c :: (letters ++ cur'.rest) := by
  have hrest := eq_of_readLetters h
  rw [Cursor.rest_pass, hcur, List.tail_cons] at hrest
  rw [hcur, hrest]

theorem isValue_of_skipScalar {c : Char} {rest : List Char} (hcur : cur.rest = c :: rest)
    (h : skipScalar c cur = .ok cur') : ∃ d, IsValue d cur.rest cur'.rest := by
  unfold skipScalar at h
  split at h
  · exact ⟨.null, eq_of_word hcur h ▸ .null⟩
  · exact ⟨.bool true, eq_of_word hcur h ▸ .true⟩
  · exact ⟨.bool false, eq_of_word hcur h ▸ .false⟩
  · obtain ⟨spelled, hspelled⟩ := eq_of_skipText h
    rw [Cursor.rest_pass, hcur, List.tail_cons] at hspelled
    exact ⟨.text spelled, by rw [hcur, hspelled]; exact .text⟩
  · obtain ⟨cs, hcs, hrest⟩ := isUnsigned_of_skipNumber h
    rw [Cursor.rest_pass, hcur, List.tail_cons] at hrest
    exact ⟨.number ('-' :: cs), by rw [hcur, hrest]; exact .number (.inr ⟨cs, rfl, hcs⟩)⟩
  · split at h
    · obtain ⟨cs, hcs, hrest⟩ := isUnsigned_of_skipNumber h
      exact ⟨.number cs, by rw [hrest]; exact .number (.inl hcs)⟩
    · cases h

/-! ## Values that are skipped -/

theorem Separates.gap {first : Bool} {l t u : List Char} (h : Separates first l t)
    (h' : Gap t u) : Separates first l u := by
  cases h with
  | first h => exact .first (h.trans h')
  | comma h h'' => exact .comma h (h''.trans h')

theorem Frame.eq_of_list {c : Char} (h : ofOpening? c = some list) : c = '[' := by
  unfold ofOpening? at h
  split at h
  · assumption
  · split at h <;> cases h

theorem Frame.eq_of_object {c : Char} (h : ofOpening? c = some object) : c = '\x7b' := by
  unfold ofOpening? at h
  split at h
  · cases h
  · split at h
    · assumption
    · cases h

/-- What is left to come when frames are open: the rest of the innermost one, of which the first
part may not have come yet, and then the rests of the others. -/
def Closes : Bool → List Frame → List Char → List Char → Prop
  | _, [], t, u => t = u
  | first, .list :: outer, t, u =>
    ∃ items t', IsItems first items t t' ∧ Closes false outer t' u
  | first, .object :: outer, t, u =>
    ∃ members t', IsMembers first members t t' ∧ Closes false outer t' u

/-- Whether a value comes next, and then what is left of the frames. -/
def GoesOn (frames : List Frame) (t u : List Char) : Prop :=
  ∃ d l t', Gap t l ∧ IsValue d l t' ∧ Closes false frames t' u

theorem eq_of_skipKey (h : skipKey cur = .ok cur') : ∃ (key : List Spelled) (k : List Char),
    Gap cur.rest ('"' :: (key.flatMap Spelled.chars ++ '"' :: k)) ∧ Gap k (':' :: cur'.rest) := by
  unfold skipKey at h
  simp only at h
  split at h
  · cases h
  · next c rest hcur =>
    split at h
    · cases h
    · next hquote =>
      obtain rfl : c = '"' := by simpa using hquote
      obtain ⟨cur₁, hskip, h⟩ := bind_eq_ok.mp h
      obtain ⟨key, hkey⟩ := eq_of_skipText hskip
      rw [Cursor.rest_pass, hcur, List.tail_cons] at hkey
      refine ⟨key, cur₁.rest, gap_of_skipBlanks (by rw [hcur, hkey]), ?_⟩
      split at h
      · cases h
      · next c' rest' hcur₁ =>
        split at h
        · next hcolon =>
          obtain rfl := Except.ok.inj h
          exact gap_of_skipBlanks (by rw [Cursor.rest_pass, hcur₁, hcolon, List.tail_cons])
        · cases h

section Frames

variable {count : Nat} {outer : List Frame}

/-- A part of the innermost frame follows. -/
theorem Closes.of_enter {frame : Frame} {first : Bool} {l : List Char}
    (hskip : ∀ {frames : List Frame} {cur : Cursor}, skipOpen count frames cur = .ok cur' →
      GoesOn frames cur.rest cur'.rest)
    (hbefore : Separates first l cur.rest)
    (h : resume count (enter frame outer cur) = .ok cur') :
    Closes first (frame :: outer) l cur'.rest := by
  cases frame with
  | list =>
    obtain ⟨d, v, t, hgap, hvalue, items, t', hitems, hclose⟩ := hskip h
    exact ⟨d :: items, t', .item (hbefore.gap hgap) hvalue hitems, hclose⟩
  | object =>
    obtain ⟨next, hnext, h⟩ := bind_eq_ok.mp h
    obtain ⟨cur₁, hkey, rfl⟩ := map_eq_ok.mp hnext
    obtain ⟨key, k, hgap, hcolon⟩ := eq_of_skipKey hkey
    obtain ⟨d, v, t, hgap', hvalue, members, t', hmembers, hclose⟩ := hskip h
    exact ⟨(key, d) :: members, t', .member (hbefore.gap hgap) hcolon hgap' hvalue hmembers, hclose⟩

theorem Closes.of_end {frame : Frame} {first : Bool} {l t u : List Char}
    (hgap : Gap l (frame.closing :: t)) (h : Closes false outer t u) :
    Closes first (frame :: outer) l u := by
  cases frame with
  | list => exact ⟨[], t, .done hgap, h⟩
  | object => exact ⟨[], t, .done hgap, h⟩

theorem closes_of_closeFrames
    (hskip : ∀ {frames : List Frame} {cur : Cursor}, skipOpen count frames cur = .ok cur' →
      GoesOn frames cur.rest cur'.rest)
    {frames : List Frame} {first : Bool} {cur : Cursor}
    (h : resume count (closeFrames frames (!first) cur) = .ok cur') :
    Closes first frames cur.rest cur'.rest := by
  induction frames generalizing first cur with
  | nil =>
    obtain rfl := Except.ok.inj h
    rfl
  | cons frame outer ih =>
    rw [closeFrames] at h
    split at h
    · cases h
    · next c rest hcur =>
      have hbehind : (cur.skipBlanks.pass c).rest = rest := by simp [hcur]
      split at h
      · next hcomma =>
        obtain ⟨rfl, hcomma⟩ := hcomma
        obtain rfl : first = false := by simpa using hcomma
        refine Closes.of_enter hskip ?_ h
        exact .comma (gap_of_skipBlanks hcur) (by rw [hbehind]; exact .refl _)
      split at h
      · next hclosing =>
        subst hclosing
        exact Closes.of_end (gap_of_skipBlanks hcur) (hbehind ▸ ih h)
      split at h
      · cases h
      · next hfirst =>
        obtain rfl : first = true := by simpa using hfirst
        exact Closes.of_enter hskip (.first (gap_skipBlanks cur)) h

end Frames

theorem goesOn_of_skipOpen {count : Nat} {frames : List Frame}
    (h : skipOpen count frames cur = .ok cur') : GoesOn frames cur.rest cur'.rest := by
  induction count generalizing frames cur with
  | zero => cases h
  | succ count ih =>
    cases hcur : cur.skipBlanks.rest with
    | nil =>
      rw [skipOpen] at h
      simp only [hcur] at h
      cases h
    | cons c rest =>
      have hgap := gap_of_skipBlanks hcur
      have hbehind : (cur.skipBlanks.pass c).rest = rest := by simp [hcur]
      cases hopening : Frame.ofOpening? c with
      | some frame =>
        rw [skipOpen_opening hcur hopening] at h
        have hclose : Closes true (frame :: frames) (cur.skipBlanks.pass c).rest cur'.rest :=
          closes_of_closeFrames ih h
        rw [hbehind] at hclose
        cases frame with
        | list =>
          obtain rfl := Frame.eq_of_list hopening
          obtain ⟨items, t, hitems, hclose⟩ := hclose
          exact ⟨.list items, _, t, hgap, .list hitems, hclose⟩
        | object =>
          obtain rfl := Frame.eq_of_object hopening
          obtain ⟨members, t, hmembers, hclose⟩ := hclose
          exact ⟨.object members, _, t, hgap, .object hmembers, hclose⟩
      | none =>
        cases hskip : skipScalar c cur.skipBlanks with
        | error fault =>
          rw [skipOpen] at h
          simp only [hcur, hopening, hskip] at h
          cases h
        | ok cur₁ =>
          rw [skipOpen_scalar hcur hopening hskip] at h
          obtain ⟨d, hvalue⟩ := isValue_of_skipScalar hcur hskip
          exact ⟨d, _, _, gap_skipBlanks cur, hvalue, closes_of_closeFrames ih h⟩

/-- Whatever is skipped as a value is one. -/
theorem isValue_of_skipValue (h : skipValue cur = .ok cur') :
    ∃ d l, Gap cur.rest l ∧ IsValue d l cur'.rest := by
  obtain ⟨d, l, t, hgap, hvalue, rfl⟩ := goesOn_of_skipOpen h
  exact ⟨d, l, hgap, hvalue⟩

end CertRegistry.Json
