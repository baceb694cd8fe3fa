import CertRegistry.Json.Number
import CertRegistry.Proofs.Json.Spelling
import CertRegistry.Proofs.Text.Digits

/-!
# Numbers as they are written

What a number comes to is told by its characters alone, wherever it stands in a text. It is a
natural number exactly if it is written in digits, without a sign, decimals and an exponent, and
fits 64 bits; all other numbers are negative or fractions, or out of range.
-/

namespace CertRegistry.Json

/-! ## Digits -/

theorem le_foldl_digits (ds : List Nat) (n : Nat) :
    n ≤ ds.foldl (fun n d => n * 10 + d) n := by
  induction ds generalizing n with
  | nil => exact Nat.le_refl n
  | cons d ds ih => exact (by omega : n ≤ n * 10 + d).trans (ih _)

/-- Digits are taken up to the end if the number fits 64 bits. -/
theorem takeUp_eq {ds : List Nat} {n : Nat} (h : ds.foldl (fun n d => n * 10 + d) n ≤ maxWord) :
    takeUp n ds = (ds.foldl (fun n d => n * 10 + d) n, ds.length) := by
  induction ds generalizing n with
  | nil => rfl
  | cons d ds ih =>
    rw [List.foldl_cons] at h
    have hfits : ¬ maxWord < n * 10 + d := Nat.not_lt.mpr ((le_foldl_digits ds _).trans h)
    simp only [takeUp, if_neg hfits, ih h, List.foldl_cons, List.length_cons]

/-- If the number does not fit 64 bits, some of the digits are left. -/
theorem takeUp_lt {ds : List Nat} {n : Nat} (hn : n ≤ maxWord)
    (h : maxWord < ds.foldl (fun n d => n * 10 + d) n) : (takeUp n ds).2 < ds.length := by
  induction ds generalizing n with
  | nil => exact absurd hn (Nat.not_le.mpr h)
  | cons d ds ih =>
    by_cases hfits : maxWord < n * 10 + d
    · simp [takeUp, hfits]
    · simpa [takeUp, hfits] using ih (Nat.not_lt.mp hfits) h

/-! ## Fractions -/

/-- Whether characters are read as a fraction, or as a number out of range, wherever they stand. -/
def MakesFraction (read : Cursor → Except Fault (Number × Cursor)) (cs : List Char) : Prop :=
  ∃ x? : Option Float, ∀ {t : List Char} {cur : Cursor}, Ends t → cur.rest = cs ++ t →
    Comes (read cur) (x?.map Number.fraction) t

section Fractions

variable (negative : Bool) (significand : Nat) (scale : Int)

theorem comes_finish {cur : Cursor} {t : List Char} (h : cur.rest = t) :
    Comes (finish negative significand scale cur)
      ((fraction? negative significand scale).map Number.fraction) t := by
  unfold finish
  cases fraction? negative significand scale with
  | some x => exact ⟨cur, rfl, h⟩
  | none => exact ⟨_, rfl⟩

/-- Reads the digits of an exponent, which says how far the point goes down or up. -/
def readPower (down : Bool) (cur : Cursor) : Except Fault (Number × Cursor) :=
  let (digits, after) := takeDigits cur
  if digits = [] then
    if cur.rest = [] then cur.fail .endOfValue else cur.failAhead .invalidNumber
  else
    match digitsBeyond? 2147483647 0 digits with
    | some count =>
      if significand ≠ 0 ∧ ¬ down then
        ({ cur with column := cur.column + count } : Cursor).fail .numberOutOfRange
      else .ok (.fraction (if negative then -0.0 else 0.0), after)
    | none =>
      let e : Int := digitsValue digits
      finish negative significand (if down then scale - e else scale + e) after

theorem makesFraction_readPower (down : Bool) {digits : List Char} (hdigits : IsDigits digits) :
    MakesFraction (readPower negative significand scale down) digits := by
  have hne : digits.map (fun c => c.toNat - 48) ≠ [] := by simpa using hdigits.1
  cases hbeyond : digitsBeyond? 2147483647 0 (digits.map fun c => c.toNat - 48) with
  | some count =>
    by_cases hout : significand ≠ 0 ∧ ¬ down
    · refine ⟨none, fun {t cur} ht hcur => ?_⟩
      obtain ⟨after, htake, hrest⟩ := takeDigits_eq hdigits.2 ht.isDigit hcur
      simp only [readPower, htake, if_neg hne, hbeyond, if_pos hout]
      exact ⟨_, rfl⟩
    · refine ⟨some (if negative then -0.0 else 0.0), fun {t cur} ht hcur => ?_⟩
      obtain ⟨after, htake, hrest⟩ := takeDigits_eq hdigits.2 ht.isDigit hcur
      simp only [readPower, htake, if_neg hne, hbeyond, if_neg hout]
      exact ⟨after, rfl, hrest⟩
  | none =>
    let e : Int := digitsValue (digits.map fun c => c.toNat - 48)
    refine ⟨fraction? negative significand (if down then scale - e else scale + e),
      fun {t cur} ht hcur => ?_⟩
    obtain ⟨after, htake, hrest⟩ := takeDigits_eq hdigits.2 ht.isDigit hcur
    simp only [readPower, htake, if_neg hne, hbeyond]
    exact comes_finish negative significand _ hrest

section Signs

variable {cur : Cursor} {t : List Char}

theorem readExponent_plus (h : cur.rest = '+' :: t) :
    readExponent negative significand scale cur =
      readPower negative significand scale false (cur.pass '+') := by
  unfold readExponent
  rewrite [h]
  rfl

theorem readExponent_minus (h : cur.rest = '-' :: t) :
    readExponent negative significand scale cur =
      readPower negative significand scale true (cur.pass '-') := by
  unfold readExponent
  rewrite [h]
  rfl

theorem readExponent_unsigned (hplus : ∀ t, cur.rest ≠ '+' :: t)
    (hminus : ∀ t, cur.rest ≠ '-' :: t) :
    readExponent negative significand scale cur =
      readPower negative significand scale false cur := by
  unfold readExponent
  simp only
  rfl

end Signs

theorem makesFraction_readExponent {sign digits : List Char}
    (hsign : sign = [] ∨ sign = ['+'] ∨ sign = ['-']) (hdigits : IsDigits digits) :
    MakesFraction (readExponent negative significand scale) (sign ++ digits) := by
  rcases hsign with rfl | rfl | rfl
  · obtain ⟨x?, hcomes⟩ := makesFraction_readPower negative significand scale false hdigits
    refine ⟨x?, fun {t cur} ht hcur => ?_⟩
    obtain ⟨c, rest, rfl, hc⟩ := hdigits.exists_cons
    have hplus : ∀ t, cur.rest ≠ '+' :: t := fun _ h =>
      ne_of_isDigit hc (by decide) (List.cons.inj (hcur.symm.trans h)).1
    have hminus : ∀ t, cur.rest ≠ '-' :: t := fun _ h =>
      ne_of_isDigit hc (by decide) (List.cons.inj (hcur.symm.trans h)).1
    rw [readExponent_unsigned negative significand scale hplus hminus]
    exact hcomes ht hcur
  · obtain ⟨x?, hcomes⟩ := makesFraction_readPower negative significand scale false hdigits
    refine ⟨x?, fun {t cur} ht hcur => ?_⟩
    rw [readExponent_plus negative significand scale hcur]
    exact hcomes ht (by simp [hcur])
  · obtain ⟨x?, hcomes⟩ := makesFraction_readPower negative significand scale true hdigits
    refine ⟨x?, fun {t cur} ht hcur => ?_⟩
    rw [readExponent_minus negative significand scale hcur]
    exact hcomes ht (by simp [hcur])

theorem makesFraction_readTail {exponent : List Char}
    (hexponent : exponent = [] ∨ IsExponent exponent) :
    MakesFraction (readTail negative significand scale) exponent := by
  rcases hexponent with rfl | ⟨mark, sign, digits, rfl, hmark, hsign, hdigits⟩
  · refine ⟨fraction? negative significand scale, fun {t cur} ht hcur => ?_⟩
    have hread : readTail negative significand scale cur =
        finish negative significand scale cur := by
      unfold readTail
      split
      · next hu => exact absurd (hcur.symm.trans hu) (ht.ne_cons (by simp) _)
      · next hu => exact absurd (hcur.symm.trans hu) (ht.ne_cons (by simp) _)
      · rfl
    rw [hread]
    exact comes_finish negative significand scale hcur
  · obtain ⟨x?, hcomes⟩ := makesFraction_readExponent negative significand scale hsign hdigits
    refine ⟨x?, fun {t cur} ht hcur => ?_⟩
    rcases hmark with rfl | rfl
    · simp only [readTail, hcur, List.cons_append]
      exact hcomes ht (by simp [hcur])
    · simp only [readTail, hcur, List.cons_append]
      exact hcomes ht (by simp [hcur])

theorem makesFraction_readDecimals {digits exponent : List Char} (hdigits : IsDigits digits)
    (hexponent : exponent = [] ∨ IsExponent exponent) :
    MakesFraction (readDecimals negative significand scale) (digits ++ exponent) := by
  have hne : digits.map (fun c => c.toNat - 48) ≠ [] := by simpa using hdigits.1
  obtain ⟨x?, hcomes⟩ := makesFraction_readTail negative
    (takeUp significand (digits.map fun c => c.toNat - 48)).1
    (scale - (takeUp significand (digits.map fun c => c.toNat - 48)).2) hexponent
  refine ⟨x?, fun {t cur} ht hcur => ?_⟩
  obtain ⟨after, htake, hrest⟩ := takeDigits_eq hdigits.2
    (fun c hc => (head_exponent hexponent ht c hc).1) (hcur.trans (List.append_assoc ..))
  simp only [readDecimals, htake, if_neg hne]
  exact hcomes ht hrest

end Fractions

/-! ## Numbers -/

/-- Reads what follows the digits of the whole part of a number. -/
def readBehind (negative : Bool) (digits : List Nat) (after : Cursor) :
    Except Fault (Number × Cursor) :=
  let (significand, count) := takeUp 0 digits
  let scale : Int := digits.length - count
  match after.rest with
  | '.' :: _ => readDecimals negative significand scale (after.pass '.')
  | 'e' :: _ | 'E' :: _ => readTail negative significand scale after
  | _ =>
    if count = digits.length then .ok (wholeNumber negative significand, after)
    else finish negative significand scale after

section Whole

variable (negative : Bool) {whole : List Char}

theorem readNumber_eq_readBehind (hwhole : IsDigits whole)
    (hzero : ∀ rest, whole = '0' :: rest → rest = []) {t : List Char}
    (ht : ∀ c, t.head? = some c → c.isDigit = false) {cur : Cursor} (hcur : cur.rest = whole ++ t) :
    ∃ after, readNumber negative cur =
      readBehind negative (whole.map fun c => c.toNat - 48) after ∧ after.rest = t := by
  obtain ⟨after, htake, hrest⟩ := takeDigits_eq hwhole.2 ht hcur
  refine ⟨after, ?_, hrest⟩
  unfold readNumber
  simp only [htake]
  split
  · next heq => exact absurd (List.map_eq_nil_iff.mp heq) hwhole.1
  · next _ _ heq => cases eq_nil_of_zero hwhole hzero heq
  · rfl

/-- A number with decimals or an exponent is a fraction. -/
theorem makesFraction_readNumber (hwhole : IsDigits whole)
    (hzero : ∀ rest, whole = '0' :: rest → rest = []) {decimals exponent : List Char}
    (hdecimals : decimals = [] ∨ IsDecimals decimals)
    (hexponent : exponent = [] ∨ IsExponent exponent) (hne : decimals ++ exponent ≠ []) :
    MakesFraction (readNumber negative) (whole ++ (decimals ++ exponent)) := by
  let taken := takeUp 0 (whole.map fun c => c.toNat - 48)
  let scale : Int := (whole.map fun c => c.toNat - 48).length - taken.2
  rcases hdecimals with rfl | ⟨digits, rfl, hdigits⟩
  · obtain ⟨x?, hcomes⟩ := makesFraction_readTail negative taken.1 scale hexponent
    refine ⟨x?, fun {t cur} ht hcur => ?_⟩
    obtain ⟨after, hread, hrest⟩ := readNumber_eq_readBehind negative hwhole hzero
      (head_decimals (.inl rfl) hexponent ht) (by simpa using hcur)
    rw [hread]
    have htail := hcomes ht hrest
    rcases hexponent with rfl | ⟨mark, sign, digits, rfl, hmark, -⟩
    · exact absurd rfl hne
    · rw [List.nil_append, List.cons_append] at hrest
      rcases hmark with rfl | rfl
      · simpa only [readBehind, hrest] using htail
      · simpa only [readBehind, hrest] using htail
  · obtain ⟨x?, hcomes⟩ :=
      makesFraction_readDecimals negative taken.1 scale hdigits hexponent
    refine ⟨x?, fun {t cur} ht hcur => ?_⟩
    obtain ⟨after, hread, hrest⟩ := readNumber_eq_readBehind negative hwhole hzero
      (head_decimals (.inr ⟨digits, rfl, hdigits⟩) hexponent ht) (by simpa using hcur)
    rw [hread]
    rw [List.cons_append] at hrest
    simp only [readBehind, hrest]
    exact hcomes ht (by simp [hrest])

/-- What the digits of a number come to that has neither decimals nor an exponent. -/
def wholeNumber? (digits : List Nat) : Option Number :=
  let (significand, count) := takeUp 0 digits
  if count = digits.length then some (wholeNumber negative significand)
  else (fraction? negative significand (digits.length - count)).map .fraction

theorem comes_readNumber_whole (hwhole : IsDigits whole)
    (hzero : ∀ rest, whole = '0' :: rest → rest = []) {t : List Char} {cur : Cursor} (ht : Ends t)
    (hcur : cur.rest = whole ++ t) :
    Comes (readNumber negative cur) (wholeNumber? negative (whole.map fun c => c.toNat - 48))
      t := by
  obtain ⟨after, hread, hrest⟩ :=
    readNumber_eq_readBehind negative hwhole hzero ht.isDigit hcur
  rw [hread]
  unfold readBehind wholeNumber?
  simp only
  split
  · next hu => exact absurd (hrest.symm.trans hu) (ht.ne_cons (by simp) _)
  · next hu => exact absurd (hrest.symm.trans hu) (ht.ne_cons (by simp) _)
  · next hu => exact absurd (hrest.symm.trans hu) (ht.ne_cons (by simp) _)
  · split
    · exact ⟨after, rfl, hrest⟩
    · exact comes_finish negative _ _ hrest

theorem wholeNumber_eq_natural_iff {m n : Nat} :
    wholeNumber negative m = .natural n ↔ negative = false ∧ m = n := by
  unfold wholeNumber
  cases negative with
  | false => simp
  | true =>
    rw [if_neg (by simp)]
    split <;> simp

/-- Digits make a natural number exactly if it fits 64 bits. -/
theorem wholeNumber?_eq_natural_iff (hwhole : IsDigits whole) {n : Nat} :
    wholeNumber? negative (whole.map fun c => c.toNat - 48) = some (.natural n) ↔
      negative = false ∧ Text.IsDecimal whole n ∧ n < UInt64.size := by
  have hvalue : (whole.map fun c => c.toNat - 48).foldl (fun n d => n * 10 + d) 0 =
      Nat.ofDigits 10 (whole.reverse.map fun c => c.toNat - 48) := by
    rw [List.foldl_map]
    exact Text.foldl_digits whole
  have hword : n ≤ maxWord ↔ n < UInt64.size := by
    have : maxWord + 1 = UInt64.size := by decide
    omega
  unfold wholeNumber?
  simp only
  rw [← hword]
  by_cases hfits : (whole.map fun c => c.toNat - 48).foldl (fun n d => n * 10 + d) 0 ≤ maxWord
  · rw [takeUp_eq hfits]
    simp only [if_true, Option.some.injEq, wholeNumber_eq_natural_iff, hvalue]
    rw [hvalue] at hfits
    constructor
    · rintro ⟨rfl, rfl⟩
      exact ⟨rfl, ⟨hwhole.1, hwhole.2, rfl⟩, hfits⟩
    · rintro ⟨rfl, h, -⟩
      exact ⟨rfl, h.value⟩
  · have hleft := takeUp_lt (Nat.zero_le _) (Nat.lt_of_not_le hfits)
    rw [if_neg (Nat.ne_of_lt hleft)]
    constructor
    · intro h
      obtain ⟨x, -, hx⟩ := Option.map_eq_some_iff.mp h
      cases hx
    · rintro ⟨-, h, hn⟩
      rw [hvalue, h.value] at hfits
      exact absurd hn hfits

end Whole

/-- A number comes to the same wherever it stands. It is a natural number exactly if there are but
digits and they fit 64 bits. -/
theorem comes_readNumber (negative : Bool) {cs : List Char} (h : IsUnsigned cs) :
    ∃ x? : Option Number, (∀ {t : List Char} {cur : Cursor}, Ends t → cur.rest = cs ++ t →
      Comes (readNumber negative cur) x? t) ∧
      ∀ n, x? = some (.natural n) ↔
        negative = false ∧ Text.IsDecimal cs n ∧ n < UInt64.size := by
  obtain ⟨whole, decimals, exponent, rfl, hwhole, hzero, hdecimals, hexponent⟩ := h
  by_cases hnil : decimals ++ exponent = []
  · rw [hnil, List.append_nil]
    exact ⟨_, comes_readNumber_whole negative hwhole hzero, fun n =>
      wholeNumber?_eq_natural_iff negative hwhole⟩
  · obtain ⟨x?, hcomes⟩ :=
      makesFraction_readNumber negative hwhole hzero hdecimals hexponent hnil
    refine ⟨_, hcomes, fun n => ⟨fun hx => ?_, fun hdecimal => ?_⟩⟩
    · obtain ⟨x, -, hx⟩ := Option.map_eq_some_iff.mp hx
      cases hx
    · -- decimals begin with a point, an exponent with a letter
      obtain ⟨c, rest, hc⟩ := List.exists_cons_of_ne_nil hnil
      have hno := head_decimals hdecimals hexponent ends_nil c (by
        rw [← List.append_assoc, hc]; rfl)
      have hyes := hdecimal.2.1.isDigit c (by simp [hc])
      rw [hno] at hyes
      cases hyes

end CertRegistry.Json
