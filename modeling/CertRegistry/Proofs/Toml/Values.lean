import CertRegistry.Proofs.Stages
import CertRegistry.Proofs.Text.Digits
import CertRegistry.Proofs.Toml.Strings

/-!
# Values up to the end of the line

What is written for a text, a whole number or a truth value is read back, with the rest of the line
in front of it, in which there may only be blanks and a comment.
-/

namespace CertRegistry.Toml

/-! ## The end of a line -/

/-- What a line can end with. -/
def isLineEnd (c : Char) : Bool := isBlank c || c = '#' || c = '\n' || c = '\r'

theorem isLineEnd_of_passLineEnd? {rest : List Char} (h : (passLineEnd? rest).isSome) :
    ∀ c ∈ rest.head?, isLineEnd c = true := by
  intro c hc
  obtain ⟨more, rfl⟩ : ∃ more, rest = c :: more := by
    cases rest with
    | nil => cases hc
    | cons first more =>
      cases hc
      exact ⟨more, rfl⟩
  by_contra hend
  simp only [isLineEnd, Bool.or_eq_true, decide_eq_true_eq, not_or] at hend
  obtain ⟨⟨⟨hblank, hcomment⟩, hfeed⟩, hreturn⟩ := hend
  have hskip : skipComment (skipBlanks (c :: more)) = c :: more := by
    rw [skipBlanks, List.dropWhile_cons_of_neg hblank]
    unfold skipComment
    split
    next heq => exact absurd (List.cons.inj heq).1 hcomment
    next => rfl
  simp only [passLineEnd?, hskip] at h
  unfold passNewline? at h
  split at h
  next heq => exact hfeed (List.cons.inj heq).1
  next heq => exact hreturn (List.cons.inj heq).1
  next => cases h

theorem not_isTokenChar_of_isLineEnd {c : Char} (h : isLineEnd c = true) :
    isTokenChar c = false := by
  simp only [isLineEnd, isBlank, Bool.or_eq_true, decide_eq_true_eq] at h
  rcases h with (((rfl | rfl) | rfl) | rfl) | rfl <;> decide

theorem ne_quote_of_isLineEnd {c : Char} (h : isLineEnd c = true) : c ≠ '"' ∧ c ≠ '\'' := by
  constructor
  · rintro rfl
    revert h
    decide
  · rintro rfl
    revert h
    decide

/-! ## Values -/

/-- Whether characters, with blanks before them or not, are read as a value that the line may end
after. -/
def SpellsValue (item : Item) (l : List Char) : Prop :=
  ∀ rest, (passLineEnd? rest).isSome →
    value? maxDepth (skipBlanks (l ++ rest)) = some (item, rest)

/-- What does not start with a bracket has no value inside. -/
theorem spellsValue_of_scalar? {item : Item} {c : Char} {l : List Char} (hblank : isBlank c = false)
    (hopen : c ≠ '[' ∧ c ≠ '{')
    (h : ∀ rest, (passLineEnd? rest).isSome → scalar? (c :: l ++ rest) = some (item, rest)) :
    SpellsValue item (c :: l) := by
  intro rest hrest
  rw [skipBlanks, List.cons_append, List.dropWhile_cons_of_neg (by simp [hblank])]
  have hvalue : value? maxDepth (c :: (l ++ rest)) = scalar? (c :: (l ++ rest)) := by
    change value? (78 + 1) _ = _
    unfold value?
    split
    next heq => exact absurd (List.cons.inj heq).1 hopen.1
    next heq => exact absurd (List.cons.inj heq).1 hopen.2
    next => rfl
  rw [hvalue]
  exact h rest hrest

theorem spellsValue_text {s : String} {l : List Char} (h : IsQuoted s.toList l) :
    SpellsValue (.text s) l := by
  have htext : ∀ rest, (passLineEnd? rest).isSome → text? (l ++ rest) = some (s, rest) := by
    intro rest hrest
    have hquotes := fun c hc => ne_quote_of_isLineEnd (isLineEnd_of_passLineEnd? hrest c hc)
    rw [h.text?_append hquotes, String.ofList_toList]
  cases h with
  | basic h =>
    refine spellsValue_of_scalar? (by decide) (by decide) fun rest hrest => ?_
    exact congrArg (Option.map fun found => (Item.text found.1, found.2)) (htext rest hrest)
  | literal hcontrol hquote =>
    refine spellsValue_of_scalar? (by decide) (by decide) fun rest hrest => ?_
    exact congrArg (Option.map fun found => (Item.text found.1, found.2)) (htext rest hrest)

/-- A token that is not a date is read as it stands. -/
theorem spellsValue_of_tokenValue? {token : List Char} {item : Item} (hne : token ≠ [])
    (htoken : ∀ c ∈ token, isTokenChar c = true) (hdate : passDate? token = none)
    (hitem : tokenValue? token = some item) : SpellsValue item token := by
  obtain ⟨c, l, rfl⟩ := List.exists_cons_of_ne_nil hne
  have hc : ∀ c', isTokenChar c' = false → c ≠ c' := by
    rintro c' hc' rfl
    exact Bool.false_ne_true (hc'.symm.trans (htoken c List.mem_cons_self))
  have hblank : isBlank c = false := by
    simp only [isBlank, hc ' ' (by decide), hc '\t' (by decide), decide_false, Bool.or_self]
  refine spellsValue_of_scalar? hblank ⟨hc _ (by decide), hc _ (by decide)⟩ fun rest hrest => ?_
  have hspan : (c :: l ++ rest).span isTokenChar = (c :: l, rest) :=
    span_append htoken fun c' hc' =>
      not_isTokenChar_of_isLineEnd (isLineEnd_of_passLineEnd? hrest c' hc')
  unfold scalar?
  split
  next heq => exact absurd (List.cons.inj heq).1 (hc _ (by decide))
  next heq => exact absurd (List.cons.inj heq).1 (hc _ (by decide))
  next => simp only [hspan, hdate, hitem, Option.map_some]

/-! ## Truth values -/

theorem spellsValue_true : SpellsValue (.bool true) "true".toList :=
  spellsValue_of_tokenValue? (by decide) (List.all_eq_true.mp rfl) rfl rfl

theorem spellsValue_false : SpellsValue (.bool false) "false".toList :=
  spellsValue_of_tokenValue? (by decide) (List.all_eq_true.mp rfl) rfl rfl

/-! ## Whole numbers -/

section Digits

variable {cs : List Char} (h : ∀ c ∈ cs, c.isDigit = true)

include h

theorem passDate?_digits : passDate? cs = none := by
  unfold passDate?
  split
  next => exact absurd (h '-' (by simp)) (by decide)
  next => rfl

theorem passTime?_digits : passTime? cs = none := by
  have hminute : passMinute? cs = none := by
    unfold passMinute?
    split
    next => exact absurd (h ':' (by simp)) (by decide)
    next => rfl
  simp only [passTime?, hminute, Option.bind_eq_bind, Option.bind_none]

theorem isMoment_digits : isMoment cs = false := by
  simp only [isMoment, passDate?_digits h, passTime?_digits h, reduceCtorEq, decide_false]

theorem digits?_digits (hne : cs ≠ []) : digits? 10 cs = some (cs.map fun c => c.toNat - 48) := by
  have hmark : '_' ∉ cs := fun hc => absurd (h '_' hc) (by decide)
  have hall : cs.mapM (fun c => (Text.hexDigit? c).filter (· < 10)) =
      some (cs.map fun c => c.toNat - 48) := by
    rw [mapM_eq_some, List.forall₂_map_right_iff, List.forall₂_same]
    intro c hc
    have hdigit := h c hc
    have hlt : c.toNat - 48 < 10 := by
      simp only [Char.isDigit, Bool.and_eq_true, decide_eq_true_eq] at hdigit
      have : c.toNat ≤ 57 := hdigit.2
      omega
    simp only [Text.hexDigit?, hdigit, if_true, Option.filter_some, hlt, decide_true]
  simp only [digits?, List.splitOn_eq_singleton hmark, List.any_cons, hne, decide_false,
    List.any_nil, Bool.or_self, Bool.false_eq_true, if_false, List.flatten_singleton, hall]

end Digits

theorem plainNatural?_toString (n : Nat) : plainNatural? (toString n).toList = some n := by
  have hdigits : ∀ c ∈ (toString n).toList, c.isDigit = true :=
    fun _ => Text.isDigit_of_mem_toString
  have hzero : ¬((toString n).toList.head? = some '0' ∧ (toString n).toList ≠ ['0']) := by
    rintro ⟨hhead, hne⟩
    obtain ⟨rest, hrest⟩ := List.head?_eq_some_iff.mp hhead
    exact hne (hrest.trans (Text.eq_nil_of_toString hrest ▸ rfl))
  have hvalue : valueOf 10 ((toString n).toList.map fun c => c.toNat - 48) = n := by
    rw [valueOf, List.foldl_map, Text.foldl_toString]
  rw [plainNatural?, if_neg hzero, digits?_digits hdigits (Text.toString_ne_nil n),
    Option.map_some, hvalue]

theorem integer?_toString {n : Nat} (h : n < integerBound) :
    integer? (toString n).toList = some (n : Int) := by
  have hdigits : ∀ c ∈ (toString n).toList, c.isDigit = true :=
    fun _ => Text.isDigit_of_mem_toString
  have hsign : splitSign (toString n).toList = (false, (toString n).toList) := by
    unfold splitSign
    split
    next heq => exact absurd (hdigits '-' (heq ▸ List.mem_cons_self)) (by decide)
    next heq => exact absurd (hdigits '+' (heq ▸ List.mem_cons_self)) (by decide)
    next => rfl
  have hother : ∀ c, c.isDigit = false → ∀ rest, (toString n).toList ≠ '0' :: c :: rest := by
    intro c hc rest heq
    have hmem : c ∈ (toString n).toList := heq ▸ by simp
    exact Bool.false_ne_true (hc.symm.trans (hdigits c hmem))
  unfold integer?
  split
  next heq => exact absurd heq (hother 'x' (by decide) _)
  next heq => exact absurd heq (hother 'o' (by decide) _)
  next heq => exact absurd heq (hother 'b' (by decide) _)
  next =>
    simp only [hsign, plainNatural?_toString, Option.bind_eq_bind, Option.bind_some,
      Bool.false_eq_true, if_false, h, if_true]

theorem spellsValue_natural {n : Nat} (h : n < integerBound) :
    SpellsValue (.integer n) (toString n).toList := by
  have hdigits : ∀ c ∈ (toString n).toList, c.isDigit = true :=
    fun _ => Text.isDigit_of_mem_toString
  have hword : ∀ word : List Char, word.any (!Char.isDigit ·) = true →
      (toString n).toList ≠ word := by
    rintro _ hword rfl
    obtain ⟨c, hc, hother⟩ := List.any_eq_true.mp hword
    simp [hdigits c hc] at hother
  have hitem : tokenValue? (toString n).toList = some (.integer n) := by
    rw [tokenValue?, if_neg (hword _ (by decide)), if_neg (hword _ (by decide)),
      isMoment_digits hdigits, if_neg Bool.false_ne_true, integer?_toString h]
  refine spellsValue_of_tokenValue? (Text.toString_ne_nil n) (fun c hc => ?_)
    (passDate?_digits hdigits) hitem
  simp [isTokenChar, Char.isAlphanum, hdigits c hc]

theorem exists_spellsValue_text (s : String) : ∃ l, SpellsValue (.text s) l := by
  obtain ⟨l, h⟩ := exists_isQuoted s.toList
  exact ⟨l, spellsValue_text h⟩

theorem exists_spellsValue_bool (b : Bool) : ∃ l, SpellsValue (.bool b) l := by
  cases b with
  | false => exact ⟨_, spellsValue_false⟩
  | true => exact ⟨_, spellsValue_true⟩

end CertRegistry.Toml
