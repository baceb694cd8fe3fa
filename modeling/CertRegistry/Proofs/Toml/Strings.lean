import CertRegistry.Proofs.Text.Runs
import CertRegistry.Toml.Value

/-!
# Texts between quotes

A text can be written between double quotes, with any of its characters escaped, and without
escapes between single ones. Either way it is read back, whatever comes after it. There is no text
that cannot be written.
-/

namespace CertRegistry.Toml

/-- Whether characters between double quotes stand for a character. -/
inductive SpellsChar : Char → List Char → Prop
  | plain {c : Char} (hcontrol : isControl c = false) (hquote : c ≠ '"') (hslash : c ≠ '\\') :
    SpellsChar c [c]
  | letter {c letter : Char} (h : escaped? letter = some c) : SpellsChar c ['\\', letter]
  | short {c x₁ x₂ x₃ x₄ : Char} (h : Text.codePoint? [x₁, x₂, x₃, x₄] = some c) :
    SpellsChar c ['\\', 'u', x₁, x₂, x₃, x₄]
  | long {c x₁ x₂ x₃ x₄ x₅ x₆ x₇ x₈ : Char}
    (h : Text.codePoint? [x₁, x₂, x₃, x₄, x₅, x₆, x₇, x₈] = some c) :
    SpellsChar c ['\\', 'U', x₁, x₂, x₃, x₄, x₅, x₆, x₇, x₈]

/-- Whether characters between double quotes stand for others. -/
inductive SpellsChars : List Char → List Char → Prop
  | nil : SpellsChars [] []
  | cons {c : Char} {cs front rest : List Char} (h : SpellsChar c front)
    (hrest : SpellsChars cs rest) : SpellsChars (c :: cs) (front ++ rest)

/-- Whether a text is written like this between quotes, on one line. -/
inductive IsQuoted (cs : List Char) : List Char → Prop
  | basic {inside : List Char} (h : SpellsChars cs inside) : IsQuoted cs ('"' :: (inside ++ ['"']))
  | literal (hcontrol : ∀ c ∈ cs, isControl c = false) (hquote : '\'' ∉ cs) :
    IsQuoted cs ('\'' :: (cs ++ ['\'']))

/-! ## Reading -/

theorem basic?_plain {c : Char} (hcontrol : isControl c = false) (hquote : c ≠ '"')
    (hslash : c ≠ '\\') (rest : List Char) :
    basic? (c :: rest) = (basic? rest).map fun found => (c :: found.1, found.2) := by
  rw [basic?]
  · simp only [hcontrol, hslash, Bool.false_eq_true, or_self, if_false, Option.bind_eq_bind,
      Option.map_eq_bind]
    rfl
  all_goals simp [hquote, hslash]

theorem basic?_letter {c letter : Char} (h : escaped? letter = some c) (rest : List Char) :
    basic? ('\\' :: letter :: rest) = (basic? rest).map fun found => (c :: found.1, found.2) := by
  have hcodes : letter ≠ 'u' ∧ letter ≠ 'U' := by
    constructor
    · rintro rfl
      cases h
    · rintro rfl
      cases h
  rw [basic?]
  · simp only [h, Option.bind_eq_bind, Option.bind_some, Option.map_eq_bind]
    rfl
  all_goals simp [hcodes]

theorem SpellsChar.basic?_append {c : Char} {front : List Char} (h : SpellsChar c front)
    (rest : List Char) :
    basic? (front ++ rest) = (basic? rest).map fun found => (c :: found.1, found.2) := by
  cases h with
  | plain hcontrol hquote hslash => exact basic?_plain hcontrol hquote hslash rest
  | letter h => exact basic?_letter h rest
  | short h =>
    simp only [List.cons_append, List.nil_append, basic?, h, Option.bind_eq_bind, Option.bind_some,
      Option.map_eq_bind]
    rfl
  | long h =>
    simp only [List.cons_append, List.nil_append, basic?, h, Option.bind_eq_bind, Option.bind_some,
      Option.map_eq_bind]
    rfl

theorem SpellsChars.basic?_append {cs inside : List Char} (h : SpellsChars cs inside)
    (rest : List Char) : basic? (inside ++ '"' :: rest) = some (cs, rest) := by
  induction h with
  | nil => rfl
  | cons h _ ih => rw [List.append_assoc, h.basic?_append, ih, Option.map_some]

theorem literal?_append {cs : List Char} (hcontrol : ∀ c ∈ cs, isControl c = false)
    (hquote : '\'' ∉ cs) (rest : List Char) : literal? (cs ++ '\'' :: rest) = some (cs, rest) := by
  induction cs with
  | nil => rfl
  | cons c cs ih =>
    obtain ⟨hc, hcs⟩ := List.forall_mem_cons.mp hcontrol
    obtain ⟨hne, hmore⟩ := not_or.mp (List.mem_cons.not.mp hquote)
    rw [List.cons_append, literal?, hc, if_neg Bool.false_ne_true, ih hcs hmore]
    · rfl
    · exact Ne.symm hne

/-- No character is written with a double quote in front. -/
theorem SpellsChars.head?_ne {cs inside : List Char} (h : SpellsChars cs inside) :
    ∀ c ∈ inside.head?, c ≠ '"' := by
  cases h with
  | nil => simp
  | cons h hrest =>
    cases h with
    | plain _ hquote => simpa using hquote
    | letter => simp
    | short => simp
    | long => simp

/-- Only an empty text has its closing quote right after the other, and no third one follows. -/
theorem ne_quotes {quote : Char} {inside rest : List Char} (hinside : ∀ c ∈ inside.head?, c ≠ quote)
    (hrest : ∀ c ∈ rest.head?, c ≠ quote) (more : List Char) :
    inside ++ quote :: rest ≠ quote :: quote :: more := by
  intro h
  cases inside with
  | nil =>
    obtain ⟨-, rfl⟩ := List.cons.inj h
    exact hrest quote rfl rfl
  | cons c inside =>
    obtain ⟨rfl, -⟩ := List.cons.inj h
    exact hinside c rfl rfl

/-- Two double quotes open and close a text, and three open one of several lines. -/
theorem text?_basic {l : List Char} (h : ∀ rest, l ≠ '"' :: '"' :: rest) :
    text? ('"' :: l) = (basic? l).map fun found => (String.ofList found.1, found.2) := by
  unfold text?
  split
  next heq =>
    cases heq
    exact absurd rfl (h _)
  next heq =>
    cases heq
    rw [Option.map_eq_bind]
    rfl
  next heq => cases heq
  next heq => cases heq
  next hbasic _ _ => exact absurd rfl (hbasic _)

theorem text?_literal {l : List Char} (h : ∀ rest, l ≠ '\'' :: '\'' :: rest) :
    text? ('\'' :: l) = (literal? l).map fun found => (String.ofList found.1, found.2) := by
  unfold text?
  split
  next heq => cases heq
  next heq => cases heq
  next heq =>
    cases heq
    exact absurd rfl (h _)
  next heq =>
    cases heq
    rw [Option.map_eq_bind]
    rfl
  next hliteral => exact absurd rfl (hliteral _)

/-- A text is read wherever no third quote follows the two of an empty one. -/
theorem IsQuoted.text?_append {cs l rest : List Char} (h : IsQuoted cs l)
    (hrest : ∀ c ∈ rest.head?, c ≠ '"' ∧ c ≠ '\'') :
    text? (l ++ rest) = some (String.ofList cs, rest) := by
  cases h with
  | basic h =>
    have hne := ne_quotes h.head?_ne fun c hc => (hrest c hc).1
    rw [List.cons_append, List.append_assoc, List.singleton_append, text?_basic hne,
      h.basic?_append, Option.map_some]
  | literal hcontrol hquote =>
    have hhead : ∀ c ∈ cs.head?, c ≠ '\'' := fun c hc heq => hquote (heq ▸ List.mem_of_mem_head? hc)
    have hne := ne_quotes hhead fun c hc => (hrest c hc).2
    rw [List.cons_append, List.append_assoc, List.singleton_append, text?_literal hne,
      literal?_append hcontrol hquote, Option.map_some]

/-! ## Writing -/

theorem codePoint?_hexPair {n : Nat} (h : n < 128) :
    Text.codePoint? ['0', '0', Nat.digitChar (n / 16), Nat.digitChar (n % 16)] =
      some (Char.ofNat n) := by
  have hall : ∀ i : Fin 128,
      Text.codePoint? ['0', '0', Nat.digitChar (i.val / 16), Nat.digitChar (i.val % 16)] =
        some (Char.ofNat i.val) := by decide +kernel
  exact hall ⟨n, h⟩

theorem exists_spellsChar (c : Char) : ∃ l, SpellsChar c l := by
  by_cases hcontrol : isControl c = true
  · have hsmall : c.toNat < 128 := by
      simp only [isControl, Bool.or_eq_true, Bool.and_eq_true, decide_eq_true_eq, beq_iff_eq]
        at hcontrol
      omega
    have hcode := codePoint?_hexPair hsmall
    rw [Char.ofNat_toNat] at hcode
    exact ⟨_, .short hcode⟩
  · rcases eq_or_ne c '"' with rfl | hquote
    · exact ⟨_, .letter (show escaped? '"' = some '"' from rfl)⟩
    · rcases eq_or_ne c '\\' with rfl | hslash
      · exact ⟨_, .letter (show escaped? '\\' = some '\\' from rfl)⟩
      · exact ⟨_, .plain (Bool.not_eq_true _ ▸ hcontrol) hquote hslash⟩

theorem exists_spellsChars (cs : List Char) : ∃ l, SpellsChars cs l := by
  induction cs with
  | nil => exact ⟨[], .nil⟩
  | cons c cs ih =>
    obtain ⟨front, hfront⟩ := exists_spellsChar c
    obtain ⟨rest, hrest⟩ := ih
    exact ⟨front ++ rest, .cons hfront hrest⟩

theorem exists_isQuoted (cs : List Char) : ∃ l, IsQuoted cs l := by
  obtain ⟨inside, h⟩ := exists_spellsChars cs
  exact ⟨_, .basic h⟩

end CertRegistry.Toml
