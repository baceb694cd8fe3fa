import CertRegistry.Json.Text
import CertRegistry.Proofs.Json.Text
import Mathlib.Data.List.DropRight

/-!
# The grammar of JSON

What a JSON text consists of, without regard to how it is read. A document keeps what a text says
but for the blanks: characters as they are spelled, numbers as they are written, and the members of
an object in their order, with all that have the same key.
-/

namespace CertRegistry.Json

/-! ## Blanks -/

def isSpace (c : Char) : Bool := c = ' ' || c = '\t' || c = '\n' || c = '\r'

/-- Whether there are but blanks in a text up to a place. -/
def Gap (l t : List Char) : Prop := ∃ blanks, l = blanks ++ t ∧ ∀ c ∈ blanks, isSpace c = true

theorem Gap.refl (l : List Char) : Gap l l := ⟨[], rfl, by simp⟩

theorem Gap.trans {l t u : List Char} (h : Gap l t) (h' : Gap t u) : Gap l u := by
  obtain ⟨blanks, rfl, hblanks⟩ := h
  obtain ⟨blanks', rfl, hblanks'⟩ := h'
  refine ⟨blanks ++ blanks', (List.append_assoc ..).symm, fun c hc => ?_⟩
  rcases List.mem_append.mp hc with hc | hc
  · exact hblanks c hc
  · exact hblanks' c hc

theorem Gap.length_le {l t : List Char} (h : Gap l t) : t.length ≤ l.length := by
  obtain ⟨blanks, rfl, -⟩ := h
  simp

theorem Gap.dropWhile_eq {l t : List Char} {c : Char} (h : Gap l (c :: t))
    (hc : isSpace c = false) : l.dropWhile isSpace = c :: t := by
  obtain ⟨blanks, rfl, hblanks⟩ := h
  rw [List.dropWhile_append_of_pos hblanks, List.dropWhile_cons_of_neg (by simp [hc])]

theorem Cursor.rest_skipBlanks (cur : Cursor) :
    cur.skipBlanks.rest = cur.rest.dropWhile isSpace := by
  obtain ⟨rest, line, column⟩ := cur
  unfold skipBlanks
  simp only
  induction rest generalizing line column with
  | nil => rfl
  | cons c rest ih =>
    rw [skipBlanks.go]
    by_cases hbreak : c = '\n'
    · rw [if_pos hbreak, ih, List.dropWhile_cons_of_pos (by simp [isSpace, hbreak])]
    · rw [if_neg hbreak]
      by_cases hspace : c = ' ' ∨ c = '\t' ∨ c = '\r'
      · have hc : isSpace c = true := by
          rcases hspace with h | h | h <;> simp [isSpace, h]
        rw [if_pos hspace, ih, List.dropWhile_cons_of_pos hc]
      · have hc : ¬ isSpace c = true := by
          simpa [isSpace, hbreak, or_assoc] using hspace
        rw [if_neg hspace, List.dropWhile_cons_of_neg hc]

theorem skipBlanks_of_skipBlanks {cur : Cursor} {l : List Char} (h : cur.skipBlanks.rest = l) :
    cur.skipBlanks.skipBlanks.rest = l := by
  rw [Cursor.rest_skipBlanks] at h
  rw [Cursor.rest_skipBlanks, Cursor.rest_skipBlanks, h, ← h, List.dropWhile_idempotent]

/-- Where a reader comes to when it passes the blanks up to a character. -/
theorem Gap.rest_skipBlanks {cur : Cursor} {c : Char} {t : List Char} (h : Gap cur.rest (c :: t))
    (hc : isSpace c = false) : cur.skipBlanks.rest = c :: t := by
  rw [Cursor.rest_skipBlanks, h.dropWhile_eq hc]

/-! ## Texts -/

/-- A hexadecimal digit, in either case. -/
structure HexDigit where
  char : Char
  value : Nat
  spells : Text.hexDigit? char = some value

/-- A character between quotes as it is spelled: itself, a letter behind a backslash, or a code, of
which some characters take two. -/
inductive Spelled where
  | plain (c : Char) (h : c ≠ '"' ∧ c ≠ '\\' ∧ 0x20 ≤ c.toNat)
  | letter (c d : Char) (h : escapedChar? c = some d)
  | code (a b c d : HexDigit)

namespace Spelled

def chars : Spelled → List Char
  | plain c _ => [c]
  | letter c _ _ => ['\\', c]
  | code a b c d => ['\\', 'u', a.char, b.char, c.char, d.char]

/-- The number that four digits spell. -/
def unit (a b c d : HexDigit) : Nat := ((a.value * 16 + b.value) * 16 + c.value) * 16 + d.value

/-- The characters that are spelled. Codes of the upper and the lower half of a character have to
come in pairs. -/
def text? : List Spelled → Option (List Char)
  | [] => some []
  | plain c _ :: rest => (c :: ·) <$> text? rest
  | letter _ c _ :: rest => (c :: ·) <$> text? rest
  | code a b c d :: rest =>
    let high := unit a b c d
    if 0xDC00 ≤ high ∧ high ≤ 0xDFFF then none
    else if high < 0xD800 ∨ 0xDBFF < high then (Char.ofNat high :: ·) <$> text? rest
    else
      match rest with
      | code a b c d :: rest =>
        let low := unit a b c d
        if 0xDC00 ≤ low ∧ low ≤ 0xDFFF then
          (Char.ofNat (0x10000 + (high - 0xD800) * 0x400 + (low - 0xDC00)) :: ·) <$> text? rest
        else none
      | _ => none

end Spelled

/-! ## Numbers -/

def IsDigits (cs : List Char) : Prop := cs ≠ [] ∧ ∀ c ∈ cs, c.isDigit = true

def IsDecimals (cs : List Char) : Prop := ∃ digits, cs = '.' :: digits ∧ IsDigits digits

def IsExponent (cs : List Char) : Prop :=
  ∃ mark sign digits, cs = mark :: (sign ++ digits) ∧ (mark = 'e' ∨ mark = 'E') ∧
    (sign = [] ∨ sign = ['+'] ∨ sign = ['-']) ∧ IsDigits digits

/-- Whether characters are a number without a sign: digits without needless zeros before them,
perhaps with decimals and an exponent. -/
def IsUnsigned (cs : List Char) : Prop :=
  ∃ whole decimals exponent, cs = whole ++ (decimals ++ exponent) ∧
    IsDigits whole ∧ (∀ rest, whole = '0' :: rest → rest = []) ∧
    (decimals = [] ∨ IsDecimals decimals) ∧ (exponent = [] ∨ IsExponent exponent)

def IsNumber (cs : List Char) : Prop := IsUnsigned cs ∨ ∃ rest, cs = '-' :: rest ∧ IsUnsigned rest

/-! ## Documents -/

inductive Doc where
  | null
  | bool (b : Bool)
  | number (cs : List Char)
  | text (spelled : List Spelled)
  | list (items : List Doc)
  | object (members : List (List Spelled × Doc))

/-- Whether a place is one where a value has ended. -/
def Ends (t : List Char) : Prop :=
  ∀ c, t.head? = some c → isSpace c = true ∨ c = ',' ∨ c = ']' ∨ c = '\x7d'

/-- What stands before an item: a comma, but before the first one. -/
inductive Separates : Bool → List Char → List Char → Prop
  | first {l t : List Char} (h : Gap l t) : Separates true l t
  | comma {l l' t : List Char} (h : Gap l (',' :: l')) (h' : Gap l' t) : Separates false l t

mutual

/-- Whether a document is what a text says up to a place. -/
inductive IsValue : Doc → List Char → List Char → Prop
  | null {t : List Char} : IsValue .null ('n' :: 'u' :: 'l' :: 'l' :: t) t
  | true {t : List Char} : IsValue (.bool true) ('t' :: 'r' :: 'u' :: 'e' :: t) t
  | false {t : List Char} : IsValue (.bool false) ('f' :: 'a' :: 'l' :: 's' :: 'e' :: t) t
  | number {cs t : List Char} (h : IsNumber cs) : IsValue (.number cs) (cs ++ t) t
  | text {spelled : List Spelled} {t : List Char} :
    IsValue (.text spelled) ('"' :: (spelled.flatMap Spelled.chars ++ '"' :: t)) t
  | list {items : List Doc} {l t : List Char} (h : IsItems true items l t) :
    IsValue (.list items) ('[' :: l) t
  | object {members : List (List Spelled × Doc)} {l t : List Char}
    (h : IsMembers true members l t) : IsValue (.object members) ('\x7b' :: l) t

/-- Whether documents are the items of a list from here to its end. -/
inductive IsItems : Bool → List Doc → List Char → List Char → Prop
  | done {first : Bool} {l t : List Char} (h : Gap l (']' :: t)) : IsItems first [] l t
  | item {first : Bool} {d : Doc} {rest : List Doc} {l v l' t : List Char}
    (hbefore : Separates first l v) (hvalue : IsValue d v l') (hrest : IsItems false rest l' t) :
    IsItems first (d :: rest) l t

/-- Whether keys and documents are the members of an object from here to its end. -/
inductive IsMembers : Bool → List (List Spelled × Doc) → List Char → List Char → Prop
  | done {first : Bool} {l t : List Char} (h : Gap l ('\x7d' :: t)) : IsMembers first [] l t
  | member {first : Bool} {key : List Spelled} {d : Doc} {rest : List (List Spelled × Doc)}
    {l k k' v l' t : List Char}
    (hbefore : Separates first l ('"' :: (key.flatMap Spelled.chars ++ '"' :: k)))
    (hcolon : Gap k (':' :: k')) (hgap : Gap k' v) (hvalue : IsValue d v l')
    (hrest : IsMembers false rest l' t) : IsMembers first ((key, d) :: rest) l t

end

/-- Whether a document is all that a text says. -/
def Doc.IsOf (d : Doc) (text : String) : Prop :=
  ∃ l t, Gap text.toList l ∧ IsValue d l t ∧ Gap t []

/-- Whether a document is neither a list nor an object. -/
def Doc.IsScalar : Doc → Prop
  | list _ | object _ => False
  | _ => True

/-- A property of documents holds if it holds of those without parts and is passed on from the parts
of the others. -/
theorem Doc.induct {P : Doc → Prop} (scalar : ∀ d, d.IsScalar → P d)
    (list : ∀ items, (∀ d ∈ items, P d) → P (.list items))
    (object : ∀ members, (∀ m ∈ members, P m.2) → P (.object members)) (d : Doc) : P d := by
  refine @Doc.rec P (fun items => ∀ d ∈ items, P d) (fun members => ∀ m ∈ members, P m.2)
    (fun m => P m.2) (scalar _ trivial) (fun _ => scalar _ trivial) (fun _ => scalar _ trivial)
    (fun _ => scalar _ trivial) list object (by simp) ?_ (by simp) ?_ (fun _ _ h => h) d
  · intro d items hd hitems
    exact List.forall_mem_cons.mpr ⟨hd, hitems⟩
  · intro m members hm hmembers
    exact List.forall_mem_cons.mpr ⟨hm, hmembers⟩

/-! ## How values begin and end -/

/-- Whether values like a document begin with a character. -/
def Doc.Opens (c : Char) : Doc → Prop
  | null => c = 'n'
  | bool b => c = if b then 't' else 'f'
  | number _ => c = '-' ∨ c.isDigit = true
  | text _ => c = '"'
  | list _ => c = '['
  | object _ => c = '\x7b'

theorem IsDigits.exists_cons {cs : List Char} (h : IsDigits cs) :
    ∃ c rest, cs = c :: rest ∧ c.isDigit = true := by
  obtain ⟨c, rest, rfl⟩ := List.exists_cons_of_ne_nil h.1
  exact ⟨c, rest, rfl, h.2 c List.mem_cons_self⟩

theorem IsUnsigned.exists_cons {cs : List Char} (h : IsUnsigned cs) :
    ∃ c rest, cs = c :: rest ∧ c.isDigit = true := by
  obtain ⟨whole, decimals, exponent, rfl, hwhole, -⟩ := h
  obtain ⟨c, rest, rfl, hc⟩ := hwhole.exists_cons
  exact ⟨c, _, rfl, hc⟩

theorem IsNumber.exists_cons {cs : List Char} (h : IsNumber cs) :
    ∃ c rest, cs = c :: rest ∧ (c = '-' ∨ c.isDigit = true) := by
  rcases h with h | ⟨rest, rfl, -⟩
  · obtain ⟨c, rest, rfl, hc⟩ := h.exists_cons
    exact ⟨c, rest, rfl, .inr hc⟩
  · exact ⟨'-', rest, rfl, .inl rfl⟩

theorem IsValue.exists_cons {d : Doc} {l t : List Char} (h : IsValue d l t) :
    ∃ c rest, l = c :: rest ∧ d.Opens c := by
  cases h with
  | null => exact ⟨_, _, rfl, rfl⟩
  | true => exact ⟨_, _, rfl, rfl⟩
  | false => exact ⟨_, _, rfl, rfl⟩
  | number hnumber =>
    obtain ⟨c, rest, rfl, hc⟩ := hnumber.exists_cons
    exact ⟨c, _, rfl, hc⟩
  | text => exact ⟨_, _, rfl, rfl⟩
  | list => exact ⟨_, _, rfl, rfl⟩
  | object => exact ⟨_, _, rfl, rfl⟩

theorem ends_of_gap {l t : List Char} {c : Char} (h : Gap l (c :: t))
    (hc : c = ',' ∨ c = ']' ∨ c = '\x7d') : Ends l := by
  obtain ⟨blanks, rfl, hblanks⟩ := h
  intro d hd
  cases blanks with
  | nil => exact .inr (Option.some.inj hd ▸ hc)
  | cons b blanks => exact .inl (Option.some.inj hd ▸ hblanks b List.mem_cons_self)

theorem Separates.ends {l t : List Char} (h : Separates false l t) : Ends l := by
  cases h with
  | comma h h' => exact ends_of_gap h (.inl rfl)

theorem IsItems.ends {items : List Doc} {l t : List Char} (h : IsItems false items l t) :
    Ends l := by
  cases h with
  | done h => exact ends_of_gap h (.inr (.inl rfl))
  | item hbefore => exact hbefore.ends

theorem IsMembers.ends {members : List (List Spelled × Doc)} {l t : List Char}
    (h : IsMembers false members l t) : Ends l := by
  cases h with
  | done h => exact ends_of_gap h (.inr (.inr rfl))
  | member hbefore => exact hbefore.ends

theorem Doc.Opens.isSpace {d : Doc} {c : Char} (h : d.Opens c) : isSpace c = false := by
  cases d with
  | null => cases h; decide
  | bool b => cases b <;> cases h <;> decide
  | number cs =>
    rcases h with rfl | h
    · decide
    · rw [Bool.eq_false_iff]
      intro hspace
      simp only [Json.isSpace, Bool.or_eq_true, decide_eq_true_eq] at hspace
      rcases hspace with ((rfl | rfl) | rfl) | rfl <;> exact absurd h (by decide)
  | text spelled => cases h; decide
  | list items => cases h; decide
  | object members => cases h; decide

theorem not_isDigit_of_mem {c : Char}
    (h : c ∈ [']', '\x7d', ',', '[', '\x7b', '"', 'n', 't', 'f']) :
    ¬ (c = '-' ∨ c.isDigit = true) := by
  simp only [List.mem_cons, List.not_mem_nil, or_false] at h
  rcases h with rfl | rfl | rfl | rfl | rfl | rfl | rfl | rfl | rfl <;> decide

/-- No value begins with a sign that closes something, or with a comma. -/
theorem Doc.Opens.ne {d : Doc} {c : Char} (h : d.Opens c) : c ≠ ']' ∧ c ≠ '\x7d' ∧ c ≠ ',' := by
  cases d with
  | null => cases h; decide
  | bool b => cases b <;> cases h <;> decide
  | number cs =>
    refine ⟨?_, ?_, ?_⟩ <;> rintro rfl <;> exact not_isDigit_of_mem (by decide) h
  | text spelled => cases h; decide
  | list items => cases h; decide
  | object members => cases h; decide

/-- A cursor before blanks comes to the value behind them. -/
theorem IsValue.rest_skipBlanks {d : Doc} {v t : List Char} {cur : Cursor} (h : IsValue d v t)
    (hgap : Gap cur.rest v) : cur.skipBlanks.rest = v := by
  obtain ⟨c, rest, rfl, hc⟩ := h.exists_cons
  exact hgap.rest_skipBlanks hc.isSpace

/-! ## Lengths -/

theorem Separates.length_le {first : Bool} {l t : List Char} (h : Separates first l t) :
    t.length ≤ l.length := by
  cases h with
  | first h => exact h.length_le
  | comma h h' => exact h'.length_le.trans ((Nat.le_succ _).trans h.length_le)

theorem IsItems.length_lt {items : List Doc}
    (hitems : ∀ d ∈ items, ∀ {l t}, IsValue d l t → t.length < l.length) {first : Bool}
    {l t : List Char} (h : IsItems first items l t) : t.length + items.length < l.length := by
  induction items generalizing first l with
  | nil =>
    cases h with
    | done hgap => exact hgap.length_le
  | cons d items ih =>
    cases h with
    | item hbefore hvalue hrest =>
      obtain ⟨hd, hmore⟩ := List.forall_mem_cons.mp hitems
      have h₁ := hbefore.length_le
      have h₂ := hd hvalue
      have h₃ := ih hmore hrest
      rw [List.length_cons]
      omega

theorem IsMembers.length_lt {members : List (List Spelled × Doc)}
    (hmembers : ∀ m ∈ members, ∀ {l t}, IsValue m.2 l t → t.length < l.length) {first : Bool}
    {l t : List Char} (h : IsMembers first members l t) :
    t.length + members.length < l.length := by
  induction members generalizing first l with
  | nil =>
    cases h with
    | done hgap => exact hgap.length_le
  | cons m members ih =>
    cases h with
    | member hbefore hcolon hgap hvalue hrest =>
      obtain ⟨hd, hmore⟩ := List.forall_mem_cons.mp hmembers
      have h₁ := hbefore.length_le
      have h₂ := hcolon.length_le
      have h₃ := hgap.length_le
      have h₄ := hd hvalue
      have h₅ := ih hmore hrest
      simp only [List.length_cons, List.length_append] at *
      omega

/-- A value takes up characters. -/
theorem IsValue.length_lt {d : Doc} {l t : List Char} (h : IsValue d l t) :
    t.length < l.length := by
  induction d using Doc.induct generalizing l t with
  | scalar d hscalar =>
    cases h with
    | null | true | false => simp only [List.length_cons]; omega
    | number hnumber =>
      obtain ⟨c, rest, rfl, -⟩ := hnumber.exists_cons
      simp only [List.length_append, List.length_cons]
      omega
    | text =>
      simp only [List.length_append, List.length_cons]
      omega
    | list | object => exact hscalar.elim
  | list items ih =>
    cases h with
    | list hitems =>
      have := hitems.length_lt ih
      rw [List.length_cons]
      omega
  | object members ih =>
    cases h with
    | object hmembers =>
      have := hmembers.length_lt ih
      rw [List.length_cons]
      omega

end CertRegistry.Json
