import CertRegistry.Proofs.Json.Meaning
import CertRegistry.Proofs.Json.Printer
import CertRegistry.Proofs.Text.Digits

/-!
# Printed values are texts of documents

A value without fractions has a document, which says the same. What is printed for the value, on one
line or on many, is a text of that document, so the two differ in blanks only.
-/

namespace CertRegistry.Json

/-! ## Written texts -/

def HexDigit.of (n : Nat) (h : n < 16) : HexDigit := ⟨Nat.digitChar n, n, hexDigit?_digitChar h⟩

namespace Spelled

/-- A character as it is written between quotes. -/
def of (c : Char) : Spelled :=
  if hquoted : c = '"' ∨ c = '\\' then .letter c c (by rcases hquoted with rfl | rfl <;> rfl)
  else if c = '\x08' then .letter 'b' '\x08' rfl
  else if c = '\x0c' then .letter 'f' '\x0c' rfl
  else if c = '\n' then .letter 'n' '\n' rfl
  else if c = '\r' then .letter 'r' '\r' rfl
  else if c = '\t' then .letter 't' '\t' rfl
  else if hcontrol : c.toNat < 0x20 then
    .code (.of 0 (by decide)) (.of 0 (by decide)) (.of (c.toNat / 16) (by omega))
      (.of (c.toNat % 16) (by omega))
  else .plain c ⟨fun h => hquoted (.inl h), fun h => hquoted (.inr h), Nat.le_of_not_lt hcontrol⟩

def ofText (s : String) : List Spelled := s.toList.map of

theorem chars_of (c : Char) : (of c).chars = escape c := by
  unfold of escape
  split
  · rfl
  iterate 5
    split
    · rfl
  split
  · rfl
  · rfl

theorem text?_of_cons (c : Char) (rest : List Spelled) :
    text? (of c :: rest) = (c :: ·) <$> text? rest := by
  unfold of
  split
  · rfl
  iterate 5
    split
    · next hc => subst hc; rfl
  split
  · next hcontrol =>
    have hunit : unit (.of 0 (by decide)) (.of 0 (by decide)) (.of (c.toNat / 16) (by omega))
        (.of (c.toNat % 16) (by omega)) = c.toNat := by
      simp only [unit, HexDigit.of]
      omega
    rw [text?.eq_def]
    simp only [hunit]
    rw [if_neg (by omega), if_pos (by omega), Char.ofNat_toNat]
  · rfl

theorem string?_ofText (s : String) : string? (ofText s) = some s := by
  have htext : ∀ cs : List Char, text? (cs.map of) = some cs := by
    intro cs
    induction cs with
    | nil => rfl
    | cons c cs ih =>
      rw [List.map_cons, text?_of_cons, ih]
      rfl
  rw [string?, ofText, htext, Option.map_some, String.ofList_toList]

theorem chars_ofText (s : String) : (ofText s).flatMap chars = s.toList.flatMap escape := by
  simp only [ofText, List.flatMap_map, chars_of]

end Spelled

theorem toList_textOf (s : String) :
    (textOf s).toList = '"' :: ((Spelled.ofText s).flatMap Spelled.chars ++ ['"']) := by
  rw [textOf, String.toList_ofList, Spelled.chars_ofText]
  rfl

/-! ## Parts with blanks between them -/

theorem forall₂_map_map {α β γ : Type} {R : β → γ → Prop} {f : α → β} {g : α → γ} {as : List α}
    (h : ∀ a ∈ as, R (f a) (g a)) : List.Forall₂ R (as.map f) (as.map g) :=
  List.forall₂_map_left_iff.mpr (List.forall₂_map_right_iff.mpr (List.forall₂_same.mpr h))

/-- Whether characters are a text of a document, whatever comes behind them. -/
def IsText (d : Doc) (cs : List Char) : Prop := ∀ t, IsValue d (cs ++ t) t

def IsBlank (cs : List Char) : Prop := ∀ c ∈ cs, isSpace c = true

theorem isBlank_nil : IsBlank [] := List.forall_mem_nil _

theorem IsBlank.gap {cs : List Char} (h : IsBlank cs) (t : List Char) : Gap (cs ++ t) t :=
  ⟨cs, rfl, h⟩

/-- Whether characters are the text of a member, with blanks between the colon and the value. -/
def IsMemberText (m : List Spelled × Doc) (cs : List Char) : Prop :=
  ∃ between value, cs = '"' :: (m.1.flatMap Spelled.chars ++ '"' :: ':' :: (between ++ value)) ∧
    IsBlank between ∧ IsText m.2 value

section Parts

variable {before behind t : List Char}

theorem isItems_more (hbefore : IsBlank before) (hbehind : IsBlank behind) {items : List Doc}
    {parts : List (List Char)} (h : List.Forall₂ IsText items parts) :
    IsItems false items
      ((parts.flatMap fun part => ',' :: (before ++ part)) ++ (behind ++ ']' :: t)) t := by
  induction h with
  | nil => exact .done (hbehind.gap _)
  | @cons d part items parts hitem _ ih =>
    rw [List.flatMap_cons, List.cons_append, List.cons_append, List.append_assoc, List.append_assoc]
    exact .item (.comma (.refl _) (hbefore.gap _)) (hitem _) ih

theorem isText_list (hbefore : IsBlank before) (hbehind : IsBlank behind) {items : List Doc}
    {parts : List (List Char)} (h : List.Forall₂ IsText items parts) :
    IsText (.list items)
      ('[' :: (before ++ ((',' :: before).intercalate parts ++ (behind ++ [']'])))) := by
  intro t
  rw [List.cons_append]
  refine .list ?_
  cases h with
  | nil => exact .done (by simpa using (hbefore.gap _).trans (hbehind.gap (']' :: t)))
  | @cons d part items parts hitem hitems =>
    rw [intercalate_comma]
    simp only [List.append_assoc, List.singleton_append]
    exact .item (.first (hbefore.gap _)) (hitem _) (isItems_more hbefore hbehind hitems)

theorem IsMemberText.isMembers {first : Bool} {m : List Spelled × Doc}
    {members : List (List Spelled × Doc)} {cs l l' : List Char} (h : IsMemberText m cs)
    (hbefore : Separates first l (cs ++ l')) (hrest : IsMembers false members l' t) :
    IsMembers first (m :: members) l t := by
  obtain ⟨between, value, rfl, hbetween, hvalue⟩ := h
  refine .member (k := ':' :: (between ++ (value ++ l'))) ?_ (.refl _) (hbetween.gap _) (hvalue _)
    hrest
  simpa using hbefore

theorem isMembers_more (hbefore : IsBlank before) (hbehind : IsBlank behind)
    {members : List (List Spelled × Doc)} {parts : List (List Char)}
    (h : List.Forall₂ IsMemberText members parts) :
    IsMembers false members
      ((parts.flatMap fun part => ',' :: (before ++ part)) ++ (behind ++ '\x7d' :: t)) t := by
  induction h with
  | nil => exact .done (hbehind.gap _)
  | @cons m part members parts hmember _ ih =>
    rw [List.flatMap_cons, List.cons_append, List.cons_append, List.append_assoc, List.append_assoc]
    exact hmember.isMembers (.comma (.refl _) (hbefore.gap _)) ih

theorem isText_object (hbefore : IsBlank before) (hbehind : IsBlank behind)
    {members : List (List Spelled × Doc)} {parts : List (List Char)}
    (h : List.Forall₂ IsMemberText members parts) :
    IsText (.object members)
      ('\x7b' :: (before ++ ((',' :: before).intercalate parts ++ (behind ++ ['\x7d'])))) := by
  intro t
  rw [List.cons_append]
  refine .object ?_
  cases h with
  | nil => exact .done (by simpa using (hbefore.gap _).trans (hbehind.gap ('\x7d' :: t)))
  | @cons m part members parts hmember hmembers =>
    rw [intercalate_comma]
    simp only [List.append_assoc, List.singleton_append]
    exact hmember.isMembers (.first (hbefore.gap _)) (isMembers_more hbefore hbehind hmembers)

end Parts

/-! ## Documents of values -/

namespace Value

mutual

/-- What a printed value says. -/
def doc : Value → Doc
  | null => .null
  | bool b => .bool b
  | number n => .number n.text.toList
  | text s => .text (Spelled.ofText s)
  | list items => .list (docItems items)
  | object members => .object (docMembers members)

def docItems : List Value → List Doc
  | [] => []
  | v :: rest => v.doc :: docItems rest

def docMembers : List (String × Value) → List (List Spelled × Doc)
  | [] => []
  | (key, v) :: rest => (Spelled.ofText key, v.doc) :: docMembers rest

end

/-- Whether a value has no fractions. -/
inductive IsPlain : Value → Prop
  | null : IsPlain null
  | bool (b : Bool) : IsPlain (bool b)
  | natural (n : Nat) : IsPlain (number (.natural n))
  | negative (n : Nat) : IsPlain (number (.negative n))
  | text (s : String) : IsPlain (text s)
  | list {items : List Value} (h : ∀ v ∈ items, IsPlain v) : IsPlain (list items)
  | object {members : List (String × Value)} (h : ∀ m ∈ members, IsPlain m.2) :
    IsPlain (object members)

theorem docItems_eq_map (items : List Value) : docItems items = items.map doc := by
  induction items with
  | nil => rfl
  | cons v items ih => rw [docItems, ih, List.map_cons]

theorem docMembers_eq_map (members : List (String × Value)) :
    docMembers members = members.map fun m => (Spelled.ofText m.1, m.2.doc) := by
  induction members with
  | nil => rfl
  | cons m members ih => rw [docMembers, ih, List.map_cons]

theorem prettyItems_eq_map (level : Nat) (items : List Value) :
    prettyItems level items = items.map (·.prettyAt level) := by
  induction items with
  | nil => rfl
  | cons v items ih => rw [prettyItems, ih, List.map_cons]

theorem prettyMembers_eq_map (level : Nat) (members : List (String × Value)) :
    prettyMembers level members =
      members.map fun m => textOf m.1 ++ ": " ++ m.2.prettyAt level := by
  induction members with
  | nil => rfl
  | cons m members ih => rw [prettyMembers, ih, List.map_cons]

end Value

/-! ## Printed values -/

theorem isUnsigned_toString (n : Nat) : IsUnsigned (toString n).toList :=
  ⟨(toString n).toList, [], [], by simp,
    ⟨Text.toString_ne_nil n, fun _ => Text.isDigit_of_mem_toString⟩,
    fun _ h => Text.eq_nil_of_toString h, .inl rfl, .inl rfl⟩

theorem isText_null : IsText .null "null".toList := fun _ => .null

theorem isText_bool (b : Bool) : IsText (.bool b) (if b then "true" else "false").toList := by
  cases b with
  | false => exact fun _ => .false
  | true => exact fun _ => .true

theorem isText_number {cs : List Char} (h : IsNumber cs) : IsText (.number cs) cs :=
  fun _ => .number h

theorem isText_natural (n : Nat) :
    IsText (.number (Number.natural n).text.toList) (Number.natural n).text.toList :=
  isText_number (.inl (isUnsigned_toString n))

theorem isText_negative (n : Nat) :
    IsText (.number (Number.negative n).text.toList) (Number.negative n).text.toList :=
  isText_number (.inr ⟨(toString n).toList, by simp [Number.text], isUnsigned_toString n⟩)

theorem isText_textOf (s : String) : IsText (.text (Spelled.ofText s)) (textOf s).toList := by
  intro t
  rw [toList_textOf, List.cons_append, List.append_assoc]
  exact .text

theorem isMemberText_textOf (key : String) {d : Doc} {between value : List Char}
    (hbetween : IsBlank between) (h : IsText d value) :
    IsMemberText (Spelled.ofText key, d) ((textOf key).toList ++ ':' :: (between ++ value)) :=
  ⟨between, value, by simp [toList_textOf], hbetween, h⟩

theorem isBlank_newline (level : Nat) : IsBlank (newline level).toList := by
  intro c hc
  simp only [newline, String.toList_ofList, List.mem_cons, List.mem_replicate] at hc
  rcases hc with rfl | ⟨-, rfl⟩ <;> decide

theorem toList_indented {opening closing : String} {level : Nat} {parts : List String} :
    ∃ before behind, IsBlank before ∧ IsBlank behind ∧
      (indented opening closing level parts).toList = opening.toList ++
        (before ++ ((',' :: before).intercalate (parts.map String.toList) ++
          (behind ++ closing.toList))) := by
  by_cases hempty : parts = []
  · refine ⟨[], [], isBlank_nil, isBlank_nil, ?_⟩
    rw [indented, if_pos hempty, hempty]
    simp
  · refine ⟨_, _, isBlank_newline (level + 1), isBlank_newline level, ?_⟩
    rw [indented, if_neg hempty]
    simp [String.toList_append, String.toList_intercalate]

namespace Value

theorem IsPlain.isText_compact {v : Value} (h : v.IsPlain) : IsText v.doc v.compact.toList := by
  induction h with
  | null => rw [doc, compact]; exact isText_null
  | bool b => rw [doc, compact]; exact isText_bool b
  | natural n => rw [doc, compact]; exact isText_natural n
  | negative n => rw [doc, compact]; exact isText_negative n
  | text s => rw [doc, compact]; exact isText_textOf s
  | @list items h ih =>
    rw [doc, docItems_eq_map, toList_compact_list]
    exact isText_list isBlank_nil isBlank_nil (forall₂_map_map ih)
  | @object members h ih =>
    rw [doc, docMembers_eq_map, toList_compact_object]
    rw [texts, List.map_map]
    exact isText_object isBlank_nil isBlank_nil (forall₂_map_map fun m hm =>
      isMemberText_textOf m.1 isBlank_nil (ih m hm))

theorem IsPlain.isText_pretty {v : Value} (h : v.IsPlain) (level : Nat) :
    IsText v.doc (v.prettyAt level).toList := by
  induction h generalizing level with
  | null => rw [doc, prettyAt]; exact isText_null
  | bool b => rw [doc, prettyAt]; exact isText_bool b
  | natural n => rw [doc, prettyAt]; exact isText_natural n
  | negative n => rw [doc, prettyAt]; exact isText_negative n
  | text s => rw [doc, prettyAt]; exact isText_textOf s
  | @list items h ih =>
    rw [doc, docItems_eq_map, prettyAt, prettyItems_eq_map]
    obtain ⟨before, behind, hbefore, hbehind, htext⟩ := @toList_indented "[" "]" level
      (items.map (·.prettyAt (level + 1)))
    rw [htext, List.map_map]
    exact isText_list hbefore hbehind (forall₂_map_map fun v hv => ih v hv _)
  | @object members h ih =>
    rw [doc, docMembers_eq_map, prettyAt, prettyMembers_eq_map]
    obtain ⟨before, behind, hbefore, hbehind, htext⟩ := @toList_indented "\x7b" "\x7d" level
      (members.map fun m => textOf m.1 ++ ": " ++ m.2.prettyAt (level + 1))
    rw [htext, List.map_map]
    refine isText_object hbefore hbehind (forall₂_map_map fun m hm => ?_)
    have hmember := @isMemberText_textOf m.1 _ [' '] _ (by simp [IsBlank, isSpace])
      (ih m hm (level + 1))
    simpa [String.toList_append] using hmember

end Value

theorem IsText.isOf {d : Doc} {text : String} (h : IsText d text.toList) : d.IsOf text :=
  ⟨text.toList, [], .refl _, by simpa using h [], .refl _⟩

/-- A line end behind a text does not matter. -/
theorem IsText.isOf_line {d : Doc} {text : String} (h : IsText d text.toList) :
    d.IsOf (text ++ "\n") :=
  ⟨text.toList ++ ['\n'], ['\n'], by rw [String.toList_append]; exact .refl _, h _,
    ⟨['\n'], rfl, List.forall_mem_singleton.mpr rfl⟩⟩

end CertRegistry.Json
