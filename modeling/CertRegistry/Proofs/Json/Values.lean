import CertRegistry.Proofs.Json.Meaning
import CertRegistry.Proofs.Json.Numbers

/-!
# What documents mean as values of any shape

A value of any shape is read from a text as its document tells it: numbers by their characters, and
of several members with the same key the last one.
-/

namespace CertRegistry.Json

/-! ## What is meant -/

/-- The number that characters spell, with a minus sign before it or without. -/
def Number.ofChars? : List Char → Option Number
  | '-' :: rest => (readNumber true { rest }).toOption.map (·.1)
  | cs => (readNumber false { rest := cs }).toOption.map (·.1)

/-- What a document means as a value, where lists and objects may nest only so deep. -/
def Doc.value? : Nat → Doc → Option Value
  | _ + 1, .null => some .null
  | _ + 1, .bool b => some (.bool b)
  | _ + 1, .number cs => (Number.ofChars? cs).map Value.number
  | _ + 1, .text spelled => (Spelled.string? spelled).map Value.text
  | depth + 2, .list items => (items.mapM (value? (depth + 1))).map Value.list
  | depth + 2, .object members =>
    (members.mapM fun m => (Spelled.string? m.1).bind fun key =>
      (value? (depth + 1) m.2).map (key, ·)).map Value.record
  | _, _ => none

theorem Comes.toOption_eq {α : Type} {r : Except Fault (α × Cursor)} {a? : Option α}
    {t : List Char} (h : Comes r a? t) : r.toOption.map (·.1) = a? := by
  cases a? with
  | none =>
    obtain ⟨fault, rfl⟩ := h
    rfl
  | some a =>
    obtain ⟨cur, rfl, -⟩ := h
    rfl

/-! ## Numbers -/

theorem Number.ofChars?_of_isUnsigned {cs : List Char} (h : IsUnsigned cs) :
    ofChars? cs = (readNumber false { rest := cs }).toOption.map (·.1) := by
  obtain ⟨c, rest, rfl, hc⟩ := h.exists_cons
  unfold ofChars?
  split
  · next heq => exact absurd (List.cons.inj heq).1 (ne_of_isDigit hc (by decide))
  · rfl

theorem comes_unsigned {cs t : List Char} {cur : Cursor} (h : IsUnsigned cs) (ht : Ends t)
    (hcur : cur.rest = cs ++ t) : Comes (readNumber false cur) (Number.ofChars? cs) t := by
  obtain ⟨x?, hcomes, -⟩ := comes_readNumber false h
  have hx := (@hcomes [] { rest := cs } ends_nil (List.append_nil cs).symm).toOption_eq
  rw [Number.ofChars?_of_isUnsigned h, hx]
  exact hcomes ht hcur

theorem comes_signed {cs t : List Char} {cur : Cursor} (h : IsUnsigned cs) (ht : Ends t)
    (hcur : cur.rest = cs ++ t) : Comes (readNumber true cur) (Number.ofChars? ('-' :: cs)) t := by
  obtain ⟨x?, hcomes, -⟩ := comes_readNumber true h
  have hx := (@hcomes [] { rest := cs } ends_nil (List.append_nil cs).symm).toOption_eq
  rw [Number.ofChars?, hx]
  exact hcomes ht hcur

/-- A number is a natural number exactly if it is written in digits alone and fits 64 bits. -/
theorem Number.ofChars?_eq_natural_iff {cs : List Char} (h : IsNumber cs) {n : Nat} :
    ofChars? cs = some (.natural n) ↔ Text.IsDecimal cs n ∧ n < UInt64.size := by
  rcases h with h | ⟨rest, rfl, h⟩
  · obtain ⟨x?, hcomes, hnatural⟩ := comes_readNumber false h
    have hx := (@hcomes [] { rest := cs } ends_nil (List.append_nil cs).symm).toOption_eq
    rw [ofChars?_of_isUnsigned h, hx, hnatural]
    simp
  · obtain ⟨x?, hcomes, hnatural⟩ := comes_readNumber true h
    have hx := (@hcomes [] { rest } ends_nil (List.append_nil rest).symm).toOption_eq
    rw [ofChars?, hx, hnatural]
    constructor
    · rintro ⟨hnegative, -⟩
      cases hnegative
    · rintro ⟨hdecimal, -⟩
      exact absurd (hdecimal.isDigit '-' List.mem_cons_self) (by decide)

theorem readScalar_digit {c : Char} (hc : c.isDigit = true) (cur : Cursor) :
    readScalar c cur = (fun p => (Value.number p.1, p.2)) <$> readNumber false cur := by
  unfold readScalar
  split
  · exact absurd rfl (ne_of_isDigit hc (by decide))
  · exact absurd rfl (ne_of_isDigit hc (by decide))
  · exact absurd rfl (ne_of_isDigit hc (by decide))
  · exact absurd rfl (ne_of_isDigit hc (by decide))
  · exact absurd rfl (ne_of_isDigit hc (by decide))
  · rw [if_pos hc]

/-! ## Values without parts -/

theorem comes_readScalar {d : Doc} (hscalar : d.IsScalar) (depth : Nat) {c : Char} {l t : List Char}
    {cur : Cursor} (hd : IsValue d (c :: l) t) (ht : Ends t) (hcur : cur.rest = c :: l) :
    Comes (readScalar c cur) (d.value? (depth + 1)) t := by
  cases d with
  | null =>
    cases hd
    obtain ⟨cur', hread, hrest⟩ := @readLetters_eq_ok ['u', 'l', 'l'] (cur.pass 'n') t
      (by simp [hcur])
    exact ⟨cur', by simp only [readScalar, hread]; rfl, hrest⟩
  | bool b =>
    cases hd with
    | true =>
      obtain ⟨cur', hread, hrest⟩ := @readLetters_eq_ok ['r', 'u', 'e'] (cur.pass 't') t
        (by simp [hcur])
      exact ⟨cur', by simp only [readScalar, hread]; rfl, hrest⟩
    | false =>
      obtain ⟨cur', hread, hrest⟩ := @readLetters_eq_ok ['a', 'l', 's', 'e'] (cur.pass 'f') t
        (by simp [hcur])
      exact ⟨cur', by simp only [readScalar, hread]; rfl, hrest⟩
  | number cs =>
    obtain ⟨hall, hnumber⟩ : c :: l = cs ++ t ∧ IsNumber cs := by
      generalize c :: l = front at hd
      cases hd with
      | number hnumber => exact ⟨rfl, hnumber⟩
    rcases hnumber with hunsigned | ⟨rest, rfl, hunsigned⟩
    · obtain ⟨first, rest, rfl, hfirst⟩ := hunsigned.exists_cons
      obtain ⟨rfl, -⟩ := List.cons.inj hall
      rw [readScalar_digit hfirst]
      exact (comes_unsigned hunsigned ht (hcur.trans hall)).map Value.number
    · obtain ⟨rfl, rfl⟩ := List.cons.inj hall
      exact (comes_signed hunsigned ht (by simp [hcur])).map Value.number
  | text spelled =>
    cases hd
    exact (readText_spelled (by simp [hcur])).map Value.text
  | list items => exact hscalar.elim
  | object members => exact hscalar.elim

/-! ## Members -/

section Members

variable {α : Type} {value : Cursor → Except Fault (α × Cursor)} {f : Doc → Option α}

/-- The members of an object are put in order, each under its key. -/
theorem comes_readMembers (hvalue : ∀ d, Finds value d (f d))
    (members : List (List Spelled × Doc)) {first : Bool} {cur : Cursor} {t : List Char}
    (h : IsMembers first members cur.rest t) {count : Nat} (hcount : members.length < count)
    (before : List (String × α)) :
    Comes (readMembers value count first before cur)
      ((members.mapM fun m => (Spelled.string? m.1).bind fun key => (f m.2).map (key, ·)).map
        fun named => named.foldl (fun ms m => putMember m.1 m.2 ms) before) t := by
  induction members generalizing first cur count before with
  | nil =>
    obtain ⟨count, rfl⟩ : ∃ n, count = n + 1 := ⟨count - 1, by simp at hcount; omega⟩
    cases h with
    | done hgap =>
      have hcur := hgap.rest_skipBlanks (by decide)
      refine ⟨cur.skipBlanks.pass '\x7d', ?_, by simp [hcur]⟩
      simp only [readMembers, nextKey?_none first hgap, bind, Except.bind]
      rfl
  | cons m members ih =>
    obtain ⟨count, rfl⟩ : ∃ n, count = n + 1 := ⟨count - 1, by omega⟩
    cases h with
    | @member _ key d _ _ _ _ _ _ _ hbefore hcolon hgap hd hrest =>
      obtain ⟨cur₁, hnext, hcur₁⟩ := nextKey?_some hbefore
      have hstep : readMembers value (count + 1) first before cur = readText cur₁ >>= fun p =>
          passColon p.2 >>= fun cur₂ => value cur₂ >>= fun q =>
            readMembers value count false (putMember p.1 q.1 before) q.2 := by
        rw [readMembers, hnext]
        cases readText cur₁ <;> rfl
      have hall : (((key, d) :: members).mapM fun m => (Spelled.string? m.1).bind fun key =>
            (f m.2).map (key, ·)).map
              (fun named => named.foldl (fun ms m => putMember m.1 m.2 ms) before) =
          (Spelled.string? key).bind fun name => (f d).bind fun a =>
            (members.mapM fun m => (Spelled.string? m.1).bind fun key => (f m.2).map (key, ·)).map
              fun named => named.foldl (fun ms m => putMember m.1 m.2 ms)
                (putMember name a before) := by
        rw [List.mapM_cons]
        cases Spelled.string? key with
        | none => rfl
        | some name =>
          cases f d with
          | none => rfl
          | some a =>
            cases members.mapM fun m => (Spelled.string? m.1).bind fun key =>
              (f m.2).map (key, ·) <;> rfl
      rw [hstep, hall]
      refine (readText_spelled hcur₁).bind fun name cur₂ _ hcur₂ => ?_
      obtain ⟨cur₃, hpassed, rfl⟩ := passColon_of_gap (hcur₂ ▸ hcolon)
      simp only [hpassed]
      exact (hvalue d hd hrest.ends hgap).bind fun a cur₄ _ hcur₄ =>
        ih (hcur₄ ▸ hrest) (by simpa using hcount) _

end Members

/-! ## Values -/

theorem finds_scalar {d : Doc} (hscalar : d.IsScalar) (depth : Nat) :
    Finds (readValue (depth + 1)) d (d.value? (depth + 1)) := by
  intro l t cur hd ht hgap
  have hcur := hd.rest_skipBlanks hgap
  obtain ⟨c, rest, rfl, hc⟩ := hd.exists_cons
  have hopening := hc.ofOpening? hscalar
  have hlist : c ≠ '[' := by
    rintro rfl
    cases hopening
  have hobject : c ≠ '\x7b' := by
    rintro rfl
    cases hopening
  simp only [readValue, hcur, if_neg hlist, if_neg hobject]
  exact comes_readScalar hscalar depth hd ht hcur

section Nested

variable {depth : Nat} (h : Understands (readValue (depth + 1)) (Doc.value? (depth + 1)))
include h

theorem finds_list (items : List Doc) :
    Finds (readValue (depth + 2)) (.list items) (Doc.value? (depth + 2) (.list items)) := by
  intro l t cur hd ht hgap
  have hcur := hd.rest_skipBlanks hgap
  cases hd with
  | @list _ l _ hitems =>
    have hpass : (cur.skipBlanks.pass '[').rest = l := by simp [hcur]
    have hlength := hitems.length_lt fun d _ => IsValue.length_lt
    have hparts : List.Forall₂ (Finds (readValue (depth + 1))) items
        (items.map (Doc.value? (depth + 1))) :=
      List.forall₂_map_right_iff.mpr (List.forall₂_same.mpr fun d _ => h)
    have hmeant : Doc.value? (depth + 2) (.list items) =
        ((items.map (Doc.value? (depth + 1))).mapM id).map Value.list := by
      rw [Doc.value?, List.mapM_map]
      rfl
    simp only [readValue, hcur, if_true, openNested_eq_ok]
    rw [hmeant]
    exact (comes_readItems hparts (hpass ▸ hitems) (by rw [hpass]; omega)).map Value.list

theorem finds_object (members : List (List Spelled × Doc)) :
    Finds (readValue (depth + 2)) (.object members) (Doc.value? (depth + 2) (.object members)) := by
  intro l t cur hd ht hgap
  have hcur := hd.rest_skipBlanks hgap
  cases hd with
  | @object _ l _ hmembers =>
    have hpass : (cur.skipBlanks.pass '\x7b').rest = l := by simp [hcur]
    have hlength := hmembers.length_lt fun m _ => IsValue.length_lt
    have hcount : members.length < (cur.skipBlanks.pass '\x7b').rest.length + 1 := by
      rw [hpass]
      omega
    have hread := comes_readMembers (fun d => @h d) members (hpass ▸ hmembers) hcount []
    have hmeant : Doc.value? (depth + 2) (.object members) =
        ((members.mapM fun m => (Spelled.string? m.1).bind fun key =>
          (Doc.value? (depth + 1) m.2).map (key, ·)).map
            fun named => named.foldl (fun ms m => putMember m.1 m.2 ms) []).map Value.object := by
      rw [Doc.value?, Option.map_map]
      rfl
    simp only [readValue, hcur, if_true, openNested_eq_ok]
    rw [hmeant]
    exact hread.map Value.object

end Nested

/-- A reader of values of any shape finds in each text what its document means. -/
theorem Reader.understands_value (depth : Nat) :
    Understands (Reader.value depth) (Doc.value? depth) := by
  -- there is no room for lists and objects on the last level
  have hlast : ∀ {d : Doc}, ¬ d.IsScalar → Finds (readValue 1) d none := by
    intro d hscalar l t cur hd _ hgap
    have hcur := hd.rest_skipBlanks hgap
    cases hd with
    | list => exact ⟨_, by simp only [readValue, hcur, if_true]; rfl⟩
    | object => exact ⟨_, by simp only [readValue, hcur, if_true]; rfl⟩
    | _ => exact absurd trivial hscalar
  induction depth with
  | zero =>
    intro d l t cur _ _ _
    cases d <;> exact ⟨_, rfl⟩
  | succ depth ih =>
    intro d
    cases depth with
    | zero =>
      cases d with
      | list items => exact hlast id
      | object members => exact hlast id
      | _ => exact finds_scalar (by trivial) 0
    | succ depth =>
      cases d with
      | list items => exact finds_list ih items
      | object members => exact finds_object ih members
      | _ => exact finds_scalar (by trivial) (depth + 1)

/-! ## Members of the same key -/

section Lookup

variable {α : Type}

theorem find?_putMember (key k : String) (v : α) (members : List (String × α)) :
    (putMember k v members).find? (·.1 = key) =
      if k = key then some (k, v) else members.find? (·.1 = key) := by
  induction members with
  | nil => by_cases h : k = key <;> simp [putMember, h]
  | cons m members ih =>
    obtain ⟨name, w⟩ := m
    rw [putMember]
    split
    · next hsame => by_cases h : k = key <;> simp [h, ← hsame]
    split
    · by_cases h : k = key <;> simp [h]
    · next hne _ =>
      by_cases hm : name = key
      · have hother : k ≠ key := fun h => hne (h.trans hm.symm)
        simp [hm, hother]
      · rw [List.find?_cons_of_neg (by simpa using hm), ih,
          List.find?_cons_of_neg (by simpa using hm)]

/-- Of several members with the same key the last one counts. -/
theorem find?_foldl_putMember (key : String) (members before : List (String × α)) :
    (members.foldl (fun ms m => putMember m.1 m.2 ms) before).find? (·.1 = key) =
      (members.reverse.find? (·.1 = key)).or (before.find? (·.1 = key)) := by
  induction members generalizing before with
  | nil => rfl
  | cons m members ih =>
    obtain ⟨name, w⟩ := m
    rw [List.foldl_cons, ih, List.reverse_cons, List.find?_append, Option.or_assoc,
      find?_putMember]
    by_cases hm : name = key <;> simp [hm]

end Lookup

/-- The value of the last member of an object with a key. -/
def Doc.lastMember? (name : String) (members : List (List Spelled × Doc)) : Option Doc :=
  (members.reverse.find? fun m => Spelled.string? m.1 = some name).map (·.2)

/-- A member of the value that an object means is what the last member with the key means. -/
theorem Doc.member?_of_value? {depth : Nat} {members : List (List Spelled × Doc)} {v : Value}
    (h : (Doc.object members).value? (depth + 2) = some v) (name : String) :
    Option.Rel (fun d w => d.value? (depth + 1) = some w) (lastMember? name members)
      (v.member? name) := by
  obtain ⟨named, hnamed, rfl⟩ := Option.map_eq_some_iff.mp h
  have hall := List.forall₂_reverse_iff.mpr (mapM_eq_some.mp hnamed)
  rw [Value.record, Value.member?, find?_foldl_putMember, List.find?_nil, Option.or_none]
  unfold lastMember?
  generalize members.reverse = ds at hall
  generalize named.reverse = vs at hall
  induction hall with
  | nil => exact .none
  | @cons m p ds vs hm hrest ih =>
    obtain ⟨key, hkey, hvalue⟩ := Option.bind_eq_some_iff.mp hm
    obtain ⟨w, hw, rfl⟩ := Option.map_eq_some_iff.mp hvalue
    by_cases hname : key = name
    · rw [List.find?_cons_of_pos (by simp [hkey, hname]), List.find?_cons_of_pos (by simp [hname])]
      exact .some hw
    · rw [List.find?_cons_of_neg (by simp [hkey, hname]), List.find?_cons_of_neg (by simp [hname])]
      exact ih

/-- What is no object means a value without members. -/
theorem Doc.member?_of_isNoObject {depth : Nat} {d : Doc} {v : Value}
    (h : d.value? (depth + 2) = some v) (hd : ∀ members, d ≠ .object members) (name : String) :
    v.member? name = none := by
  cases d with
  | object members => exact absurd rfl (hd members)
  | list items =>
    obtain ⟨vs, -, rfl⟩ := Option.map_eq_some_iff.mp h
    rfl
  | number cs =>
    obtain ⟨x, -, rfl⟩ := Option.map_eq_some_iff.mp h
    rfl
  | text spelled =>
    obtain ⟨s, -, rfl⟩ := Option.map_eq_some_iff.mp h
    rfl
  | null | bool b =>
    obtain rfl := Option.some.inj h
    rfl

/-! ## Parts of texts -/

/-- Whether some text spells a document. -/
def Doc.IsWritten (d : Doc) : Prop := ∃ l t, IsValue d l t

theorem Doc.IsOf.isWritten {d : Doc} {text : String} (h : d.IsOf text) : d.IsWritten := by
  obtain ⟨l, t, -, hd, -⟩ := h
  exact ⟨l, t, hd⟩

theorem IsItems.isWritten {items : List Doc} {first : Bool} {l t : List Char}
    (h : IsItems first items l t) : ∀ d ∈ items, d.IsWritten := by
  induction items generalizing first l with
  | nil => exact List.forall_mem_nil _
  | cons d items ih =>
    cases h with
    | item _ hd hrest => exact List.forall_mem_cons.mpr ⟨⟨_, _, hd⟩, ih hrest⟩

theorem IsMembers.isWritten {members : List (List Spelled × Doc)} {first : Bool} {l t : List Char}
    (h : IsMembers first members l t) : ∀ m ∈ members, m.2.IsWritten := by
  induction members generalizing first l with
  | nil => exact List.forall_mem_nil _
  | cons m members ih =>
    cases h with
    | member _ _ _ hd hrest => exact List.forall_mem_cons.mpr ⟨⟨_, _, hd⟩, ih hrest⟩

theorem Doc.IsWritten.of_mem_items {items : List Doc} (h : (Doc.list items).IsWritten) :
    ∀ d ∈ items, d.IsWritten := by
  obtain ⟨l, t, hlist⟩ := h
  cases hlist with
  | list hitems => exact hitems.isWritten

theorem Doc.IsWritten.of_mem_members {members : List (List Spelled × Doc)}
    (h : (Doc.object members).IsWritten) : ∀ m ∈ members, m.2.IsWritten := by
  obtain ⟨l, t, hobject⟩ := h
  cases hobject with
  | object hmembers => exact hmembers.isWritten

theorem Doc.IsWritten.isNumber {cs : List Char} (h : (Doc.number cs).IsWritten) : IsNumber cs := by
  obtain ⟨l, t, hnumber⟩ := h
  cases hnumber with
  | number hnumber => exact hnumber

end CertRegistry.Json
