import CertRegistry.Proofs.Json.Shape
import CertRegistry.Proofs.Json.Skipping

/-!
# What documents mean to a reader

A reader for values of a known shape finds in a text what its document means for that shape, however
it is laid out, and complains if the document means nothing. What a document means is told without
any text: the members of an object are taken by their names, and those of other names are left out.
-/

namespace CertRegistry.Json

variable {α β : Type}

/-- Whether a reader finds this in each text of a document, and goes on behind it. -/
def Finds (read : Cursor → Except Fault (α × Cursor)) (d : Doc) (a? : Option α) : Prop :=
  ∀ {l t : List Char} {cur : Cursor}, IsValue d l t → Ends t → Gap cur.rest l →
    Comes (read cur) a? t

/-- Whether a reader finds in each text what its document means. -/
def Understands (read : Cursor → Except Fault (α × Cursor)) (f : Doc → Option α) : Prop :=
  ∀ {d : Doc}, Finds read d (f d)

/-! ## Values without members -/

/-- The text that is spelled, unless half a character stands alone. -/
def Spelled.string? (spelled : List Spelled) : Option String := (text? spelled).map String.ofList

namespace Doc

def text? : Doc → Option String
  | text spelled => Spelled.string? spelled
  | _ => none

def unit? : Doc → Option Unit
  | null => some ()
  | _ => none

def option? (f : Doc → Option α) : Doc → Option (Option α)
  | null => some none
  | d => (f d).map some

/-- A name, or an object with the name as its only key. -/
def choice? (known : List (String × α)) : Doc → Option α
  | text spelled => (Spelled.string? spelled).bind (known.lookup ·)
  | object [(key, null)] => (Spelled.string? key).bind (known.lookup ·)
  | _ => none

def list? (f : Doc → Option α) : Doc → Option (List α)
  | list items => items.mapM f
  | _ => none

end Doc

/-- A value of another kind is complained about. -/
theorem comes_mismatch (expected : String) (c : Char) (cur : Cursor) (t : List Char) :
    Comes (mismatch (α := α) expected c cur) none t := by
  unfold mismatch
  split
  · exact ⟨_, rfl⟩
  split
  · exact ⟨_, rfl⟩
  · cases readScalar c cur with
    | error fault => exact ⟨fault, rfl⟩
    | ok p => exact ⟨_, rfl⟩

theorem understands_dispatch {read : Char → Cursor → Except Fault (α × Cursor)}
    {f : Doc → Option α}
    (h : ∀ {d : Doc} {c : Char} {l t : List Char} {cur : Cursor}, IsValue d (c :: l) t → Ends t →
      cur.rest = c :: l → d.Opens c → Comes (read c cur) (f d) t) :
    Understands (dispatch read) f := by
  intro d l t cur hd ht hgap
  have hcur := hd.rest_skipBlanks hgap
  obtain ⟨c, rest, rfl, hc⟩ := hd.exists_cons
  simp only [dispatch, hcur]
  exact h hd ht hcur hc

theorem Doc.Opens.eq_text {d : Doc} (h : d.Opens '"') : ∃ spelled, d = .text spelled := by
  cases d with
  | text spelled => exact ⟨spelled, rfl⟩
  | null | list | object => cases h
  | bool b => cases b <;> cases h
  | number => exact absurd h (not_isDigit_of_mem (by decide))

theorem Doc.Opens.eq_list {d : Doc} (h : d.Opens '[') : ∃ items, d = .list items := by
  cases d with
  | list items => exact ⟨items, rfl⟩
  | null | text | object => cases h
  | bool b => cases b <;> cases h
  | number => exact absurd h (not_isDigit_of_mem (by decide))

theorem Doc.Opens.eq_object {d : Doc} (h : d.Opens '\x7b') : ∃ members, d = .object members := by
  cases d with
  | object members => exact ⟨members, rfl⟩
  | null | text | list => cases h
  | bool b => cases b <;> cases h
  | number => exact absurd h (not_isDigit_of_mem (by decide))

theorem Doc.Opens.eq_null {d : Doc} (h : d.Opens 'n') : d = .null := by
  cases d with
  | null => rfl
  | text | list | object => cases h
  | bool b => cases b <;> cases h
  | number => exact absurd h (not_isDigit_of_mem (by decide))

theorem Reader.understands_text (depth : Nat) : Understands (Reader.text depth) Doc.text? := by
  refine understands_dispatch fun {d c l t cur} hd ht hcur hc => ?_
  by_cases hquote : c = '"'
  · obtain ⟨spelled, rfl⟩ := Doc.Opens.eq_text (hquote ▸ hc)
    cases hd
    exact readText_spelled (by simp [hcur])
  · have hnone : d.text? = none := by
      cases d with
      | text spelled => exact absurd hc hquote
      | _ => rfl
    rw [if_neg hquote, hnone]
    exact comes_mismatch "a string" c cur t

theorem Reader.understands_option {read : Reader α} {f : Doc → Option α} {depth : Nat}
    (h : Understands (read depth) f) : Understands (Reader.option read depth) (Doc.option? f) := by
  intro d l t cur hd ht hgap
  have hcur := hd.rest_skipBlanks hgap
  obtain ⟨c, rest, rfl, hc⟩ := hd.exists_cons
  simp only [Reader.option, hcur, List.head?_cons]
  by_cases hnull : c = 'n'
  · obtain rfl := Doc.Opens.eq_null (hnull ▸ hc)
    cases hd
    obtain ⟨cur', hread, hrest⟩ := @readLetters_eq_ok ['u', 'l', 'l'] (cur.skipBlanks.pass 'n') t
      (by simp [hcur])
    refine ⟨cur', ?_, hrest⟩
    rw [if_pos rfl, hread]
    rfl
  · have hsome : Doc.option? f d = (f d).map some := by
      cases d with
      | null => exact absurd hc hnull
      | _ => rfl
    rw [if_neg (by simpa using hnull), hsome]
    exact (h hd ht (hcur ▸ Gap.refl _)).map some

/-- A name that is spelled is looked up. -/
theorem Reader.comes_readName {known : List (String × α)} {spelled : List Spelled} {cur : Cursor}
    {t : List Char} (h : cur.rest = spelled.flatMap Spelled.chars ++ '"' :: t) :
    Comes (Reader.readName known cur)
      ((Spelled.string? spelled).bind (known.lookup ·)) t := by
  refine (readText_spelled h).bind fun name cur' hname hcur' => ?_
  cases hlookup : known.lookup name with
  | none =>
    simp only [hlookup]
    exact ⟨_, rfl⟩
  | some a =>
    simp only [hlookup]
    exact ⟨cur', rfl, hcur'⟩

theorem passColon_of_gap {cur : Cursor} {t : List Char} (h : Gap cur.rest (':' :: t)) :
    ∃ cur', passColon cur = .ok cur' ∧ cur'.rest = t := by
  have hcur := h.rest_skipBlanks (by decide)
  refine ⟨cur.skipBlanks.pass ':', ?_, by simp [hcur]⟩
  simp [passColon, hcur]

theorem Reader.understands_passNull :
    Understands Reader.passNull Doc.unit? := by
  refine understands_dispatch fun {d c l t cur} hd ht hcur hc => ?_
  by_cases hnull : c = 'n'
  · obtain rfl := Doc.Opens.eq_null (hnull ▸ hc)
    cases hd
    obtain ⟨cur', hread, hrest⟩ := @readLetters_eq_ok ['u', 'l', 'l'] (cur.pass 'n') t
      (by simp [hcur])
    refine ⟨cur', ?_, hrest⟩
    rw [if_pos rfl, hread]
    rfl
  · rw [if_neg hnull]
    cases d with
    | null => exact absurd hc hnull
    | _ => exact comes_mismatch "unit" c cur t

/-- The only key of an object is the first one. -/
theorem Reader.comes_readKey {known : List (String × α)} {key : List Spelled} {cur : Cursor}
    {k : List Char} (h : Gap cur.rest ('"' :: (key.flatMap Spelled.chars ++ '"' :: k))) :
    Comes (Reader.readKey known cur) ((Spelled.string? key).bind (known.lookup ·)) k := by
  have hcur := h.rest_skipBlanks (by decide)
  simp only [Reader.readKey, hcur, if_true]
  exact Reader.comes_readName (by simp [hcur])

/-- An object is a choice only if it has one key, with null for it. -/
theorem Doc.choice?_object (known : List (String × α)) (key : List Spelled) (d : Doc)
    (rest : List (List Spelled × Doc)) : choice? known (.object ((key, d) :: rest)) =
      ((Spelled.string? key).bind (known.lookup ·)).bind fun a =>
        d.unit?.bind fun _ => if rest.isEmpty then some a else none := by
  cases d with
  | null =>
    cases rest with
    | nil => simp [choice?, unit?]
    | cons m rest => simp [choice?, unit?]
  | _ => simp [choice?, unit?]

theorem Reader.understands_choice (known : List (String × α)) (depth : Nat) :
    Understands (Reader.choice known (depth + 2)) (Doc.choice? known) := by
  refine understands_dispatch fun {d c l t cur} hd ht hcur hc => ?_
  by_cases hquote : c = '"'
  · obtain ⟨spelled, rfl⟩ := Doc.Opens.eq_text (hquote ▸ hc)
    cases hd
    exact Reader.comes_readName (by simp [hcur])
  by_cases hbrace : c = '\x7b'
  · obtain ⟨members, rfl⟩ := Doc.Opens.eq_object (hbrace ▸ hc)
    subst hbrace
    cases hd with
    | object hmembers =>
      have hpass : (cur.pass '\x7b').rest = l := by simp [hcur]
      rw [← hpass] at hmembers
      rw [if_neg hquote, if_pos rfl, openNested_eq_ok]
      generalize cur.pass '\x7b' = cur at hmembers
      cases hmembers with
      | done hgap =>
        have hend := hgap.rest_skipBlanks (by decide)
        have hkey : ∃ fault, Reader.readKey known cur = .error fault := by
          simp [Reader.readKey, hend, Cursor.failAhead, Cursor.fail]
        obtain ⟨fault, hkey⟩ := hkey
        exact ⟨fault, by simp only [hkey, bind, Except.bind]⟩
      | @member _ key d rest _ k k' v l' _ hbefore hcolon hgap hvalue hrest =>
        rw [Doc.choice?_object]
        cases hbefore with
        | first hbefore =>
          refine (Reader.comes_readKey hbefore).bind fun a cur₁ _ hcur₁ => ?_
          obtain ⟨cur₂, hpassed, rfl⟩ := passColon_of_gap (hcur₁ ▸ hcolon)
          simp only [hpassed, bind, Except.bind]
          refine (Reader.understands_passNull hvalue hrest.ends hgap).bind fun _ cur₃ _ hcur₃ => ?_
          cases hrest with
          | done hgap =>
            have hend := (hcur₃ ▸ hgap).rest_skipBlanks (by decide)
            exact ⟨_, by simp only [hend, if_true]; rfl, by simp [hend]⟩
          | member hbefore =>
            cases hbefore with
            | comma hcomma =>
              have hmore := (hcur₃ ▸ hcomma).rest_skipBlanks (by decide)
              exact ⟨_, by simp only [hmore]; rfl⟩
  · have hnone : Doc.choice? known d = none := by
      cases d with
      | text spelled => exact absurd hc hquote
      | object members => exact absurd hc hbrace
      | _ => rfl
    rw [if_neg hquote, if_neg hbrace, hnone]
    exact ⟨_, rfl⟩

/-! ## Lists -/

section Lists

variable {item : Cursor → Except Fault (α × Cursor)} {first : Bool} {cur : Cursor} {t : List Char}

theorem nextItem?_none (first : Bool) (h : Gap cur.rest (']' :: t)) :
    nextItem? first cur = .ok none := by
  have hcur := h.rest_skipBlanks (by decide)
  simp [nextItem?, hcur]

theorem nextItem?_some {c : Char} {l : List Char} (h : Separates first cur.rest (c :: l))
    (hspace : isSpace c = false) (hc : c ≠ ']') :
    ∃ cur', nextItem? first cur = .ok (some cur') ∧ cur'.rest = c :: l := by
  cases h with
  | first hgap =>
    have hcur := hgap.rest_skipBlanks hspace
    exact ⟨cur.skipBlanks, by simp [nextItem?, hcur, hc], hcur⟩
  | comma hgap hgap' =>
    have hcur := hgap.rest_skipBlanks (by decide)
    have hbehind : (cur.skipBlanks.pass ',').skipBlanks.rest = c :: l := by
      refine Gap.rest_skipBlanks ?_ hspace
      rw [Cursor.rest_pass, hcur]
      exact hgap'
    exact ⟨(cur.skipBlanks.pass ',').skipBlanks, by simp [nextItem?, hcur, hbehind, hc], hbehind⟩

theorem closeList_of_gap (h : Gap cur.rest (']' :: t)) :
    ∃ cur', closeList cur = .ok cur' ∧ cur'.rest = t := by
  have hcur := h.rest_skipBlanks (by decide)
  exact ⟨cur.skipBlanks.pass ']', by simp [closeList, hcur], by simp [hcur]⟩

/-- A list is not closed before the items that are left. -/
theorem closeList_of_comma {l l' : List Char} (h : Gap l (',' :: l')) (hcur : cur.rest = l) :
    ∃ fault, closeList cur = .error fault := by
  have hcur := (hcur ▸ h).rest_skipBlanks (by decide)
  simp only [closeList, hcur]
  rw [if_neg (by decide), if_pos trivial]
  split <;> exact ⟨_, rfl⟩

theorem comes_readItems {items : List Doc} {as? : List (Option α)}
    (hitems : List.Forall₂ (Finds item) items as?) (h : IsItems first items cur.rest t)
    {count : Nat} (hcount : items.length < count) :
    Comes (readItems item count first cur) (as?.mapM id) t := by
  induction hitems generalizing first cur count with
  | nil =>
    obtain ⟨count, rfl⟩ : ∃ n, count = n + 1 := ⟨count - 1, by simp at hcount; omega⟩
    cases h with
    | done hgap =>
      obtain ⟨cur', hclose, hrest⟩ := closeList_of_gap hgap
      refine ⟨cur', ?_, hrest⟩
      simp only [readItems, nextItem?_none first hgap, hclose, bind, Except.bind]
      rfl
  | @cons d a? items as? hitem _ ih =>
    obtain ⟨count, rfl⟩ : ∃ n, count = n + 1 := ⟨count - 1, by omega⟩
    cases h with
    | item hbefore hvalue hrest =>
      obtain ⟨c, l, rfl, hc⟩ := hvalue.exists_cons
      obtain ⟨cur₁, hnext, hcur₁⟩ := nextItem?_some hbefore hc.isSpace hc.ne.1
      have hstep : readItems item (count + 1) first cur = item cur₁ >>= fun p =>
          (fun q => (p.1 :: q.1, q.2)) <$> readItems item count false p.2 := by
        rw [readItems, hnext]
        rfl
      have hall : (a? :: as?).mapM id = a?.bind fun a => (as?.mapM id).map (a :: ·) := by
        rw [List.mapM_cons]
        cases a? with
        | none => rfl
        | some a => cases as?.mapM id <;> rfl
      rw [hstep, hall]
      refine (hitem hvalue hrest.ends (hcur₁ ▸ Gap.refl _)).bind fun a cur₂ _ hcur₂ => ?_
      exact (ih (hcur₂ ▸ hrest) (by simpa using hcount)).map (a :: ·)

end Lists

theorem Reader.understands_list {read : Reader α} {f : Doc → Option α} {depth : Nat}
    (h : Understands (read (depth + 1)) f) :
    Understands (Reader.list read (depth + 2)) (Doc.list? f) := by
  refine understands_dispatch fun {d c l t cur} hd ht hcur hc => ?_
  by_cases hbracket : c = '['
  · obtain ⟨items, rfl⟩ := Doc.Opens.eq_list (hbracket ▸ hc)
    subst hbracket
    cases hd with
    | list hitems =>
      have hpass : (cur.pass '[').rest = l := by simp [hcur]
      have hlength := hitems.length_lt fun d _ => IsValue.length_lt
      have hparts : List.Forall₂ (Finds (read (depth + 1))) items (items.map f) :=
        List.forall₂_map_right_iff.mpr (List.forall₂_same.mpr fun d _ => h)
      have hmeant : Doc.list? f (.list items) = (items.map f).mapM id := by
        rw [Doc.list?, List.mapM_map]
        rfl
      rw [if_pos rfl, openNested_eq_ok, hmeant]
      exact comes_readItems hparts (hpass ▸ hitems) (by rw [hpass]; omega)
  · have hnone : Doc.list? f d = none := by
      cases d with
      | list items => exact absurd hc hbracket
      | _ => rfl
    rw [if_neg hbracket, hnone]
    exact comes_mismatch "a sequence" c cur t

/-! ## Keys -/

section Keys

variable {first : Bool} {cur : Cursor} {t : List Char}

theorem nextKey?_none (first : Bool) (h : Gap cur.rest ('\x7d' :: t)) :
    nextKey? first cur = .ok none := by
  have hcur := h.rest_skipBlanks (by decide)
  simp [nextKey?, hcur]

theorem nextKey?_some {k : List Char} (h : Separates first cur.rest ('"' :: k)) :
    ∃ cur', nextKey? first cur = some <$> readText cur' ∧ cur'.rest = k := by
  cases h with
  | first hgap =>
    have hcur := hgap.rest_skipBlanks (by decide)
    exact ⟨cur.skipBlanks.pass '"', by simp [nextKey?, hcur], by simp [hcur]⟩
  | comma hgap hgap' =>
    have hcur := hgap.rest_skipBlanks (by decide)
    have hbehind : (cur.skipBlanks.pass ',').skipBlanks.rest = '"' :: k := by
      refine Gap.rest_skipBlanks ?_ (by decide)
      rw [Cursor.rest_pass, hcur]
      exact hgap'
    exact ⟨(cur.skipBlanks.pass ',').skipBlanks.pass '"', by simp [nextKey?, hcur, hbehind],
      by simp [hbehind]⟩

end Keys

/-! ## Whole texts -/

theorem Ends.of_gap {t : List Char} (h : Gap t []) : Ends t := by
  obtain ⟨blanks, rfl, hblanks⟩ := h
  intro c hc
  rw [List.append_nil] at hc
  exact .inl (hblanks c (List.mem_of_mem_head? hc))

/-- A text holds a value if and only if the reader finds that value in its document. -/
theorem Reader.parse_eq_ok_iff {read : Reader α} {d : Doc} {a? : Option α}
    (h : Finds (read maxDepth) d a?) {text : String} (hd : d.IsOf text) {a : α} :
    read.parse text = .ok a ↔ a? = some a := by
  obtain ⟨l, t, hgap, hvalue, hend⟩ := hd
  have hcomes : Comes (read maxDepth (Cursor.start text)) a? t := h hvalue (.of_gap hend) hgap
  cases a? with
  | none =>
    obtain ⟨fault, hread⟩ := hcomes
    simp [Reader.parse, hread, bind, Except.bind]
  | some b =>
    obtain ⟨cur, hread, hcur⟩ := hcomes
    have hskipped : cur.skipBlanks.rest = [] := by
      obtain ⟨blanks, rfl, hblanks⟩ := hend
      rw [Cursor.rest_skipBlanks, hcur, List.append_nil, List.dropWhile_eq_nil_iff]
      exact hblanks
    simp [Reader.parse, hread, hskipped, bind, Except.bind, pure, Except.pure]

end CertRegistry.Json
