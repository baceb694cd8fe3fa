import CertRegistry.Proofs.Json.Acceptance
import CertRegistry.Proofs.Json.Fields
import CertRegistry.Proofs.Json.Values

/-!
# What is read is JSON

Whatever a reader for values of some shape accepts is a value of the grammar, up to where the reader
goes on. So a text holds a value of the shape if and only if it is the text of a document that means
the value.
-/

namespace CertRegistry.Json

variable {α β : Type}

/-- Whether whatever a reader accepts is a value of the grammar. -/
def Recognizes (read : Cursor → Except Fault (α × Cursor)) : Prop :=
  ∀ {cur cur' : Cursor} {a : α}, read cur = .ok (a, cur') →
    ∃ d l, Gap cur.rest l ∧ IsValue d l cur'.rest

section Parts

variable {cur cur' : Cursor}

/-! ## Lists -/

theorem gap_of_nextItem? {first : Bool} (h : nextItem? first cur = .ok (some cur')) :
    Separates first cur.rest cur'.rest := by
  unfold nextItem? at h
  simp only at h
  split at h
  · cases h
  · next c rest hcur =>
    split at h
    · cases h
    split at h
    · next hfirst =>
      obtain rfl := Option.some.inj (Except.ok.inj h)
      exact hfirst ▸ .first (gap_skipBlanks cur)
    · next hfirst =>
      obtain rfl : first = false := by simpa using hfirst
      split at h
      · next hcomma =>
        have hbehind : (cur.skipBlanks.pass c).rest = rest := by simp [hcur]
        split at h
        · cases h
        · split at h
          · cases h
          · obtain rfl := Option.some.inj (Except.ok.inj h)
            refine .comma (gap_of_skipBlanks (hcomma ▸ hcur)) ?_
            rw [← hbehind]
            exact gap_skipBlanks _
      · cases h

theorem gap_of_closeList (h : closeList cur = .ok cur') : Gap cur.rest (']' :: cur'.rest) := by
  unfold closeList at h
  simp only at h
  split at h
  · cases h
  · next c rest hcur =>
    split at h
    · next hclosing =>
      obtain rfl := Except.ok.inj h
      exact gap_of_skipBlanks (by rw [Cursor.rest_pass, hcur, hclosing, List.tail_cons])
    split at h
    · split at h <;> cases h
    · cases h

theorem isItems_of_readItems {item : Cursor → Except Fault (α × Cursor)} (hitem : Recognizes item)
    {count : Nat} {first : Bool} {as : List α}
    (h : readItems item count first cur = .ok (as, cur')) :
    ∃ items, IsItems first items cur.rest cur'.rest := by
  induction count generalizing first cur as with
  | zero => cases h
  | succ count ih =>
    rw [readItems] at h
    obtain ⟨next?, hnext, h⟩ := bind_eq_ok.mp h
    cases next? with
    | none =>
      obtain ⟨cur₁, hclose, h⟩ := bind_eq_ok.mp h
      obtain rfl := (Prod.mk.inj (Except.ok.inj h)).2
      exact ⟨[], .done (gap_of_closeList hclose)⟩
    | some cur₁ =>
      obtain ⟨⟨a, cur₂⟩, hread, h⟩ := bind_eq_ok.mp h
      obtain ⟨⟨more, cur₃⟩, hmore, h⟩ := bind_eq_ok.mp h
      obtain rfl := (Prod.mk.inj (Except.ok.inj h)).2
      obtain ⟨d, l, hgap, hvalue⟩ := hitem hread
      obtain ⟨items, hitems⟩ := ih hmore
      exact ⟨d :: items, .item ((gap_of_nextItem? hnext).gap hgap) hvalue hitems⟩

/-! ## Members -/

theorem gap_of_nextKey? {first : Bool} {key : String}
    (h : nextKey? first cur = .ok (some (key, cur'))) : ∃ spelled : List Spelled,
      Separates first cur.rest ('"' :: (spelled.flatMap Spelled.chars ++ '"' :: cur'.rest)) := by
  unfold nextKey? at h
  simp only at h
  split at h
  · cases h
  · next c rest hcur =>
    split at h
    · cases h
    split at h
    · next hcomma =>
      obtain ⟨hcomma, hfirst⟩ := hcomma
      obtain rfl : first = false := by simpa using hfirst
      have hbehind : (cur.skipBlanks.pass c).rest = rest := by simp [hcur]
      split at h
      · cases h
      · next c' rest' hcur' =>
        split at h
        · next hquote =>
          obtain ⟨p, hread, hp⟩ := map_eq_ok.mp h
          obtain rfl := Option.some.inj hp
          obtain ⟨spelled, hspelled⟩ := eq_of_readText hread
          rw [Cursor.rest_pass, hcur', List.tail_cons] at hspelled
          refine ⟨spelled, .comma (gap_of_skipBlanks (hcomma ▸ hcur)) ?_⟩
          rw [← hspelled, ← hquote, ← hcur', ← hbehind]
          exact gap_skipBlanks _
        split at h <;> cases h
    split at h
    · cases h
    split at h
    · next hfirst hquote =>
      obtain rfl : first = true := by simpa using hfirst
      obtain ⟨p, hread, hp⟩ := map_eq_ok.mp h
      obtain rfl := Option.some.inj hp
      obtain ⟨spelled, hspelled⟩ := eq_of_readText hread
      rw [Cursor.rest_pass, hcur, List.tail_cons] at hspelled
      exact ⟨spelled, .first (gap_of_skipBlanks (by rw [hcur, hquote, hspelled]))⟩
    · cases h

theorem gap_of_nextKey?_none {first : Bool} (h : nextKey? first cur = .ok none) :
    Gap cur.rest ('\x7d' :: (cur.skipBlanks.pass '\x7d').rest) := by
  unfold nextKey? at h
  simp only at h
  split at h
  · cases h
  · next c rest hcur =>
    split at h
    · next hclosing =>
      exact gap_of_skipBlanks (by rw [Cursor.rest_pass, hcur, hclosing, List.tail_cons])
    split at h
    · split at h
      · cases h
      · split at h
        · obtain ⟨p, -, hp⟩ := map_eq_ok.mp h
          cases hp
        · split at h <;> cases h
    split at h
    · cases h
    split at h
    · obtain ⟨p, -, hp⟩ := map_eq_ok.mp h
      cases hp
    · cases h

theorem gap_of_passColon (h : passColon cur = .ok cur') : Gap cur.rest (':' :: cur'.rest) := by
  unfold passColon at h
  simp only at h
  split at h
  · cases h
  · next c rest hcur =>
    split at h
    · next hcolon =>
      obtain rfl := Except.ok.inj h
      exact gap_of_skipBlanks (by rw [Cursor.rest_pass, hcur, hcolon, List.tail_cons])
    · cases h

theorem isMembers_of_readMembers {value : Cursor → Except Fault (α × Cursor)}
    (hvalue : Recognizes value) {count : Nat} {first : Bool} {before after : List (String × α)}
    (h : readMembers value count first before cur = .ok (after, cur')) :
    ∃ members, IsMembers first members cur.rest cur'.rest := by
  induction count generalizing first cur before with
  | zero => cases h
  | succ count ih =>
    rw [readMembers] at h
    obtain ⟨next?, hnext, h⟩ := bind_eq_ok.mp h
    cases next? with
    | none =>
      obtain rfl := (Prod.mk.inj (Except.ok.inj h)).2
      exact ⟨[], .done (gap_of_nextKey?_none hnext)⟩
    | some next =>
      obtain ⟨name, cur₁⟩ := next
      obtain ⟨cur₂, hcolon, h⟩ := bind_eq_ok.mp h
      obtain ⟨⟨a, cur₃⟩, hread, h⟩ := bind_eq_ok.mp h
      obtain ⟨key, hbefore⟩ := gap_of_nextKey? hnext
      obtain ⟨d, l, hgap, hd⟩ := hvalue hread
      obtain ⟨members, hmembers⟩ := ih h
      exact ⟨(key, d) :: members, .member hbefore (gap_of_passColon hcolon) hgap hd hmembers⟩

/-! ## Values of any shape -/

theorem isValue_of_readScalar {c : Char} {rest : List Char} {v : Value}
    (hcur : cur.rest = c :: rest) (h : readScalar c cur = .ok (v, cur')) :
    ∃ d, IsValue d cur.rest cur'.rest := by
  unfold readScalar at h
  split at h
  · obtain ⟨cur₁, hread, hpair⟩ := map_eq_ok.mp h
    obtain rfl := (Prod.mk.inj hpair).2
    exact ⟨.null, eq_of_word hcur hread ▸ .null⟩
  · obtain ⟨cur₁, hread, hpair⟩ := map_eq_ok.mp h
    obtain rfl := (Prod.mk.inj hpair).2
    exact ⟨.bool true, eq_of_word hcur hread ▸ .true⟩
  · obtain ⟨cur₁, hread, hpair⟩ := map_eq_ok.mp h
    obtain rfl := (Prod.mk.inj hpair).2
    exact ⟨.bool false, eq_of_word hcur hread ▸ .false⟩
  · obtain ⟨⟨s, cur₁⟩, hread, hpair⟩ := map_eq_ok.mp h
    obtain rfl := (Prod.mk.inj hpair).2
    obtain ⟨spelled, hspelled⟩ := eq_of_readText hread
    rw [Cursor.rest_pass, hcur, List.tail_cons] at hspelled
    exact ⟨.text spelled, by rw [hcur, hspelled]; exact .text⟩
  · obtain ⟨⟨x, cur₁⟩, hread, hpair⟩ := map_eq_ok.mp h
    obtain rfl := (Prod.mk.inj hpair).2
    obtain ⟨cs, hcs, hrest⟩ := isUnsigned_of_readNumber hread
    rw [Cursor.rest_pass, hcur, List.tail_cons] at hrest
    exact ⟨.number ('-' :: cs), by rw [hcur, hrest]; exact .number (.inr ⟨cs, rfl, hcs⟩)⟩
  · split at h
    · obtain ⟨⟨x, cur₁⟩, hread, hpair⟩ := map_eq_ok.mp h
      obtain rfl := (Prod.mk.inj hpair).2
      obtain ⟨cs, hcs, hrest⟩ := isUnsigned_of_readNumber hread
      exact ⟨.number cs, by rw [hrest]; exact .number (.inl hcs)⟩
    · cases h

theorem eq_of_openNested {depth depth' : Nat} {c : Char}
    (h : openNested depth c cur = .ok (depth', cur')) :
    depth' = depth - 1 ∧ cur' = cur.pass c := by
  unfold openNested at h
  split at h
  · cases h
  · obtain ⟨hdepth, hcur⟩ := Prod.mk.inj (Except.ok.inj h)
    exact ⟨hdepth.symm, hcur.symm⟩

end Parts

theorem Reader.recognizes_value (depth : Nat) : Recognizes (Reader.value depth) := by
  change Recognizes (readValue depth)
  induction depth with
  | zero =>
    intro cur cur' v h
    cases h
  | succ depth ih =>
    intro cur cur' v h
    rw [readValue] at h
    simp only at h
    split at h
    · cases h
    · next c rest hcur =>
      have hgap := gap_of_skipBlanks hcur
      split at h
      · next hlist =>
        obtain ⟨⟨depth', cur₁⟩, hopen, h⟩ := bind_eq_ok.mp h
        obtain ⟨-, rfl⟩ := eq_of_openNested hopen
        obtain ⟨⟨items, cur₂⟩, hread, h⟩ := bind_eq_ok.mp h
        obtain rfl := (Prod.mk.inj (Except.ok.inj h)).2
        obtain ⟨docs, hdocs⟩ := isItems_of_readItems ih hread
        rw [Cursor.rest_pass, hcur, List.tail_cons] at hdocs
        exact ⟨.list docs, _, hlist ▸ hgap, .list hdocs⟩
      split at h
      · next hobject =>
        obtain ⟨⟨depth', cur₁⟩, hopen, h⟩ := bind_eq_ok.mp h
        obtain ⟨-, rfl⟩ := eq_of_openNested hopen
        obtain ⟨⟨members, cur₂⟩, hread, h⟩ := bind_eq_ok.mp h
        obtain rfl := (Prod.mk.inj (Except.ok.inj h)).2
        obtain ⟨docs, hdocs⟩ := isMembers_of_readMembers ih hread
        rw [Cursor.rest_pass, hcur, List.tail_cons] at hdocs
        exact ⟨.object docs, _, hobject ▸ hgap, .object hdocs⟩
      · obtain ⟨d, hd⟩ := isValue_of_readScalar hcur h
        exact ⟨d, _, gap_skipBlanks cur, hd⟩

/-! ## Values of a known shape -/

theorem mismatch_ne_ok (expected : String) (c : Char) (cur : Cursor) (p : α × Cursor) :
    mismatch expected c cur ≠ .ok p := by
  obtain ⟨fault, hfault⟩ := comes_mismatch (α := α) expected c cur []
  rw [hfault]
  exact nofun

theorem recognizes_dispatch {read : Char → Cursor → Except Fault (α × Cursor)}
    (h : ∀ {c : Char} {rest : List Char} {cur cur' : Cursor} {a : α}, cur.rest = c :: rest →
      read c cur = .ok (a, cur') → ∃ d, IsValue d cur.rest cur'.rest) :
    Recognizes (dispatch read) := by
  intro cur cur' a hread
  unfold dispatch at hread
  simp only at hread
  split at hread
  · cases hread
  · next c rest hcur =>
    obtain ⟨d, hd⟩ := h hcur hread
    exact ⟨d, _, gap_skipBlanks cur, hd⟩

theorem Recognizes.map {read : Cursor → Except Fault (α × Cursor)} (h : Recognizes read)
    (f : α → β) : Recognizes fun cur => (fun p => (f p.1, p.2)) <$> read cur := by
  intro cur cur' b hmap
  obtain ⟨⟨a, cur₁⟩, hread, hpair⟩ := map_eq_ok.mp hmap
  obtain rfl := (Prod.mk.inj hpair).2
  exact h hread

theorem Reader.recognizes_text (depth : Nat) : Recognizes (Reader.text depth) := by
  refine recognizes_dispatch fun {c rest cur cur' s} hcur h => ?_
  split at h
  · next hquote =>
    obtain ⟨spelled, hspelled⟩ := eq_of_readText h
    rw [Cursor.rest_pass, hcur, List.tail_cons] at hspelled
    exact ⟨.text spelled, by rw [hcur, hspelled, hquote]; exact .text⟩
  · exact absurd h (mismatch_ne_ok _ _ _ _)

theorem Reader.recognizes_option {read : Reader α} {depth : Nat} (h : Recognizes (read depth)) :
    Recognizes (Reader.option read depth) := by
  intro cur cur' a hread
  unfold Reader.option at hread
  simp only at hread
  split at hread
  · next hnull =>
    obtain ⟨cur₁, hletters, hpair⟩ := map_eq_ok.mp hread
    obtain rfl := (Prod.mk.inj hpair).2
    obtain ⟨rest, hcur⟩ := List.head?_eq_some_iff.mp hnull
    have hrest := eq_of_readLetters hletters
    rw [Cursor.rest_pass, hcur, List.tail_cons] at hrest
    exact ⟨.null, _, gap_of_skipBlanks (by rw [hcur, hrest]; rfl), .null⟩
  · obtain ⟨d, l, hgap, hd⟩ := Recognizes.map h some hread
    exact ⟨d, l, (gap_skipBlanks cur).trans hgap, hd⟩

theorem Reader.recognizes_list {read : Reader α} (h : ∀ depth, Recognizes (read depth))
    (depth : Nat) : Recognizes (Reader.list read depth) := by
  refine recognizes_dispatch fun {c rest cur cur' as} hcur hread => ?_
  split at hread
  · next hbracket =>
    obtain ⟨⟨depth', cur₁⟩, hopen, hread⟩ := bind_eq_ok.mp hread
    obtain ⟨-, rfl⟩ := eq_of_openNested hopen
    obtain ⟨items, hitems⟩ := isItems_of_readItems (h depth') hread
    rw [Cursor.rest_pass, hcur, List.tail_cons] at hitems
    exact ⟨.list items, by rw [hcur, hbracket]; exact .list hitems⟩
  · exact absurd hread (mismatch_ne_ok _ _ _ _)

section Choices

variable {known : List (String × α)} {cur cur' : Cursor} {a : α}

theorem eq_of_readName (h : Reader.readName known cur = .ok (a, cur')) :
    ∃ spelled : List Spelled, cur.rest = spelled.flatMap Spelled.chars ++ '"' :: cur'.rest := by
  unfold Reader.readName at h
  obtain ⟨⟨name, cur₁⟩, hread, h⟩ := bind_eq_ok.mp h
  simp only at h
  split at h
  · obtain rfl := (Prod.mk.inj (Except.ok.inj h)).2
    exact eq_of_readText hread
  · cases h

theorem gap_of_readKey (h : Reader.readKey known cur = .ok (a, cur')) :
    ∃ spelled : List Spelled,
      Gap cur.rest ('"' :: (spelled.flatMap Spelled.chars ++ '"' :: cur'.rest)) := by
  unfold Reader.readKey at h
  simp only at h
  split at h
  · cases h
  · next c rest hcur =>
    split at h
    · next hquote =>
      obtain ⟨spelled, hspelled⟩ := eq_of_readName h
      rw [Cursor.rest_pass, hcur, List.tail_cons] at hspelled
      exact ⟨spelled, gap_of_skipBlanks (by rw [hcur, hquote, hspelled])⟩
    · cases h

theorem recognizes_passNull : Recognizes Reader.passNull := by
  refine recognizes_dispatch fun {c rest cur cur' u} hcur h => ?_
  split at h
  · next hnull =>
    obtain ⟨cur₁, hread, hpair⟩ := map_eq_ok.mp h
    obtain rfl := (Prod.mk.inj hpair).2
    have hrest := eq_of_readLetters hread
    rw [Cursor.rest_pass, hcur, List.tail_cons] at hrest
    exact ⟨.null, by rw [hcur, hnull, hrest]; exact .null⟩
  · exact absurd h (mismatch_ne_ok _ _ _ _)

theorem Reader.recognizes_choice (known : List (String × α)) (depth : Nat) :
    Recognizes (Reader.choice known depth) := by
  refine recognizes_dispatch fun {c rest cur cur' a} hcur h => ?_
  split at h
  · next hquote =>
    obtain ⟨spelled, hspelled⟩ := eq_of_readName h
    rw [Cursor.rest_pass, hcur, List.tail_cons] at hspelled
    exact ⟨.text spelled, by rw [hcur, hspelled, hquote]; exact .text⟩
  split at h
  · next hbrace =>
    obtain ⟨⟨depth', cur₁⟩, hopen, h⟩ := bind_eq_ok.mp h
    obtain ⟨-, rfl⟩ := eq_of_openNested hopen
    obtain ⟨⟨b, cur₂⟩, hkey, h⟩ := bind_eq_ok.mp h
    obtain ⟨cur₃, hcolon, h⟩ := bind_eq_ok.mp h
    obtain ⟨⟨u, cur₄⟩, hnull, h⟩ := bind_eq_ok.mp h
    obtain ⟨key, hbefore⟩ := gap_of_readKey hkey
    obtain ⟨d, l, hgap, hd⟩ := recognizes_passNull hnull
    simp only at h
    split at h
    · cases h
    · next c' rest' hcur₄ =>
      split at h
      · next hclosing =>
        obtain rfl := (Prod.mk.inj (Except.ok.inj h)).2
        have hend : Gap cur₄.rest ('\x7d' :: (cur₄.skipBlanks.pass c').rest) :=
          gap_of_skipBlanks (by rw [Cursor.rest_pass, hcur₄, hclosing, List.tail_cons])
        rw [Cursor.rest_pass, hcur, List.tail_cons] at hbefore
        refine ⟨.object [(key, d)], ?_⟩
        rw [hcur, hbrace]
        exact .object (.member (.first hbefore) (gap_of_passColon hcolon) hgap hd (.done hend))
      · cases h
  · cases h

end Choices

/-! ## Records -/

/-- Whether whatever is read for a member is a value of the grammar. -/
def Member.Recognizes (m : Member α) : Prop := ∀ depth a, Json.Recognizes (m.read depth a)

theorem Member.recognizes_required {read : Reader β} (h : ∀ depth, Json.Recognizes (read depth))
    (name : String) (set : α → β → α) : (Member.required name read set).Recognizes :=
  fun depth a => Recognizes.map (h depth) (set a)

theorem Member.recognizes_optional {read : Reader β} (h : ∀ depth, Json.Recognizes (read depth))
    (name : String) (set : α → β → α) : (Member.optional name read set).Recognizes :=
  fun depth a => Recognizes.map (h depth) (set a)

section Records

variable {R : Record α} {depth : Nat} {cur cur' : Cursor} {a b : α}

theorem isMembers_of_readNamed (hmembers : ∀ m ∈ R.members, m.Recognizes) {count : Nat}
    {first : Bool} {seen : List String}
    (h : R.readNamed depth count first seen a cur = .ok (b, cur')) :
    ∃ members, IsMembers first members cur.rest cur'.rest := by
  induction count generalizing first seen a cur with
  | zero => cases h
  | succ count ih =>
    rw [Record.readNamed] at h
    obtain ⟨next?, hnext, h⟩ := bind_eq_ok.mp h
    cases next? with
    | none =>
      simp only at h
      split at h
      · obtain ⟨fault, hfault⟩ := failObject_eq_error (β := α × Cursor) _ cur
        rw [hfault] at h
        cases h
      · obtain rfl := (Prod.mk.inj (Except.ok.inj h)).2
        exact ⟨[], .done (gap_of_nextKey?_none hnext)⟩
    | some next =>
      obtain ⟨name, cur₁⟩ := next
      obtain ⟨key, hbefore⟩ := gap_of_nextKey? hnext
      simp only at h
      split at h
      · next m hm =>
        split at h
        · obtain ⟨fault, hfault⟩ := failObject_eq_error (β := α × Cursor) _ cur₁
          rw [hfault] at h
          cases h
        · obtain ⟨cur₂, hcolon, h⟩ := bind_eq_ok.mp h
          obtain ⟨⟨a', cur₃⟩, hread, h⟩ := bind_eq_ok.mp h
          obtain ⟨d, l, hgap, hd⟩ := hmembers m (List.mem_of_find?_eq_some hm) depth a hread
          obtain ⟨members, hrest⟩ := ih h
          exact ⟨(key, d) :: members, .member hbefore (gap_of_passColon hcolon) hgap hd hrest⟩
      · obtain ⟨cur₂, hcolon, h⟩ := bind_eq_ok.mp h
        obtain ⟨cur₃, hskip, h⟩ := bind_eq_ok.mp h
        obtain ⟨d, l, hgap, hd⟩ := isValue_of_skipValue hskip
        obtain ⟨members, hrest⟩ := ih h
        exact ⟨(key, d) :: members, .member hbefore (gap_of_passColon hcolon) hgap hd hrest⟩

theorem isItems_of_readListed {members : List (Member α)} (hmembers : ∀ m ∈ members, m.Recognizes)
    {index : Nat} (h : R.readListed depth members index a cur = .ok (b, cur')) :
    ∃ items, IsItems (decide (index = 0)) items cur.rest cur'.rest := by
  induction members generalizing index a cur with
  | nil =>
    obtain ⟨cur₁, hclose, hpair⟩ := map_eq_ok.mp h
    obtain rfl := (Prod.mk.inj hpair).2
    exact ⟨[], .done (gap_of_closeList hclose)⟩
  | cons m members ih =>
    rw [Record.readListed] at h
    obtain ⟨next?, hnext, h⟩ := bind_eq_ok.mp h
    cases next? with
    | none =>
      simp only at h
      split at h
      · cases h
      · obtain ⟨cur₁, hclose, hpair⟩ := map_eq_ok.mp h
        obtain rfl := (Prod.mk.inj hpair).2
        exact ⟨[], .done (gap_of_closeList hclose)⟩
    | some cur₁ =>
      obtain ⟨⟨a', cur₂⟩, hread, h⟩ := bind_eq_ok.mp h
      obtain ⟨hm, hmore⟩ := List.forall_mem_cons.mp hmembers
      obtain ⟨d, l, hgap, hd⟩ := hm depth a hread
      obtain ⟨items, hitems⟩ := ih hmore h
      exact ⟨d :: items, .item ((gap_of_nextItem? hnext).gap hgap) hd (by simpa using hitems)⟩

theorem Record.recognizes (h : ∀ m ∈ R.members, m.Recognizes) (depth : Nat) :
    Recognizes (R.reader depth) := by
  refine recognizes_dispatch fun {c rest cur cur' a} hcur hread => ?_
  split at hread
  · next hbrace =>
    obtain ⟨⟨depth', cur₁⟩, hopen, hread⟩ := bind_eq_ok.mp hread
    obtain ⟨-, rfl⟩ := eq_of_openNested hopen
    obtain ⟨members, hmembers⟩ := isMembers_of_readNamed h hread
    rw [Cursor.rest_pass, hcur, List.tail_cons] at hmembers
    exact ⟨.object members, by rw [hcur, hbrace]; exact .object hmembers⟩
  split at hread
  · next hbracket =>
    obtain ⟨⟨depth', cur₁⟩, hopen, hread⟩ := bind_eq_ok.mp hread
    obtain ⟨-, rfl⟩ := eq_of_openNested hopen
    obtain ⟨items, hitems⟩ := isItems_of_readListed h hread
    rw [Cursor.rest_pass, hcur, List.tail_cons] at hitems
    exact ⟨.list items, by rw [hcur, hbracket]; exact .list hitems⟩
  · exact absurd hread (mismatch_ne_ok _ _ _ _)

end Records

/-! ## Whole texts -/

/-- A text that holds a value is the text of a document. -/
theorem Reader.exists_isOf_of_parse {read : Reader α} (h : Recognizes (read maxDepth))
    {text : String} {a : α} (hread : read.parse text = .ok a) : ∃ d : Doc, d.IsOf text := by
  unfold Reader.parse at hread
  obtain ⟨⟨b, cur⟩, hvalue, hread⟩ := bind_eq_ok.mp hread
  simp only at hread
  split at hread
  · next hend =>
    obtain ⟨d, l, hgap, hd⟩ := h hvalue
    exact ⟨d, l, cur.rest, hgap, hd, gap_of_skipBlanks hend⟩
  · cases hread

/-- Whether a text is that of a document, and every such document has a property. -/
def Holds (P : Doc → Prop) (text : String) : Prop :=
  (∃ d : Doc, d.IsOf text) ∧ ∀ d : Doc, d.IsOf text → P d

/-- Whether a whole text is read as what its documents mean. -/
structure Reader.IsMeant (read : Reader α) (f : Doc → Option α) : Prop where
  recognizes : Recognizes (read maxDepth)
  understands : Understands (read maxDepth) f

section Meanings

variable {read : Reader α} {f : Doc → Option α} {text : String}

theorem Reader.IsMeant.holds (h : read.IsMeant f) {a : α} (hread : read.parse text = .ok a) :
    Holds (fun d => f d = some a) text :=
  ⟨exists_isOf_of_parse h.recognizes hread, fun _ hd =>
    (parse_eq_ok_iff h.understands hd).mp hread⟩

theorem Reader.IsMeant.eq_none (h : read.IsMeant f) {fault : Fault}
    (hread : read.parse text = .error fault) {d : Doc} (hd : d.IsOf text) : f d = none := by
  cases hmeant : f d with
  | none => rfl
  | some a =>
    rw [(parse_eq_ok_iff h.understands hd).mpr hmeant] at hread
    cases hread

end Meanings

end CertRegistry.Json
