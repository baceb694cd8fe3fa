import CertRegistry.Proofs.Json.Meaning

/-!
# What members mean to a record

The members of an object are taken by their names, each once, and those of other names are left out;
the items of a list are taken one for each member in turn. What they mean together is told by a
schema, which has the same members as the reader of the record.
-/

namespace CertRegistry.Json

variable {α β : Type}

/-! ## Schemas -/

/-- What a member of the record `α` means. -/
structure Field (α : Type) where
  name : String
  mandatory : Bool
  read : α → Doc → Option α

namespace Field

def required (name : String) (f : Doc → Option β) (set : α → β → α) : Field α where
  name := name
  mandatory := true
  read a d := (f d).map (set a)

def optional (name : String) (f : Doc → Option β) (set : α → β → α) : Field α :=
  { required name f set with mandatory := false }

end Field

/-- What the members of the record `α` mean, and the record before any is read. -/
structure Schema (α : Type) where
  blank : α
  fields : List (Field α)

namespace Schema

variable (S : Schema α)

/-- What the members of an object make of a record; `seen` holds the names of those before. -/
def ofMembers : List String → α → List (List Spelled × Doc) → Option α
  | seen, a, [] =>
    if S.fields.all (fun f => !f.mandatory || seen.contains f.name) then some a else none
  | seen, a, (key, d) :: rest =>
    (Spelled.string? key).bind fun key =>
      match S.fields.find? (·.name = key) with
      | some f =>
        if seen.contains key then none
        else (f.read a d).bind fun a => ofMembers (key :: seen) a rest
      | none => ofMembers seen a rest

/-- What the items of a list make of a record, one for each field in turn. -/
def ofItems : List (Field α) → α → List Doc → Option α
  | [], a, [] => some a
  | [], _, _ :: _ => none
  | f :: more, a, [] => if (f :: more).any (·.mandatory) then none else some a
  | f :: more, a, d :: rest => (f.read a d).bind fun a => ofItems more a rest

def meant : Doc → Option α
  | .object members => S.ofMembers [] S.blank members
  | .list items => ofItems S.fields S.blank items
  | _ => none

end Schema

/-! ### Parts of a record -/

section Parts

variable {γ : Type} {S : Schema α} {f : Field α} (part : α → γ)

/-- A part of a record that only the members of one name set stays as it is when such a member has
been read, and there is no second one. -/
theorem Schema.part_of_seen
    (hother : ∀ g ∈ S.fields, g.name ≠ f.name → ∀ a d a', g.read a d = some a' → part a' = part a)
    (hf : S.fields.find? (·.name = f.name) = some f) {members : List (List Spelled × Doc)}
    {seen : List String} {a b : α} (hseen : seen.contains f.name = true)
    (h : S.ofMembers seen a members = some b) :
    (∀ m ∈ members, Spelled.string? m.1 ≠ some f.name) ∧ part b = part a := by
  induction members generalizing seen a with
  | nil =>
    rw [ofMembers] at h
    split at h
    · exact ⟨List.forall_mem_nil _, by rw [Option.some.inj h]⟩
    · cases h
  | cons m members ih =>
    obtain ⟨key, d⟩ := m
    obtain ⟨name, hname, h⟩ := Option.bind_eq_some_iff.mp h
    have hkey : ∀ {other : String}, name ≠ other → Spelled.string? key ≠ some other :=
      fun hne heq => hne (Option.some.inj (hname.symm.trans heq))
    split at h
    · next g hg =>
      obtain rfl : g.name = name := by simpa using List.find?_some hg
      split at h
      · cases h
      · next hnew =>
        have hne : g.name ≠ f.name := fun heq => hnew (heq ▸ hseen)
        obtain ⟨a', ha', h⟩ := Option.bind_eq_some_iff.mp h
        obtain ⟨hmore, hpart⟩ := ih (by rw [List.contains_cons, hseen, Bool.or_true]) h
        exact ⟨List.forall_mem_cons.mpr ⟨hkey hne, hmore⟩,
          hpart.trans (hother g (List.mem_of_find?_eq_some hg) hne a d a' ha')⟩
    · next hg =>
      have hne : name ≠ f.name := by
        rintro rfl
        rw [hf] at hg
        cases hg
      obtain ⟨hmore, hpart⟩ := ih hseen h
      exact ⟨List.forall_mem_cons.mpr ⟨hkey hne, hmore⟩, hpart⟩

/-- A part of a record that only the members of one name set is what is read for such a member, or
stays as it is if there is none. -/
theorem Schema.part_of_members (R : Doc → γ → Prop)
    (hread : ∀ a d a', f.read a d = some a' → R d (part a'))
    (hother : ∀ g ∈ S.fields, g.name ≠ f.name → ∀ a d a', g.read a d = some a' → part a' = part a)
    (hf : S.fields.find? (·.name = f.name) = some f) {members : List (List Spelled × Doc)}
    {seen : List String} {a b : α} (h : S.ofMembers seen a members = some b) :
    (∀ m ∈ members, Spelled.string? m.1 = some f.name → R m.2 (part b)) ∧
      ((∀ m ∈ members, Spelled.string? m.1 ≠ some f.name) → part b = part a) := by
  induction members generalizing seen a with
  | nil =>
    rw [ofMembers] at h
    split at h
    · exact ⟨List.forall_mem_nil _, fun _ => by rw [Option.some.inj h]⟩
    · cases h
  | cons m members ih =>
    obtain ⟨key, d⟩ := m
    obtain ⟨name, hname, h⟩ := Option.bind_eq_some_iff.mp h
    split at h
    · next g hg =>
      obtain rfl : g.name = name := by simpa using List.find?_some hg
      split at h
      · cases h
      · obtain ⟨a', ha', h⟩ := Option.bind_eq_some_iff.mp h
        by_cases hsame : g.name = f.name
        · -- this is the only member of the name
          obtain rfl : g = f := by
            rw [hsame, hf] at hg
            exact (Option.some.inj hg).symm
          obtain ⟨hmore, hpart⟩ := part_of_seen part hother hf (by simp) h
          refine ⟨List.forall_mem_cons.mpr ⟨fun _ => hpart ▸ hread a d a' ha', ?_⟩, fun hnone => ?_⟩
          · exact fun m hm heq => absurd heq (hmore m hm)
          · exact absurd hname (hnone _ List.mem_cons_self)
        · have hkept := hother g (List.mem_of_find?_eq_some hg) hsame a d a' ha'
          obtain ⟨hmore, hnone⟩ := ih h
          refine ⟨List.forall_mem_cons.mpr ⟨fun heq => ?_, hmore⟩, fun hall => ?_⟩
          · exact absurd (Option.some.inj (hname.symm.trans heq)) hsame
          · exact (hnone (List.forall_mem_cons.mp hall).2).trans hkept
    · next hg =>
      obtain ⟨hmore, hnone⟩ := ih h
      refine ⟨List.forall_mem_cons.mpr ⟨fun heq => ?_, hmore⟩, fun hall => ?_⟩
      · rw [Option.some.inj (hname.symm.trans heq), hf] at hg
        cases hg
      · exact hnone (List.forall_mem_cons.mp hall).2

/-- A mandatory member has been there before, or it is among the members. -/
theorem Schema.exists_of_mandatory (hf : f ∈ S.fields) (hmandatory : f.mandatory = true)
    {members : List (List Spelled × Doc)} {seen : List String} {a b : α}
    (h : S.ofMembers seen a members = some b) :
    seen.contains f.name = true ∨ ∃ m ∈ members, Spelled.string? m.1 = some f.name := by
  induction members generalizing seen a with
  | nil =>
    rw [ofMembers] at h
    split at h
    · next hall =>
      have hseen := List.all_eq_true.mp hall f hf
      rw [hmandatory, Bool.not_true, Bool.false_or] at hseen
      exact .inl hseen
    · cases h
  | cons m members ih =>
    obtain ⟨key, d⟩ := m
    obtain ⟨name, hname, h⟩ := Option.bind_eq_some_iff.mp h
    split at h
    · next g hg =>
      obtain rfl : g.name = name := by simpa using List.find?_some hg
      split at h
      · cases h
      · obtain ⟨a', -, h⟩ := Option.bind_eq_some_iff.mp h
        rcases ih h with hseen | ⟨m, hm, hkey⟩
        · rw [List.contains_cons, Bool.or_eq_true] at hseen
          rcases hseen with hsame | hseen
          · exact .inr ⟨(key, d), List.mem_cons_self, by rw [hname, eq_of_beq hsame]⟩
          · exact .inl hseen
        · exact .inr ⟨m, List.mem_cons_of_mem _ hm, hkey⟩
    · rcases ih h with hseen | ⟨m, hm, hkey⟩
      · exact .inl hseen
      · exact .inr ⟨m, List.mem_cons_of_mem _ hm, hkey⟩

end Parts

/-- Whether a member is read as a field means it. -/
structure Member.IsMeant (depth : Nat) (m : Member α) (f : Field α) : Prop where
  name : m.name = f.name
  mandatory : m.mandatory = f.mandatory
  read : ∀ a, Understands (m.read depth a) (f.read a)

theorem Member.isMeant_required {depth : Nat} {read : Reader β} {f : Doc → Option β}
    (h : Understands (read depth) f) (name : String) (set : α → β → α) :
    (Member.required name read set).IsMeant depth (.required name f set) :=
  ⟨rfl, rfl, fun a _ _ _ _ hd ht hgap => (h hd ht hgap).map (set a)⟩

theorem Member.isMeant_optional {depth : Nat} {read : Reader β} {f : Doc → Option β}
    (h : Understands (read depth) f) (name : String) (set : α → β → α) :
    (Member.optional name read set).IsMeant depth (.optional name f set) :=
  ⟨rfl, rfl, fun a _ _ _ _ hd ht hgap => (h hd ht hgap).map (set a)⟩

/-- Whether the members of a record are read as a schema means them. -/
structure Record.IsMeant (depth : Nat) (R : Record α) (S : Schema α) : Prop where
  blank : R.blank = S.blank
  members : List.Forall₂ (Member.IsMeant depth) R.members S.fields

section Records

variable {R : Record α} {S : Schema α} {depth : Nat}

/-- A name is known to the reader if and only if it is known to the schema. -/
theorem find?_of_isMeant {members : List (Member α)} {fields : List (Field α)}
    (h : List.Forall₂ (Member.IsMeant depth) members fields) (key : String) :
    Option.Rel (Member.IsMeant depth) (members.find? (·.name = key))
      (fields.find? (·.name = key)) := by
  induction h with
  | nil => exact .none
  | @cons m f members fields hm hrest ih =>
    by_cases hname : f.name = key
    · rw [List.find?_cons_of_pos (by simp [hm.name, hname]),
        List.find?_cons_of_pos (by simp [hname])]
      exact .some hm
    · rw [List.find?_cons_of_neg (by simp [hm.name, hname]),
        List.find?_cons_of_neg (by simp [hname])]
      exact ih

/-- A mandatory member is missing for the reader if and only if it is so for the schema. -/
theorem missing_of_isMeant {members : List (Member α)} {fields : List (Field α)}
    (h : List.Forall₂ (Member.IsMeant depth) members fields) (seen : List String) :
    (members.find? fun m => m.mandatory && !seen.contains m.name).isNone =
      fields.all fun f => !f.mandatory || seen.contains f.name := by
  induction h with
  | nil => rfl
  | @cons m f members fields hm hrest ih =>
    rw [List.all_cons, ← ih, List.find?_cons, hm.name, hm.mandatory]
    cases f.mandatory <;> cases seen.contains f.name <;> rfl

theorem failObject_eq_error (complaint : Complaint) (cur : Cursor) :
    ∃ fault, Record.failObject (β := β) complaint cur = .error fault := by
  unfold Record.failObject
  simp only
  split <;> exact ⟨_, rfl⟩

section Steps

variable {count : Nat} {first : Bool} {seen : List String} {a : α} {cur cur' cur'' : Cursor}
  {name : String}

theorem readNamed_unknown (hkey : nextKey? first cur = .ok (some (name, cur')))
    (hunknown : R.members.find? (·.name = name) = none) (hcolon : passColon cur' = .ok cur'')
    {behind : Cursor} (hskip : skipValue cur'' = .ok behind) :
    R.readNamed depth (count + 1) first seen a cur =
      R.readNamed depth count false seen a behind := by
  simp only [Record.readNamed, hkey, hunknown, hcolon, hskip, bind, Except.bind]

theorem readNamed_seen {m : Member α} (hkey : nextKey? first cur = .ok (some (name, cur')))
    (hknown : R.members.find? (·.name = name) = some m) (hseen : seen.contains name = true) :
    ∃ fault, R.readNamed depth (count + 1) first seen a cur = .error fault := by
  simp only [Record.readNamed, hkey, hknown, if_pos hseen, bind, Except.bind]
  exact failObject_eq_error _ _

theorem readNamed_known {m : Member α} (hkey : nextKey? first cur = .ok (some (name, cur')))
    (hknown : R.members.find? (·.name = name) = some m) (hcolon : passColon cur' = .ok cur'')
    (hnew : ¬ seen.contains name = true) :
    R.readNamed depth (count + 1) first seen a cur =
      m.read depth a cur'' >>= fun p => R.readNamed depth count false (name :: seen) p.1 p.2 := by
  simp only [Record.readNamed, hkey, hknown, hcolon, if_neg hnew, bind, Except.bind]

end Steps

theorem comes_readNamed (hmeant : R.IsMeant depth S) {members : List (List Spelled × Doc)}
    {first : Bool} {seen : List String} {a : α} {cur : Cursor} {t : List Char}
    (h : IsMembers first members cur.rest t) {count : Nat} (hcount : members.length < count) :
    Comes (R.readNamed depth count first seen a cur) (S.ofMembers seen a members) t := by
  induction members generalizing first seen a cur count with
  | nil =>
    obtain ⟨count, rfl⟩ : ∃ n, count = n + 1 := ⟨count - 1, by simp at hcount; omega⟩
    cases h with
    | done hgap =>
      have hcur := hgap.rest_skipBlanks (by decide)
      rw [Schema.ofMembers, ← missing_of_isMeant hmeant.members]
      simp only [Record.readNamed, nextKey?_none first hgap, bind, Except.bind]
      cases R.members.find? fun m => m.mandatory && !seen.contains m.name with
      | none => exact ⟨_, rfl, by simp [hcur]⟩
      | some m => exact failObject_eq_error _ _
  | cons m members ih =>
    obtain ⟨count, rfl⟩ : ∃ n, count = n + 1 := ⟨count - 1, by omega⟩
    cases h with
    | @member _ key d _ _ k k' v l' _ hbefore hcolon hgap hvalue hrest =>
      have hmore : members.length < count := by simpa using hcount
      obtain ⟨cur₁, hnext, hcur₁⟩ := nextKey?_some hbefore
      have hkey := readText_spelled hcur₁
      rw [Schema.ofMembers]
      change Comes _ ((Option.map String.ofList (Spelled.text? key)).bind _) t
      cases hname : (Spelled.text? key).map String.ofList with
      | none =>
        rw [hname] at hkey
        obtain ⟨fault, hkey⟩ := hkey
        exact ⟨fault, by simp [Record.readNamed, hnext, hkey, bind, Except.bind]⟩
      | some name =>
        rw [hname] at hkey
        obtain ⟨cur₂, hkey, hcur₂⟩ := hkey
        obtain ⟨cur₃, hpassed, rfl⟩ := passColon_of_gap (hcur₂ ▸ hcolon)
        have hkeyed : nextKey? first cur = .ok (some (name, cur₂)) := by
          rw [hnext, hkey]
          rfl
        rw [Option.bind_some]
        have hfound := find?_of_isMeant hmeant.members name
        cases hmember : R.members.find? (·.name = name) with
        | none =>
          obtain ⟨cur₄, hskip, rfl⟩ := skipValue_eq_ok hvalue hrest.ends hgap
          rw [hmember] at hfound
          rw [readNamed_unknown hkeyed hmember hpassed hskip]
          generalize S.fields.find? (·.name = name) = f? at hfound
          cases hfound
          exact ih hrest hmore
        | some m =>
          rw [hmember] at hfound
          generalize S.fields.find? (·.name = name) = f? at hfound
          cases hfound with
          | some hm =>
            by_cases hseen : seen.contains name = true
            · simp only [if_pos hseen]
              exact readNamed_seen hkeyed hmember hseen
            · simp only [if_neg hseen]
              rw [readNamed_known hkeyed hmember hpassed hseen]
              refine (hm.read a hvalue hrest.ends hgap).bind fun a' cur₄ _ hcur₄ => ?_
              exact ih (hcur₄ ▸ hrest) hmore

/-- Nothing may be left when a list is closed. -/
theorem closeList_of_separates {first : Bool} {cur : Cursor} {d : Doc} {v t : List Char}
    (h : Separates first cur.rest v) (hvalue : IsValue d v t) :
    ∃ fault, closeList cur = .error fault := by
  cases h with
  | first hgap =>
    have hcur := hvalue.rest_skipBlanks hgap
    obtain ⟨c, l, rfl, hc⟩ := hvalue.exists_cons
    obtain ⟨hclosing, -, hcomma⟩ := hc.ne
    simp only [closeList, hcur, if_neg hclosing, if_neg hcomma]
    exact ⟨_, rfl⟩
  | comma hgap hgap' => exact closeList_of_comma hgap rfl

/-- The first mandatory member of a list that is missing, if there is one. -/
theorem findIdx?_of_isMeant {members : List (Member α)} {fields : List (Field α)}
    (h : List.Forall₂ (Member.IsMeant depth) members fields) :
    (members.findIdx? (·.mandatory)).isSome = fields.any (·.mandatory) := by
  rw [List.findIdx?_isSome]
  induction h with
  | nil => rfl
  | cons hm hrest ih => rw [List.any_cons, List.any_cons, ih, hm.mandatory]

theorem comes_readListed {members : List (Member α)} {fields : List (Field α)}
    (hmeant : List.Forall₂ (Member.IsMeant depth) members fields) {items : List Doc} {index : Nat}
    {a : α} {cur : Cursor} {t : List Char} (h : IsItems (decide (index = 0)) items cur.rest t) :
    Comes (R.readListed depth members index a cur) (Schema.ofItems fields a items) t := by
  induction hmeant generalizing items index a cur with
  | nil =>
    cases h with
    | done hgap =>
      obtain ⟨cur', hclose, hrest⟩ := closeList_of_gap hgap
      exact ⟨cur', by simp only [Record.readListed, hclose]; rfl, hrest⟩
    | item hbefore hvalue hrest =>
      obtain ⟨fault, hclose⟩ := closeList_of_separates hbefore hvalue
      exact ⟨fault, by simp only [Record.readListed, hclose]; rfl⟩
  | @cons m f members fields hm hmore ih =>
    cases h with
    | done hgap =>
      have hmissing := findIdx?_of_isMeant (.cons hm hmore)
      rw [Schema.ofItems, ← hmissing]
      simp only [Record.readListed, nextItem?_none _ hgap, bind, Except.bind]
      cases (m :: members).findIdx? (·.mandatory) with
      | some i => exact ⟨_, rfl⟩
      | none =>
        obtain ⟨cur', hclose, hrest⟩ := closeList_of_gap hgap
        exact ⟨cur', by simp only [hclose]; rfl, hrest⟩
    | item hbefore hvalue hrest =>
      obtain ⟨c, l, rfl, hc⟩ := hvalue.exists_cons
      obtain ⟨cur₁, hnext, hcur₁⟩ := nextItem?_some hbefore hc.isSpace hc.ne.1
      have hstep : R.readListed depth (m :: members) index a cur =
          m.read depth a cur₁ >>= fun p => R.readListed depth members (index + 1) p.1 p.2 := by
        simp only [Record.readListed, hnext, bind, Except.bind]
      rw [hstep, Schema.ofItems]
      refine (hm.read a hvalue hrest.ends (hcur₁ ▸ Gap.refl _)).bind fun a' cur₂ _ hcur₂ => ?_
      exact ih (by simpa [hcur₂] using hrest)

theorem Record.understands (h : R.IsMeant (depth + 1) S) :
    Understands (R.reader (depth + 2)) S.meant := by
  refine understands_dispatch fun {d c l t cur} hd ht hcur hc => ?_
  by_cases hbrace : c = '\x7b'
  · obtain ⟨members, rfl⟩ := Doc.Opens.eq_object (hbrace ▸ hc)
    subst hbrace
    cases hd with
    | object hmembers =>
      have hpass : (cur.pass '\x7b').rest = l := by simp [hcur]
      have hlength := hmembers.length_lt fun m _ => IsValue.length_lt
      rw [if_pos rfl, openNested_eq_ok, h.blank]
      exact comes_readNamed h (hpass ▸ hmembers) (by rw [hpass]; omega)
  by_cases hbracket : c = '['
  · obtain ⟨items, rfl⟩ := Doc.Opens.eq_list (hbracket ▸ hc)
    subst hbracket
    cases hd with
    | list hitems =>
      have hpass : (cur.pass '[').rest = l := by simp [hcur]
      rw [if_neg hbrace, if_pos rfl, openNested_eq_ok, h.blank]
      exact comes_readListed h.members (by rw [hpass]; exact hitems)
  · have hnone : S.meant d = none := by
      cases d with
      | object members => exact absurd hc hbrace
      | list items => exact absurd hc hbracket
      | _ => rfl
    rw [if_neg hbrace, if_neg hbracket, hnone]
    exact comes_mismatch R.title c cur t

end Records

end CertRegistry.Json
