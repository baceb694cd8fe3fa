import CertRegistry.Proofs.Json.Fields
import CertRegistry.Proofs.Json.Reading
import Mathlib.Data.List.Pairwise

/-!
# The order of members

Two objects mean the same record if they have the same members of known names, in whatever order and
however the keys are spelled. Members of other names may stand at any place.
-/

namespace CertRegistry.Json

variable {α β γ : Type}

/-! ## Objects that say the same -/

/-- Whether a member concerns a reader who knows some names. One whose key spells no text concerns
everyone. -/
def concerns (names : List String) (m : List Spelled × Doc) : Bool :=
  (Spelled.string? m.1).all (names.contains ·)

def concerning (names : List String) (members : List (List Spelled × Doc)) :
    List (List Spelled × Doc) :=
  members.filter (concerns names)

/-- Whether two members have the same key, and values that are alike under that name. -/
def SameMember (alike : String → Doc → Doc → Prop) (m m' : List Spelled × Doc) : Prop :=
  Spelled.string? m.1 = Spelled.string? m'.1 ∧
    ∀ name, Spelled.string? m.1 = some name → alike name m.2 m'.2

/-- Whether two documents differ at most in the order of members and in members of names that are
not known, if they are objects. -/
inductive Doc.SameRecord (names : List String) (alike : String → Doc → Doc → Prop) :
    Doc → Doc → Prop
  | refl (d : Doc) : SameRecord names alike d d
  | object {members middle members' : List (List Spelled × Doc)}
    (horder : (concerning names members).Perm middle)
    (hsame : List.Forall₂ (SameMember alike) middle (concerning names members')) :
    SameRecord names alike (.object members) (.object members')

/-- Whether two lists have alike items, one by one. -/
inductive Doc.SameItems (alike : Doc → Doc → Prop) : Doc → Doc → Prop
  | list {items items' : List Doc} (h : List.Forall₂ alike items items') :
    SameItems alike (.list items) (.list items')

theorem Doc.SameItems.list?_eq {alike : Doc → Doc → Prop} {d d' : Doc} (h : SameItems alike d d')
    {f : Doc → Option α} (halike : ∀ d d', alike d d' → f d = f d') :
    Doc.list? f d = Doc.list? f d' := by
  obtain ⟨h⟩ := h
  simp only [Doc.list?]
  induction h with
  | nil => rfl
  | cons hitem _ ih => rw [List.mapM_cons, List.mapM_cons, halike _ _ hitem, ih]

/-! ## Fields that leave each other alone -/

/-- Whether it does not matter which of two fields is read first. -/
def Field.Commutes (f g : Field α) : Prop :=
  ∀ a d d', ((f.read a d).bind fun a => g.read a d') = (g.read a d').bind fun a => f.read a d

theorem Field.Commutes.symm {f g : Field α} (h : f.Commutes g) : g.Commutes f :=
  fun a d d' => (h a d' d).symm

section Commutes

variable {f : Doc → Option β} {g : Doc → Option γ} {set : α → β → α} {set' : α → γ → α}

theorem Field.commutes_of_set {p q : Field α} (hp : ∀ a d, p.read a d = (f d).map (set a))
    (hq : ∀ a d, q.read a d = (g d).map (set' a))
    (h : ∀ a b c, set' (set a b) c = set (set' a c) b) : p.Commutes q := by
  intro a d d'
  simp only [hp, hq]
  cases f d with
  | none => cases g d' <;> rfl
  | some b =>
    cases g d' with
    | none => rfl
    | some c => exact congrArg some (h a b c)

end Commutes

namespace Schema

variable {S : Schema α}

def names (S : Schema α) : List String := S.fields.map (·.name)

def Commutes (S : Schema α) : Prop := S.fields.Pairwise Field.Commutes

theorem Commutes.of_mem (h : S.Commutes) {f g : Field α} (hf : f ∈ S.fields) (hg : g ∈ S.fields)
    (hne : f.name ≠ g.name) : f.Commutes g :=
  have : Std.Symm (@Field.Commutes α) := ⟨fun _ _ h => h.symm⟩
  List.Pairwise.forall h hf hg fun heq => hne (congrArg Field.name heq)

/-! ## One member -/

section Steps

variable {seen : List String} {a : α} {key : List Spelled} {d : Doc} {name : String} {f : Field α}
  {rest rest' : List (List Spelled × Doc)}

theorem ofMembers_unreadable (hkey : Spelled.string? key = none) :
    S.ofMembers seen a ((key, d) :: rest) = none := by
  rw [ofMembers, hkey, Option.bind_none]

theorem ofMembers_unknown (hkey : Spelled.string? key = some name)
    (hunknown : S.fields.find? (·.name = name) = none) :
    S.ofMembers seen a ((key, d) :: rest) = S.ofMembers seen a rest := by
  rw [ofMembers, hkey, Option.bind_some, hunknown]

theorem ofMembers_known (hkey : Spelled.string? key = some name)
    (hknown : S.fields.find? (·.name = name) = some f) :
    S.ofMembers seen a ((key, d) :: rest) =
      if name ∈ seen then none
      else (f.read a d).bind fun a => S.ofMembers (name :: seen) a rest := by
  rw [ofMembers, hkey, Option.bind_some, hknown]
  simp

/-- A member leads from what is the same to what is the same. -/
theorem ofMembers_cons_congr {m m' : List Spelled × Doc}
    (hkey : Spelled.string? m.1 = Spelled.string? m'.1)
    (hread : ∀ f ∈ S.fields, Spelled.string? m.1 = some f.name → ∀ a, f.read a m.2 = f.read a m'.2)
    (hrest : ∀ seen a, S.ofMembers seen a rest = S.ofMembers seen a rest') (seen : List String)
    (a : α) : S.ofMembers seen a (m :: rest) = S.ofMembers seen a (m' :: rest') := by
  obtain ⟨key, d⟩ := m
  obtain ⟨key', d'⟩ := m'
  cases hname : Spelled.string? key with
  | none => rw [ofMembers_unreadable hname, ofMembers_unreadable (hkey.symm.trans hname)]
  | some name =>
    have hname' := hkey.symm.trans hname
    cases hfound : S.fields.find? (·.name = name) with
    | none => rw [ofMembers_unknown hname hfound, ofMembers_unknown hname' hfound, hrest]
    | some f =>
      have hf : f.name = name := by simpa using List.find?_some hfound
      rw [ofMembers_known hname hfound, ofMembers_known hname' hfound,
        hread f (List.mem_of_find?_eq_some hfound) (hf ▸ hname) a]
      simp only [hrest]

end Steps

theorem find?_eq_none {name : String} :
    S.fields.find? (·.name = name) = none ↔ name ∉ S.names := by
  simp [names, List.find?_eq_none]

/-- Only which names stand before matters, not their order. -/
theorem ofMembers_congr_seen {seen seen' : List String} (h : ∀ name, name ∈ seen ↔ name ∈ seen')
    (a : α) (members : List (List Spelled × Doc)) :
    S.ofMembers seen a members = S.ofMembers seen' a members := by
  induction members generalizing seen seen' a with
  | nil => simp [ofMembers, h]
  | cons m members ih =>
    obtain ⟨key, d⟩ := m
    cases hkey : Spelled.string? key with
    | none => rw [ofMembers_unreadable hkey, ofMembers_unreadable hkey]
    | some name =>
      cases hfound : S.fields.find? (·.name = name) with
      | none => rw [ofMembers_unknown hkey hfound, ofMembers_unknown hkey hfound, ih h]
      | some f =>
        have hmore : ∀ n, n ∈ name :: seen ↔ n ∈ name :: seen' := by simp [h]
        simp only [ofMembers_known hkey hfound, h, ih hmore]

/-- Members of names that are not known do not matter. -/
theorem ofMembers_concerning (seen : List String) (a : α) (members : List (List Spelled × Doc)) :
    S.ofMembers seen a (concerning S.names members) = S.ofMembers seen a members := by
  induction members generalizing seen a with
  | nil => rfl
  | cons m members ih =>
    by_cases hconcerns : concerns S.names m = true
    · rw [concerning, List.filter_cons_of_pos hconcerns]
      exact ofMembers_cons_congr rfl (fun _ _ _ _ => rfl) ih seen a
    · obtain ⟨name, hkey, hunknown⟩ : ∃ name, Spelled.string? m.1 = some name ∧ name ∉ S.names := by
        cases hkey : Spelled.string? m.1 with
        | none => simp [concerns, hkey] at hconcerns
        | some name => exact ⟨name, rfl, by simpa [concerns, hkey] using hconcerns⟩
      rw [concerning, List.filter_cons_of_neg hconcerns,
        ofMembers_unknown hkey (find?_eq_none.mpr hunknown)]
      exact ih seen a

/-! ## All members -/

/-- A key that spells no text spoils the object at any place. -/
theorem ofMembers_cons_none {m : List Spelled × Doc} {rest : List (List Spelled × Doc)}
    (h : ∀ seen a, S.ofMembers seen a rest = none) (seen : List String) (a : α) :
    S.ofMembers seen a (m :: rest) = none := by
  obtain ⟨key, d⟩ := m
  cases hkey : Spelled.string? key with
  | none => exact ofMembers_unreadable hkey
  | some name =>
    cases hfound : S.fields.find? (·.name = name) with
    | none => rw [ofMembers_unknown hkey hfound, h]
    | some f => simp [ofMembers_known hkey hfound, h]

theorem ofMembers_swap (hcommutes : S.Commutes) (m m' : List Spelled × Doc)
    (rest : List (List Spelled × Doc)) (seen : List String) (a : α) :
    S.ofMembers seen a (m :: m' :: rest) = S.ofMembers seen a (m' :: m :: rest) := by
  cases hkey : Spelled.string? m.1 with
  | none =>
    rw [ofMembers_unreadable hkey]
    exact (ofMembers_cons_none (fun _ _ => ofMembers_unreadable hkey) seen a).symm
  | some name =>
  cases hkey' : Spelled.string? m'.1 with
  | none =>
    rw [ofMembers_unreadable hkey']
    exact ofMembers_cons_none (fun _ _ => ofMembers_unreadable hkey') seen a
  | some name' =>
  cases hfound : S.fields.find? (·.name = name) with
  | none =>
    rw [ofMembers_unknown hkey hfound]
    exact ofMembers_cons_congr rfl (fun _ _ _ _ => rfl)
      (fun _ _ => (ofMembers_unknown hkey hfound).symm) seen a
  | some f =>
  cases hfound' : S.fields.find? (·.name = name') with
  | none =>
    rw [ofMembers_unknown hkey' hfound']
    exact ofMembers_cons_congr rfl (fun _ _ _ _ => rfl)
      (fun _ _ => ofMembers_unknown hkey' hfound') seen a
  | some g =>
    -- both are read, unless a name has been seen before or both have the same
    simp only [ofMembers_known hkey hfound, ofMembers_known hkey' hfound', List.mem_cons]
    by_cases hseen : name ∈ seen
    · simp [hseen]
    by_cases hseen' : name' ∈ seen
    · simp [hseen']
    by_cases hne : name = name'
    · simp [hne]
    · have hapart : f.Commutes g := by
        refine hcommutes.of_mem (List.mem_of_find?_eq_some hfound)
          (List.mem_of_find?_eq_some hfound') ?_
        have hf : f.name = name := by simpa using List.find?_some hfound
        have hg : g.name = name' := by simpa using List.find?_some hfound'
        rwa [hf, hg]
      have hmore : ∀ n, n ∈ name' :: name :: seen ↔ n ∈ name :: name' :: seen := by
        simp [or_left_comm]
      simp only [hseen, hseen', hne, Ne.symm hne, or_self, if_false,
        ofMembers_congr_seen hmore, ← Option.bind_assoc, hapart a m.2 m'.2]

theorem ofMembers_perm (hcommutes : S.Commutes) {members members' : List (List Spelled × Doc)}
    (h : members.Perm members') (seen : List String) (a : α) :
    S.ofMembers seen a members = S.ofMembers seen a members' := by
  induction h generalizing seen a with
  | nil => rfl
  | cons m _ ih => exact ofMembers_cons_congr rfl (fun _ _ _ _ => rfl) ih seen a
  | swap m m' rest => exact ofMembers_swap hcommutes m' m rest seen a
  | trans _ _ ih ih' => exact (ih seen a).trans (ih' seen a)

theorem ofMembers_same {alike : String → Doc → Doc → Prop}
    (halike : ∀ f ∈ S.fields, ∀ {d d'}, alike f.name d d' → ∀ a, f.read a d = f.read a d')
    {members members' : List (List Spelled × Doc)}
    (h : List.Forall₂ (SameMember alike) members members') (seen : List String) (a : α) :
    S.ofMembers seen a members = S.ofMembers seen a members' := by
  induction h generalizing seen a with
  | nil => rfl
  | cons hm _ ih =>
    exact ofMembers_cons_congr hm.1 (fun f hf hname => halike f hf (hm.2 _ hname)) ih seen a

/-- Documents that differ at most in the order of members, in members of other names and in values
that are alike mean the same record. -/
theorem meant_congr (hcommutes : S.Commutes) {alike : String → Doc → Doc → Prop}
    (halike : ∀ f ∈ S.fields, ∀ {d d'}, alike f.name d d' → ∀ a, f.read a d = f.read a d')
    {d d' : Doc} (h : Doc.SameRecord S.names alike d d') : S.meant d = S.meant d' := by
  cases h with
  | refl => rfl
  | @object members middle members' horder hsame =>
    calc S.ofMembers [] S.blank members
        = S.ofMembers [] S.blank (concerning S.names members) := (ofMembers_concerning ..).symm
      _ = S.ofMembers [] S.blank middle := ofMembers_perm hcommutes horder [] S.blank
      _ = S.ofMembers [] S.blank (concerning S.names members') :=
        ofMembers_same halike hsame [] S.blank
      _ = S.ofMembers [] S.blank members' := ofMembers_concerning ..

end Schema

/-! ## Written members -/

theorem sameMember_ofText {alike : String → Doc → Doc → Prop} {name : String} {d d' : Doc}
    (h : alike name d d') :
    SameMember alike (Spelled.ofText name, d) (Spelled.ofText name, d') := by
  refine ⟨rfl, fun found hfound => ?_⟩
  rw [Spelled.string?_ofText] at hfound
  exact Option.some.inj hfound ▸ h

/-- The order of the members of an object is not kept by a record that is made of them. -/
theorem Value.sameRecord_record (names : List String) {alike : String → Doc → Doc → Prop}
    (hrefl : ∀ name d, alike name d d) {members : List (String × Value)}
    (h : members.Pairwise fun m m' => m.1 ≠ m'.1) :
    Doc.SameRecord names alike (record members).doc (object members).doc := by
  obtain ⟨sorted, hsorted, hperm⟩ := exists_record_perm h
  rw [hsorted, doc, doc, docMembers_eq_map, docMembers_eq_map]
  exact .object ((hperm.map _).filter _)
    (List.forall₂_same.mpr fun m _ => ⟨rfl, fun name _ => hrefl name m.2⟩)

theorem Value.isPlain_record {members : List (String × Value)}
    (h : members.Pairwise fun m m' => m.1 ≠ m'.1) (hplain : ∀ m ∈ members, m.2.IsPlain) :
    (record members).IsPlain := by
  obtain ⟨sorted, hsorted, hperm⟩ := exists_record_perm h
  rw [hsorted]
  exact .object fun m hm => hplain m (hperm.mem_iff.mp hm)

/-- Items that mean their values mean the list of them. -/
theorem Doc.list?_of_forall {f : Doc → Option α} {write : α → Value}
    (h : ∀ a, f (write a).doc = some a) (as : List α) :
    Doc.list? f (Value.list (as.map write)).doc = some as := by
  rw [Value.doc, Value.docItems_eq_map, Doc.list?, List.mapM_map, List.mapM_map]
  simp only [Function.comp_def, h]
  exact (List.mapM_pure (m := Option) (f := id)).trans (by simp)

end CertRegistry.Json
