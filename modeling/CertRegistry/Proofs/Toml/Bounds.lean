import CertRegistry.Proofs.Toml.Upkeep
import CertRegistry.Toml.Shape

/-!
# The size of whole numbers in TOML

Whole numbers have 64 bits with a sign, so none that a document holds reaches the bound, wherever
it stands.
-/

namespace CertRegistry.Toml

/-- Whether all whole numbers in an item are below the bound. -/
inductive Item.IsBounded : Item → Prop
  | text (s : String) : IsBounded (.text s)
  | integer {n : Int} (h : n < integerBound) : IsBounded (.integer n)
  | bool (b : Bool) : IsBounded (.bool b)
  | real : IsBounded .real
  | moment : IsBounded .moment
  | list {items : List Item} (h : ∀ item ∈ items, IsBounded item) : IsBounded (.list items)
  | table {origin : Origin} {entries : Entries} (h : ∀ e ∈ entries, IsBounded e.2) :
    IsBounded (.table origin entries)
  | tables {all : List Entries} (h : ∀ entries ∈ all, ∀ e ∈ entries, IsBounded e.2) :
    IsBounded (.tables all)

/-- Whether all whole numbers in a table are below the bound. -/
def Entries.AreBounded (entries : Entries) : Prop := ∀ e ∈ entries, e.2.IsBounded

theorem upkeep_isBounded : Upkeep Item.IsBounded Entries.AreBounded where
  text := .text
  integer _ h := .integer h
  bool := .bool
  real := .real
  moment := .moment
  list _ h := .list h
  table _ _ := ⟨fun | .table h => h, .table⟩
  tables _ := ⟨fun | .tables h => h, .tables⟩
  nil := List.forall_mem_nil _
  item? _ _ _ := Entries.of_item?
  put _ _ _ := Entries.forall_put

theorem areBounded_parse? {text : String} {entries : Entries} (h : parse? text = some entries) :
    entries.AreBounded := upkeep_isBounded.parse? h

/-! ## Settings -/

/-- Whether reading a setting from a bounded item preserves what holds of a record. -/
def Setting.Keeps {α : Type} (P : α → Prop) (setting : Setting α) : Prop :=
  ∀ a item a', P a → item.IsBounded → setting.read? a item = some a' → P a'

theorem Item.IsBounded.natural?_lt {bound n : Nat} {item : Item} (hitem : item.IsBounded)
    (h : item.natural? bound = some n) : n < integerBound := by
  cases hitem with
  | integer hlt =>
    simp only [natural?] at h
    split at h
    next hrange =>
      cases h
      omega
    · cases h
  | _ => cases h

namespace Setting

variable {α β : Type} {P : α → Prop} {Q : β → Prop}

theorem keeps_of {name : String} {read? : Item → Option β} {put : α → β → α}
    (h : ∀ a item b, P a → item.IsBounded → read? item = some b → P (put a b)) :
    (of name read? put).Keeps P := by
  intro a item a' ha hitem hread
  obtain ⟨b, hb, rfl⟩ := Option.map_eq_some_iff.mp hread
  exact h a item b ha hitem hb

variable {settings : List (Setting α)}

theorem readEntries?_keeps (h : ∀ s ∈ settings, s.Keeps P) {start a : α} {entries : Entries}
    (hentries : entries.AreBounded) (hstart : P start)
    (hread : readEntries? settings start entries = some a) : P a := by
  refine foldlM_preserves (fun e he a a' ha hstep => ?_) hstart hread
  split at hstep
  next s hs => exact h s (List.mem_of_find?_eq_some hs) a e.2 a' ha (hentries e he) hstep
  next =>
    cases hstep
    exact ha

theorem readItems?_keeps (h : ∀ s ∈ settings, s.Keeps P) {start a : α} {items : List Item}
    (hitems : ∀ item ∈ items, item.IsBounded) (hstart : P start)
    (hread : readItems? settings start items = some a) : P a := by
  refine foldlM_preserves (fun e he a a' ha hstep => ?_) hstart hread
  obtain ⟨hs, hitem⟩ := List.of_mem_zip he
  exact h e.1 hs a e.2 a' ha (hitems e.2 hitem) hstep

theorem readRecord?_keeps (h : ∀ s ∈ settings, s.Keeps P) {start a : α} {item : Item}
    (hitem : item.IsBounded) (hstart : P start)
    (hread : readRecord? settings start item = some a) : P a := by
  cases hitem with
  | table hentries => exact readEntries?_keeps h hentries hstart hread
  | list hitems => exact readItems?_keeps h hitems hstart hread
  | tables hall =>
    refine readItems?_keeps h (fun item hitem => ?_) hstart hread
    obtain ⟨entries, hentries, rfl⟩ := List.mem_map.mp hitem
    exact .table (hall entries hentries)
  | moment =>
    cases hread
    exact hstart
  | _ => cases hread

/-- A record inside another one. -/
theorem keeps_group {name : String} {inner : List (Setting β)} {get : α → β} {put : α → β → α}
    (h : ∀ s ∈ inner, s.Keeps Q) (hget : ∀ a, P a → Q (get a))
    (hput : ∀ a b, P a → Q b → P (put a b)) : (group name inner get put).Keeps P := by
  intro a item a' ha hitem hread
  obtain ⟨b, hb, rfl⟩ := Option.map_eq_some_iff.mp hread
  exact hput a b ha (readRecord?_keeps h hitem (hget a ha) hb)

theorem keeps_group_of_put {name : String} {inner : List (Setting β)} {get : α → β}
    {put : α → β → α} (h : ∀ a b, P a → P (put a b)) : (group name inner get put).Keeps P := by
  intro a item a' ha _ hread
  obtain ⟨b, -, rfl⟩ := Option.map_eq_some_iff.mp hread
  exact h a b ha

end Setting

end CertRegistry.Toml
