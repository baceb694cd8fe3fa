import CertRegistry.Proofs.Toml.Settings
import CertRegistry.Proofs.Toml.Upkeep

/-!
# No key twice

In no table of a document is there a key twice, however the tables are brought about.
-/

namespace CertRegistry.Toml

/-- Whether the keys of all tables in an item are different. -/
inductive Item.IsApart : Item → Prop
  | text (s : String) : IsApart (.text s)
  | integer (n : Int) : IsApart (.integer n)
  | bool (b : Bool) : IsApart (.bool b)
  | real : IsApart .real
  | moment : IsApart .moment
  | list {items : List Item} (h : ∀ item ∈ items, IsApart item) : IsApart (.list items)
  | table {origin : Origin} {entries : Entries} (hkeys : entries.AreApart)
    (h : ∀ e ∈ entries, IsApart e.2) : IsApart (.table origin entries)
  | tables {all : List Entries} (hkeys : ∀ entries ∈ all, entries.AreApart)
    (h : ∀ entries ∈ all, ∀ e ∈ entries, IsApart e.2) : IsApart (.tables all)

namespace Entries

/-- Whether the keys of a table and of all those in it are different. -/
structure AreApartThroughout (entries : Entries) : Prop where
  keys : entries.AreApart
  items : ∀ e ∈ entries, e.2.IsApart

variable {entries : Entries} {key : String} {item : Item}

theorem AreApart.put (h : entries.AreApart) : (entries.put key item).AreApart := by
  unfold Entries.put
  split
  · have hkeys : ∀ e : String × Item, (if e.1 = key then (key, item) else e).1 = e.1 := by
      intro e
      split
      next heq => exact heq.symm
      next => rfl
    exact List.pairwise_map.mpr (h.imp fun hne => by rwa [hkeys, hkeys])
  · next hnew =>
    refine List.pairwise_append.mpr ⟨h, List.pairwise_singleton _ _, fun e he e' he' => ?_⟩
    rw [List.mem_singleton.mp he']
    exact fun heq => hnew (List.any_eq_true.mpr ⟨e, he, decide_eq_true heq⟩)

theorem AreApartThroughout.inside (h : entries.AreApartThroughout) (name : String) :
    (entries.inside name).AreApart := by
  unfold Entries.inside
  split
  next hitem =>
    cases of_item? h.items hitem with
    | table hkeys => exact hkeys
  next => exact List.Pairwise.nil

end Entries

theorem upkeep_isApart : Upkeep Item.IsApart Entries.AreApartThroughout where
  text := .text
  integer n _ := .integer n
  bool := .bool
  real := .real
  moment := .moment
  list _ h := .list h
  table _ _ := ⟨fun | .table hkeys h => ⟨hkeys, h⟩, fun h => .table h.keys h.items⟩
  tables _ := ⟨fun | .tables hkeys h => fun entries he => ⟨hkeys entries he, h entries he⟩,
    fun h => .tables (fun entries he => (h entries he).keys) fun entries he => (h entries he).items⟩
  nil := ⟨List.Pairwise.nil, List.forall_mem_nil _⟩
  item? _ _ _ h := Entries.of_item? h.items
  put _ _ _ h hitem := ⟨h.keys.put, Entries.forall_put h.items hitem⟩

theorem areApart_parse? {text : String} {entries : Entries} (h : parse? text = some entries) :
    entries.AreApartThroughout := upkeep_isApart.parse? h

end CertRegistry.Toml
