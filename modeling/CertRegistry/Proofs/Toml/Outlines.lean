import CertRegistry.Proofs.Toml.Layout
import CertRegistry.Proofs.Toml.Settings

/-!
# Tables under headers

A document that assigns values to its own keys first and then to those of one table after the other
has them as its entries, in the order in which it names them, as long as it names none twice.
-/

namespace CertRegistry.Toml

/-- What a document assigns to its own keys and to those of its tables. -/
structure Outline where
  own : Entries
  tables : List (String × Entries)

namespace Outline

/-- An assignment to each key. -/
def assignments (entries : Entries) : List Statement :=
  entries.map fun e => .assign [e.1] e.2

/-- A header with assignments after it. -/
def headed (table : String × Entries) : List Statement :=
  .header [table.1] :: assignments table.2

def statements (outline : Outline) : List Statement :=
  assignments outline.own ++ outline.tables.flatMap headed

/-- Tables as entries. -/
def named (tables : List (String × Entries)) : Entries :=
  tables.map fun t => (t.1, .table .header t.2)

def entries (outline : Outline) : Entries := outline.own ++ named outline.tables

/-- Whether no key is named twice. -/
structure IsApart (outline : Outline) : Prop where
  entries : outline.entries.AreApart
  tables : ∀ t ∈ outline.tables, Entries.AreApart t.2

end Outline

theorem Entries.put_of_new {entries : Entries} {key : String} (h : entries.item? key = none)
    (item : Item) : entries.put key item = entries ++ [(key, item)] := by
  have hnone : entries.any (·.1 = key) = false := by
    rw [List.any_eq_false]
    exact fun e he => by simpa using Entries.item?_eq_none.mp h e he
  rw [put, hnone, if_neg Bool.false_ne_true]

/-- A key that comes next is a new one. -/
theorem Entries.AreApart.item?_eq_none {front rest : Entries} {e : String × Item}
    (h : (front ++ e :: rest).AreApart) : front.item? e.1 = none := by
  rw [Entries.item?_eq_none]
  exact fun e' he' => (List.pairwise_append.mp h).2.2 e' he' e List.mem_cons_self

namespace Draft

variable {draft : Draft} {closed : Entries}

theorem run?_assign {name : String} (h : draft.current.item? name = none) (item : Item) :
    draft.run? (.assign [name] item) =
      some { draft with current := draft.current ++ [(name, item)] } := by
  have hassign : draft.current.assign .header [name] item =
      some (draft.current ++ [(name, item)]) := by
    simp [Entries.assign, Entries.change, h, Entries.put_of_new]
  simp only [run?, hassign, Option.bind_eq_bind, Option.bind_some]
  rfl

/-- Assignments under new keys go to the end of the table that is being filled. -/
theorem foldlM_assignments {entries : Entries} (h : (draft.current ++ entries).AreApart) :
    (Outline.assignments entries).foldlM run? draft =
      some { draft with current := draft.current ++ entries } := by
  induction entries generalizing draft with
  | nil => simp [Outline.assignments]
  | cons e entries ih =>
    have hmore := h
    rw [List.append_cons] at hmore
    rw [Outline.assignments, List.map_cons, List.foldlM_cons, run?_assign h.item?_eq_none,
      Option.bind_eq_bind, Option.bind_some, List.append_cons draft.current e entries]
    exact @ih { draft with current := draft.current ++ [e] } hmore

/-- A table is put under a new key at the end of the document. -/
theorem close?_header {root current : Entries} {name : String} (h : root.item? name = none) :
    close? { root, path := [name], current } = some (root ++ [(name, .table .header current)]) := by
  simp [close?, Entries.change, Entries.put_of_new h]

theorem run?_header {name : String} (hclose : draft.close? = some closed)
    (h : closed.item? name = none) :
    draft.run? (.header [name]) = some { root := closed, path := [name], current := [] } := by
  have hopened : opened? [name] closed = some [] := by simp [opened?, openedAt?, h]
  simp only [run?, hclose, hopened, Option.bind_eq_bind, Option.bind_some]
  rfl

/-- Tables under new keys go to the end of the document, one after the other. -/
theorem foldlM_headed {tables : List (String × Entries)} (hclose : draft.close? = some closed)
    (hentries : (closed ++ Outline.named tables).AreApart)
    (htables : ∀ t ∈ tables, Entries.AreApart t.2) :
    ((tables.flatMap Outline.headed).foldlM run? draft).bind close? =
      some (closed ++ Outline.named tables) := by
  induction tables generalizing draft closed with
  | nil => simp [hclose, Outline.named]
  | cons t tables ih =>
    obtain ⟨ht, hmore⟩ := List.forall_mem_cons.mp htables
    have hnew := hentries.item?_eq_none
    have hfill := @foldlM_assignments { root := closed, path := [t.1], current := [] } t.2 ht
    rw [Outline.named, List.map_cons, List.append_cons] at hentries ⊢
    rw [List.flatMap_cons, Outline.headed, List.cons_append, List.foldlM_cons,
      run?_header hclose hnew, Option.bind_eq_bind, Option.bind_some, List.foldlM_append, hfill]
    exact ih (close?_header hnew) hentries hmore

end Draft

theorem Outline.foldlM_statements {outline : Outline} (h : outline.IsApart) :
    (outline.statements.foldlM Draft.run? {}).bind Draft.close? = some outline.entries := by
  have hown : ((outline.own : Entries)).AreApart := (List.pairwise_append.mp h.entries).1
  have hfill := @Draft.foldlM_assignments {} outline.own hown
  rw [statements, List.foldlM_append, hfill]
  exact Draft.foldlM_headed rfl h.entries h.tables

/-- A document that is laid out like this has the entries it names. -/
theorem Outline.parse? {outline : Outline} {text : String} (h : outline.IsApart)
    (htext : IsDocument outline.statements text.toList) :
    parse? text = some outline.entries := by
  rw [htext.parse?, foldlM_statements h]

theorem Outline.inside_entries {outline : Outline} (h : outline.IsApart) {t : String × Entries}
    (ht : t ∈ outline.tables) : outline.entries.inside t.1 = t.2 := by
  have hmem : (t.1, Item.table .header t.2) ∈ outline.entries :=
    List.mem_append_right _ (List.mem_map.mpr ⟨t, ht, rfl⟩)
  exact Entries.inside_of_table (h.entries.item?_of_mem hmem)

/-- Whether each value that is assigned can be written. -/
structure Outline.CanBeWritten (outline : Outline) : Prop where
  own : ∀ e ∈ outline.own, ∃ l, SpellsValue e.2 l
  tables : ∀ t ∈ outline.tables, ∀ e ∈ t.2, ∃ l, SpellsValue e.2 l

theorem Outline.exists_assignments {entries : Entries} (h : ∀ e ∈ entries, ∃ l, SpellsValue e.2 l) :
    ∀ s ∈ assignments entries, ∃ line, SpellsStatement s line := by
  intro s hs
  obtain ⟨e, he, rfl⟩ := List.mem_map.mp hs
  exact SpellsStatement.exists_assign e.1 (h e he)

theorem Outline.CanBeWritten.exists_text {outline : Outline} (h : outline.CanBeWritten) :
    ∃ text : String, IsDocument outline.statements text.toList := by
  have hlines : ∀ s ∈ outline.statements, ∃ line, SpellsStatement s line := by
    intro s hs
    rcases List.mem_append.mp hs with hs | hs
    · exact exists_assignments h.own s hs
    · obtain ⟨t, ht, hs⟩ := List.mem_flatMap.mp hs
      rcases List.mem_cons.mp hs with rfl | hs
      · exact SpellsStatement.exists_header t.1
      · exact exists_assignments (h.tables t ht) s hs
  obtain ⟨l, hl⟩ := exists_isDocument hlines
  exact ⟨String.ofList l, by rwa [String.toList_ofList]⟩

end CertRegistry.Toml
