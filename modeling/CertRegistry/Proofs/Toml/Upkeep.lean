import CertRegistry.Toml.Document

/-!
# What is kept up in documents

All values in a document are read from tokens, texts and brackets, and tables only hold what was
assigned to keys, in whatever order headers and keys with dots bring the tables about. So what holds
of a value however it is written, and of a table whatever it is made of, holds everywhere in the
document.
-/

namespace CertRegistry.Toml

/-- What one step after the other preserves. -/
theorem foldlM_preserves {α β : Type} {P : α → Prop} {step : α → β → Option α} {bs : List β}
    (hstep : ∀ b ∈ bs, ∀ a a', P a → step a b = some a' → P a') {a a' : α} (ha : P a)
    (h : bs.foldlM step a = some a') : P a' := by
  induction bs generalizing a with
  | nil =>
    cases h
    exact ha
  | cons b bs ih =>
    rw [List.foldlM_cons, Option.bind_eq_bind, Option.bind_eq_some_iff] at h
    obtain ⟨next, hnext, h⟩ := h
    rw [List.forall_mem_cons] at hstep
    exact ih hstep.2 (hstep.1 a next ha hnext) h

theorem integer?_lt {cs : List Char} {n : Int} (h : integer? cs = some n) : n < integerBound := by
  have hbase : ∀ {base : Nat} {digits : List Char},
      (((digits? base digits).map (valueOf base)).filter (· < integerBound)).map Int.ofNat =
        some n → n < integerBound := by
    intro base digits h
    obtain ⟨k, hk, rfl⟩ := Option.map_eq_some_iff.mp h
    have := (Option.filter_eq_some_iff.mp hk).2
    simp only [decide_eq_true_eq] at this
    exact Int.ofNat_lt.mpr this
  unfold integer? at h
  split at h
  · exact hbase h
  · exact hbase h
  · exact hbase h
  · simp only [Option.bind_eq_bind, Option.bind_eq_some_iff] at h
    obtain ⟨k, -, h⟩ := h
    split at h
    · split at h
      · cases h
        have : (0 : Int) < integerBound := by decide
        omega
      · cases h
    · split at h
      next hk =>
        cases h
        exact Int.ofNat_lt.mpr hk
      next => cases h

/-- A property of values and one of tables that a document has everywhere. -/
structure Upkeep (P : Item → Prop) (Q : Entries → Prop) : Prop where
  text : ∀ s, P (.text s)
  integer : ∀ n : Int, n < integerBound → P (.integer n)
  bool : ∀ b, P (.bool b)
  real : P .real
  moment : P .moment
  list : ∀ items, (∀ item ∈ items, P item) → P (.list items)
  table : ∀ origin entries, P (.table origin entries) ↔ Q entries
  tables : ∀ all, P (.tables all) ↔ ∀ entries ∈ all, Q entries
  nil : Q []
  item? : ∀ entries key item, Q entries → Entries.item? entries key = some item → P item
  put : ∀ entries key item, Q entries → P item → Q (entries.put key item)

section Items

variable {P : Item → Prop} {entries : Entries} {key : String} {item : Item}

theorem Entries.of_item? (h : ∀ e ∈ entries, P e.2) (hitem : entries.item? key = some item) :
    P item := by
  obtain ⟨e, he, rfl⟩ := Option.map_eq_some_iff.mp hitem
  exact h e (List.mem_of_find?_eq_some he)

theorem Entries.forall_put (h : ∀ e ∈ entries, P e.2) (hitem : P item) :
    ∀ e ∈ entries.put key item, P e.2 := by
  unfold Entries.put
  split
  · intro e he
    obtain ⟨old, hold, rfl⟩ := List.mem_map.mp he
    split
    · exact hitem
    · exact h old hold
  · exact List.forall_mem_append.mpr ⟨h, List.forall_mem_singleton.mpr hitem⟩

end Items

/-- Whether a reader of values yields only those with a property. -/
def Yields (P : Item → Prop) (value : List Char → Option (Item × List Char)) : Prop :=
  ∀ cs item rest, value cs = some (item, rest) → P item

/-- What a statement assigns, if it assigns anything. -/
def Statement.item? : Statement → Option Item
  | assign _ item => some item
  | header _ | listHeader _ => none

/-- Whether both tables of a draft have a property. -/
structure Draft.Has (Q : Entries → Prop) (draft : Draft) : Prop where
  root : Q draft.root
  current : Q draft.current

namespace Upkeep

variable {P : Item → Prop} {Q : Entries → Prop} (keeps : Upkeep P Q)

include keeps

/-! ## Values -/

theorem tokenValue? {token : List Char} {item : Item} (h : tokenValue? token = some item) :
    P item := by
  unfold Toml.tokenValue? at h
  split at h
  · cases h
    exact keeps.bool _
  split at h
  · cases h
    exact keeps.bool _
  split at h
  · cases h
    exact keeps.moment
  split at h
  next n hn =>
    cases h
    exact keeps.integer n (integer?_lt hn)
  next =>
    split at h
    · cases h
      exact keeps.real
    · cases h

theorem scalar? : Yields P scalar? := by
  intro cs item rest h
  unfold Toml.scalar? at h
  split at h
  · obtain ⟨_, -, h⟩ := Option.map_eq_some_iff.mp h
    cases h
    exact keeps.text _
  · obtain ⟨_, -, h⟩ := Option.map_eq_some_iff.mp h
    cases h
    exact keeps.text _
  · simp only at h
    split at h
    · split at h
      · split at h
        · cases h
          exact keeps.moment
        · cases h
      · cases h
        exact keeps.moment
    · obtain ⟨value, hvalue, h⟩ := Option.map_eq_some_iff.mp h
      cases h
      exact keeps.tokenValue? hvalue

/-! ## Tables -/

/-- Adding a table to a list of tables, or changing the last one. -/
theorem tables_concat {all : List Entries} {last : Entries} (hall : ∀ entries ∈ all, Q entries)
    (hlast : Q last) : P (.tables (all ++ [last])) := by
  refine (keeps.tables _).mpr fun entries hmem => ?_
  rcases List.mem_append.mp hmem with hmem | hmem
  · exact hall entries hmem
  · rw [List.mem_singleton.mp hmem]
    exact hlast

variable {entries : Entries} {key : String} {item : Item}

/-- What a change of one table preserves is preserved in the table that a path leads from. -/
theorem change {dotted : Bool} {f : Origin → Entries → Option Entries}
    (hf : ∀ origin inner changed, Q inner → f origin inner = some changed → Q changed)
    {path : List String} {origin : Origin} {changed : Entries} (h : Q entries)
    (hchange : Entries.change dotted f path origin entries = some changed) : Q changed := by
  induction path generalizing origin entries changed with
  | nil => exact hf origin entries changed h hchange
  | cons key path ih =>
    unfold Entries.change at hchange
    split at hchange
    · obtain ⟨inner, hinner, hput⟩ := Option.bind_eq_some_iff.mp hchange
      cases hput
      exact keeps.put _ _ _ h ((keeps.table _ _).mpr (ih keeps.nil hinner))
    next found inner hitem =>
      split at hchange
      · obtain ⟨inner', hinner, hput⟩ := Option.bind_eq_some_iff.mp hchange
        cases hput
        have hbefore := (keeps.table _ _).mp (keeps.item? _ _ _ h hitem)
        exact keeps.put _ _ _ h ((keeps.table _ _).mpr (ih hbefore hinner))
      · cases hchange
    next all hitem =>
      obtain ⟨last, hlast, hchange⟩ := Option.bind_eq_some_iff.mp hchange
      obtain ⟨last', hlast', hput⟩ := Option.bind_eq_some_iff.mp hchange
      cases hput
      have hall := (keeps.tables _).mp (keeps.item? _ _ _ h hitem)
      have hfront : ∀ e ∈ all.dropLast, Q e := fun e he => hall e (List.dropLast_subset all he)
      have hlast'' := ih (hall last (List.mem_of_getLast? hlast)) hlast'
      exact keeps.put _ _ _ h (keeps.tables_concat hfront hlast'')
    · cases hchange

theorem assign {origin : Origin} {path : List String} {assigned : Entries} (h : Q entries)
    (hitem : P item) (hassign : entries.assign origin path item = some assigned) : Q assigned := by
  obtain ⟨key, -, hchange⟩ := Option.bind_eq_some_iff.mp hassign
  refine keeps.change (fun found inner changed hinner hput => ?_) h hchange
  split at hput
  · cases hput
  · cases hput
    exact keeps.put _ _ _ hinner hitem

/-! ## Brackets -/

section Brackets

variable {value : List Char → Option (Item × List Char)}

omit keeps in
theorem items? (hvalue : Yields P value) {count : Nat} {cs rest : List Char} {items : List Item}
    (h : items? value count cs = some (items, rest)) : ∀ item ∈ items, P item := by
  induction count generalizing cs items rest with
  | zero => cases h
  | succ count ih =>
    unfold Toml.items? at h
    obtain ⟨cs', -, h⟩ := Option.bind_eq_some_iff.mp h
    split at h
    · cases h
      exact List.forall_mem_nil _
    · obtain ⟨⟨item, rest'⟩, hitem, h⟩ := Option.bind_eq_some_iff.mp h
      have hfirst := hvalue _ _ _ hitem
      obtain ⟨cs'', -, h⟩ := Option.bind_eq_some_iff.mp h
      split at h
      · cases h
        exact List.forall_mem_singleton.mpr hfirst
      · obtain ⟨⟨items', rest''⟩, hitems, h⟩ := Option.bind_eq_some_iff.mp h
        cases h
        exact List.forall_mem_cons.mpr ⟨hfirst, ih hitems⟩
      · cases h

omit keeps in
theorem assignment? (hvalue : Yields P value) {cs rest : List Char} {path : List String}
    (h : assignment? value cs = some ((path, item), rest)) : P item := by
  obtain ⟨⟨path', after⟩, -, h⟩ := Option.bind_eq_some_iff.mp h
  simp only at h
  split at h
  · obtain ⟨⟨item', rest'⟩, hitem, h⟩ := Option.bind_eq_some_iff.mp h
    cases h
    exact hvalue _ _ _ hitem
  · cases h

theorem braces? (hvalue : Yields P value) {count : Nat} {cs rest : List Char} {entries' : Entries}
    (h : Q entries) (hbraces : braces? value count entries cs = some (entries', rest)) :
    Q entries' := by
  induction count generalizing entries cs with
  | zero => cases hbraces
  | succ count ih =>
    unfold Toml.braces? at hbraces
    obtain ⟨⟨⟨path, item⟩, after⟩, hitem, hbraces⟩ := Option.bind_eq_some_iff.mp hbraces
    obtain ⟨assigned, hassigned, hbraces⟩ := Option.bind_eq_some_iff.mp hbraces
    have hnext := keeps.assign h (assignment? hvalue hitem) hassigned
    split at hbraces
    · exact ih hnext hbraces
    · cases hbraces
      exact hnext
    · cases hbraces

theorem value? (depth : Nat) : Yields P (value? depth) := by
  induction depth with
  | zero => exact keeps.scalar?
  | succ depth ih =>
    intro cs item rest h
    unfold Toml.value? at h
    split at h
    · obtain ⟨⟨items, rest'⟩, hitems, h⟩ := Option.map_eq_some_iff.mp h
      cases h
      exact keeps.list _ (items? ih hitems)
    · split at h
      · cases h
        exact (keeps.table _ _).mpr keeps.nil
      · obtain ⟨⟨entries, rest'⟩, hentries, h⟩ := Option.map_eq_some_iff.mp h
        cases h
        exact (keeps.table _ _).mpr (keeps.braces? ih keeps.nil hentries)
    · exact keeps.scalar? _ _ _ h

end Brackets

/-! ## Documents -/

omit keeps in
theorem header? {cs rest : List Char} {statement : Statement}
    (h : header? cs = some (statement, rest)) : ∀ item ∈ statement.item?, P item := by
  unfold Toml.header? at h
  split at h
  · obtain ⟨⟨path, after⟩, -, h⟩ := Option.bind_eq_some_iff.mp h
    simp only at h
    split at h
    · cases h
      exact fun _ hitem => nomatch hitem
    · cases h
  · obtain ⟨⟨path, after⟩, -, h⟩ := Option.bind_eq_some_iff.mp h
    simp only at h
    split at h
    · cases h
      exact fun _ hitem => nomatch hitem
    · cases h

theorem statements? {count : Nat} {cs : List Char} {statements : List Statement}
    (h : statements? count cs = some statements) :
    ∀ s ∈ statements, ∀ item ∈ s.item?, P item := by
  induction count generalizing cs statements with
  | zero =>
    cases h
    exact List.forall_mem_nil _
  | succ count ih =>
    unfold Toml.statements? at h
    obtain ⟨cs', -, h⟩ := Option.bind_eq_some_iff.mp h
    split at h
    · cases h
      exact List.forall_mem_nil _
    · obtain ⟨⟨statement, rest⟩, hheader, h⟩ := Option.bind_eq_some_iff.mp h
      obtain ⟨after, -, h⟩ := Option.bind_eq_some_iff.mp h
      obtain ⟨more, hmore, h⟩ := Option.bind_eq_some_iff.mp h
      cases h
      exact List.forall_mem_cons.mpr ⟨header? hheader, ih hmore⟩
    · obtain ⟨⟨⟨path, item⟩, rest⟩, hassignment, h⟩ := Option.bind_eq_some_iff.mp h
      obtain ⟨after, -, h⟩ := Option.bind_eq_some_iff.mp h
      obtain ⟨more, hmore, h⟩ := Option.bind_eq_some_iff.mp h
      cases h
      refine List.forall_mem_cons.mpr ⟨fun item' hitem' => ?_, ih hmore⟩
      cases hitem'
      exact assignment? (keeps.value? maxDepth) hassignment

variable {draft : Draft}

theorem close? (h : draft.Has Q) {root : Entries} (hclose : draft.close? = some root) :
    Q root := by
  unfold Draft.close? at hclose
  split at hclose
  · cases hclose
    exact h.current
  next key =>
    refine keeps.change (fun _ parent changed hparent hput => ?_) h.root hclose
    split at hput
    · split at hput
      next all hitem =>
        cases hput
        have hall := (keeps.tables _).mp (keeps.item? _ _ _ hparent hitem)
        exact keeps.put _ _ _ hparent (keeps.tables_concat hall h.current)
      · cases hput
        refine keeps.put _ _ _ hparent ((keeps.tables _).mpr ?_)
        exact List.forall_mem_singleton.mpr h.current
      · cases hput
    · cases hput
      exact keeps.put _ _ _ hparent ((keeps.table _ _).mpr h.current)

theorem openedAt? {path : List String} {opened : Entries} (h : Q entries)
    (hopened : Draft.openedAt? key path entries = some opened) : Q opened := by
  induction path generalizing entries with
  | nil =>
    unfold Draft.openedAt? at hopened
    split at hopened
    · cases hopened
      exact keeps.nil
    next inner hitem =>
      cases hopened
      exact (keeps.table _ _).mp (keeps.item? _ _ _ h hitem)
    · cases hopened
  | cons step steps ih =>
    unfold Draft.openedAt? at hopened
    split at hopened
    · cases hopened
      exact keeps.nil
    next origin inner hitem =>
      split at hopened
      · exact ih ((keeps.table _ _).mp (keeps.item? _ _ _ h hitem)) hopened
      · cases hopened
    next all hitem =>
      obtain ⟨last, hlast, hopened⟩ := Option.bind_eq_some_iff.mp hopened
      have hall := (keeps.tables _).mp (keeps.item? _ _ _ h hitem)
      exact ih (hall last (List.mem_of_getLast? hlast)) hopened
    · cases hopened

theorem run? (h : draft.Has Q) {statement : Statement} {next : Draft}
    (hstatement : ∀ item ∈ statement.item?, P item) (hrun : draft.run? statement = some next) :
    next.Has Q := by
  cases statement with
  | assign path item =>
    obtain ⟨current, hcurrent, hnext⟩ := Option.bind_eq_some_iff.mp hrun
    cases hnext
    exact ⟨h.root, keeps.assign h.current (hstatement item rfl) hcurrent⟩
  | header path =>
    obtain ⟨root, hroot, hrun⟩ := Option.bind_eq_some_iff.mp hrun
    obtain ⟨current, hcurrent, hnext⟩ := Option.bind_eq_some_iff.mp hrun
    obtain ⟨key, -, hopened⟩ := Option.bind_eq_some_iff.mp hcurrent
    cases hnext
    exact ⟨keeps.close? h hroot, keeps.openedAt? (keeps.close? h hroot) hopened⟩
  | listHeader path =>
    obtain ⟨root, hroot, hnext⟩ := Option.bind_eq_some_iff.mp hrun
    cases hnext
    exact ⟨keeps.close? h hroot, keeps.nil⟩

theorem parse? {text : String} (h : parse? text = some entries) : Q entries := by
  obtain ⟨statements, hstatements, h⟩ := Option.bind_eq_some_iff.mp h
  obtain ⟨draft, hdraft, hclose⟩ := Option.bind_eq_some_iff.mp h
  have hall := keeps.statements? hstatements
  have hstart : Draft.Has Q {} := ⟨keeps.nil, keeps.nil⟩
  have hend := foldlM_preserves (fun s hs _ _ hbefore hrun => keeps.run? hbefore (hall s hs) hrun)
    hstart hdraft
  exact keeps.close? hend hclose

end Upkeep

end CertRegistry.Toml
