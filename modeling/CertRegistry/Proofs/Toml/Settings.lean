import CertRegistry.Toml.Shape

/-!
# Settings in any order

A record is read from a table key by key. Where each key is there once and no two settings get into
the way of each other, the order of the keys makes no difference, and neither do keys that nobody
asks for: the record is what its settings make of it one after the other.
-/

namespace CertRegistry.Toml

variable {α β γ : Type}

namespace Entries

/-- Whether the keys of a table are all different. -/
def AreApart (entries : Entries) : Prop := entries.Pairwise fun e e' => e.1 ≠ e'.1

/-- The entries of the table with a key, if there is one. -/
def inside (entries : Entries) (key : String) : Entries :=
  match entries.item? key with
  | some (.table _ inner) => inner
  | _ => []

variable {entries : Entries} {key name : String} {item : Item}

theorem item?_cons_self : item? ((key, item) :: entries) key = some item := by
  simp [item?]

theorem item?_cons_ne (h : key ≠ name) :
    item? ((key, item) :: entries) name = entries.item? name := by
  simp [item?, h]

theorem AreApart.item?_of_mem (h : entries.AreApart) {e : String × Item} (he : e ∈ entries) :
    entries.item? e.1 = some e.2 := by
  induction entries with
  | nil => cases he
  | cons first entries ih =>
    obtain ⟨hfirst, hmore⟩ := List.pairwise_cons.mp h
    rcases List.mem_cons.mp he with rfl | he
    · exact item?_cons_self
    · exact (item?_cons_ne (hfirst e he)).trans (ih hmore he)

theorem item?_eq_none : entries.item? key = none ↔ ∀ e ∈ entries, e.1 ≠ key := by
  simp [item?]

theorem inside_of_none (h : entries.item? key = none) : entries.inside key = [] := by
  simp only [inside, h]

theorem inside_of_table {origin : Origin} {inner : Entries}
    (h : entries.item? key = some (.table origin inner)) : entries.inside key = inner := by
  simp only [inside, h]

end Entries

namespace Setting

/-- Whether it makes no difference which one of two settings is read first. -/
def Commutes (s t : Setting α) : Prop :=
  ∀ a item item', (s.read? a item).bind (t.read? · item') =
    (t.read? a item').bind (s.read? · item)

/-- Whether settings have different names and may be read in any order. -/
def AreFree (settings : List (Setting α)) : Prop :=
  settings.Pairwise fun s t => s.name ≠ t.name ∧ s.Commutes t

theorem areFree_of {settings : List (Setting α)} (hnames : (settings.map (·.name)).Nodup)
    (hcommutes : settings.Pairwise Commutes) : AreFree settings :=
  List.Pairwise.and (List.pairwise_map.mp hnames) hcommutes

/-- Reads a setting from a table, if it is there. -/
def readIn? (s : Setting α) (entries : Entries) (a : α) : Option α :=
  match entries.item? s.name with
  | some item => s.read? a item
  | none => some a

section Orders

variable {s t : Setting α} {settings : List (Setting α)} {entries : Entries} {e : String × Item}
  {a : α}

theorem readEntries?_cons_known (h : settings.find? (·.name = e.1) = some s) :
    readEntries? settings a (e :: entries) =
      (s.read? a e.2).bind fun a => readEntries? settings a entries := by
  simp only [readEntries?, List.foldlM_cons, h, Option.bind_eq_bind]

theorem readEntries?_cons_unknown (h : settings.find? (·.name = e.1) = none) :
    readEntries? settings a (e :: entries) = readEntries? settings a entries := by
  simp only [readEntries?, List.foldlM_cons, h, Option.bind_eq_bind, Option.bind_some]

/-- A setting without a key in the table might as well not be there. -/
theorem readEntries?_of_missing (h : ∀ e ∈ entries, e.1 ≠ s.name) :
    readEntries? (s :: settings) a entries = readEntries? settings a entries := by
  induction entries generalizing a with
  | nil => rfl
  | cons e entries ih =>
    obtain ⟨he, hmore⟩ := List.forall_mem_cons.mp h
    have hfind : (s :: settings).find? (·.name = e.1) = settings.find? (·.name = e.1) :=
      List.find?_cons_of_neg (by simp [he.symm])
    cases hknown : settings.find? (·.name = e.1) with
    | none =>
      rw [readEntries?_cons_unknown (hfind.trans hknown), readEntries?_cons_unknown hknown,
        ih hmore]
    | some t =>
      rw [readEntries?_cons_known (hfind.trans hknown), readEntries?_cons_known hknown]
      exact congrArg _ (funext fun a => ih hmore)

/-- A setting is read as if its key came first in the table. -/
theorem readEntries?_cons_setting (hfree : AreFree (s :: settings)) (hapart : entries.AreApart) :
    readEntries? (s :: settings) a entries =
      (s.readIn? entries a).bind fun a => readEntries? settings a entries := by
  obtain ⟨hs, -⟩ := List.pairwise_cons.mp hfree
  induction entries generalizing a with
  | nil => rfl
  | cons e entries ih =>
    obtain ⟨he, hmore⟩ := List.pairwise_cons.mp hapart
    obtain ⟨key, item⟩ := e
    by_cases hname : s.name = key
    · have hunknown : settings.find? (·.name = key) = none := by
        rw [List.find?_eq_none]
        exact fun t ht => by simpa [hname] using (hs t ht).1.symm
      rw [readEntries?_cons_known (s := s) (List.find?_cons_of_pos (by simp [hname]))]
      simp only [readIn?, hname, Entries.item?_cons_self]
      refine congrArg _ (funext fun a => ?_)
      rw [readEntries?_cons_unknown hunknown, readEntries?_of_missing fun e' he' => ?_]
      exact fun heq => he e' he' (hname.symm.trans heq.symm)
    · have hfind : (s :: settings).find? (·.name = key) = settings.find? (·.name = key) :=
        List.find?_cons_of_neg (by simpa using hname)
      have hread : ∀ a, s.readIn? ((key, item) :: entries) a = s.readIn? entries a :=
        fun a => by simp only [readIn?, Entries.item?_cons_ne (Ne.symm hname)]
      rw [hread]
      cases hknown : settings.find? (·.name = key) with
      | none =>
        rw [readEntries?_cons_unknown (hfind.trans hknown), ih hmore]
        exact congrArg _ (funext fun a => (readEntries?_cons_unknown hknown).symm)
      | some t =>
        have hreads : ∀ a, readEntries? settings a ((key, item) :: entries) =
            (t.read? a item).bind fun a => readEntries? settings a entries :=
          fun a => readEntries?_cons_known hknown
        rw [readEntries?_cons_known (hfind.trans hknown)]
        simp only [ih hmore, hreads]
        -- both settings are read before all others, in one order or in the other
        unfold readIn?
        cases Entries.item? entries s.name with
        | none => rfl
        | some found =>
          have hswap := (hs t (List.mem_of_find?_eq_some hknown)).2 a found item
          simp only [← Option.bind_assoc, hswap]

theorem readEntries?_eq (hfree : AreFree settings) (hapart : entries.AreApart) (a : α) :
    readEntries? settings a entries = settings.foldlM (fun a s => s.readIn? entries a) a := by
  induction settings generalizing a with
  | nil =>
    induction entries with
    | nil => rfl
    | cons e entries ih =>
      rw [readEntries?_cons_unknown rfl, ih (List.pairwise_cons.mp hapart).2]
      rfl
  | cons s settings ih =>
    rw [readEntries?_cons_setting hfree hapart, List.foldlM_cons]
    exact congrArg _ (funext fun a => ih (List.pairwise_cons.mp hfree).2 a)

end Orders

/-! ## Settings of both kinds -/

section Kinds

variable {entries : Entries} {name other : String}

theorem commutes_of {read? : Item → Option β} {put : α → β → α} {read'? : Item → Option γ}
    {put' : α → γ → α} (h : ∀ a b c, put' (put a b) c = put (put' a c) b) :
    (of name read? put).Commutes (of other read'? put') := by
  intro a item item'
  simp only [of]
  cases read? item <;> cases read'? item' <;> simp [h]

theorem commutes_group {inner : List (Setting β)} {get : α → β} {put : α → β → α}
    {inner' : List (Setting γ)} {get' : α → γ} {put' : α → γ → α}
    (hget : ∀ a b, get' (put a b) = get' a) (hget' : ∀ a c, get (put' a c) = get a)
    (hput : ∀ a b c, put' (put a b) c = put (put' a c) b) :
    (group name inner get put).Commutes (group other inner' get' put') := by
  intro a item item'
  simp only [group]
  cases hb : readRecord? inner (get a) item with
  | none =>
    cases hc : readRecord? inner' (get' a) item' with
    | none => rfl
    | some c => simp [hget', hb]
  | some b =>
    cases hc : readRecord? inner' (get' a) item' with
    | none => simp [hget, hc]
    | some c => simp [hget, hget', hb, hc, hput]

/-- A setting whose item is what some value is written as, if it is there. -/
theorem readIn?_of {read? : Item → Option β} {put : α → β → α} {value? : Option β}
    {item : β → Item} {a : α} {current : β} (h : entries.item? name = value?.map item)
    (hread : ∀ value ∈ value?, read? (item value) = some value) (hcurrent : put a current = a) :
    (of name read? put).readIn? entries a = some (put a (value?.getD current)) := by
  simp only [readIn?, of, h]
  cases value? with
  | none => exact congrArg some hcurrent.symm
  | some value => simp [hread value rfl]

/-- A record is read from the table with its key, if there is one. -/
theorem readIn?_group {inner : List (Setting β)} {get : α → β} {put : α → β → α} {a : α} {b : β}
    (h : ∀ item, entries.item? name = some item → ∃ origin inside, item = .table origin inside)
    (hput : put a (get a) = a) (hread : readEntries? inner (get a) (entries.inside name) = some b) :
    (group name inner get put).readIn? entries a = some (put a b) := by
  simp only [readIn?, group]
  cases hitem : entries.item? name with
  | none =>
    rw [Entries.inside_of_none hitem] at hread
    cases hread
    exact congrArg some hput.symm
  | some item =>
    obtain ⟨origin, inside, rfl⟩ := h item hitem
    rw [Entries.inside_of_table hitem] at hread
    simp only [readRecord?, hread, Option.map_some]

end Kinds

section Chains

variable {s : Setting α} {settings : List (Setting α)} {entries : Entries} {a b c : α}

/-- Whether settings that are read one after the other turn one record into another. -/
def Leads (settings : List (Setting α)) (entries : Entries) (a b : α) : Prop :=
  settings.foldlM (fun a s => s.readIn? entries a) a = some b

theorem leads_nil : Leads [] entries a a := rfl

theorem leads_cons (h : s.readIn? entries a = some b) (hmore : Leads settings entries b c) :
    Leads (s :: settings) entries a c := by
  rw [Leads, List.foldlM_cons, h]
  exact hmore

theorem readEntries?_of_leads (hfree : AreFree settings) (hapart : entries.AreApart)
    (h : Leads settings entries a b) : readEntries? settings a entries = some b :=
  (readEntries?_eq hfree hapart a).trans h

/-- A record is read from its table by one setting after the other. -/
theorem readIn?_table {name : String} {inner : List (Setting β)} {get : α → β} {put : α → β → α}
    {b : β}
    (h : ∀ item, entries.item? name = some item → ∃ origin inside, item = .table origin inside)
    (hapart : (entries.inside name).AreApart) (hput : put a (get a) = a) (hfree : AreFree inner)
    (hleads : Leads inner (entries.inside name) (get a) b) :
    (group name inner get put).readIn? entries a = some (put a b) :=
  readIn?_group h hput (readEntries?_of_leads hfree hapart hleads)

end Chains

end Setting

end CertRegistry.Toml
