import CertRegistry.Proofs.Config
import CertRegistry.Proofs.Toml.Apart
import CertRegistry.Proofs.Toml.Outlines

/-!
# Settings in a file over the defaults

A file of settings may assign values to any of them, in tables and under keys in any order and next
to keys that nobody asks for. What it yields are the defaults with those values in their places,
however the file spells them, unless the check has something to complain about.
-/

namespace CertRegistry.Config

open Toml

/-- Values for some of the settings. -/
structure Assignment where
  url : Option String := none
  timeoutSeconds : Option Nat := none
  tries : Option Nat := none
  backoffMillis : Option Nat := none
  statusWaitSeconds : Option Nat := none
  name : Option String := none
  version : Option String := none
  level : Option String := none
  json : Option Bool := none

namespace Assignment

/-- Whether the numbers are whole numbers of TOML that the settings have room for. -/
structure InRange (a : Assignment) : Prop where
  timeoutSeconds : ∀ n ∈ a.timeoutSeconds, n < integerBound
  tries : ∀ n ∈ a.tries, n < UInt32.size
  backoffMillis : ∀ n ∈ a.backoffMillis, n < integerBound
  statusWaitSeconds : ∀ n ∈ a.statusWaitSeconds, n < integerBound

def node (a : Assignment) : NodeSettings where
  url := a.url.getD ({} : NodeSettings).url
  timeoutSeconds := a.timeoutSeconds.getD ({} : NodeSettings).timeoutSeconds

def polling (a : Assignment) : PollingSettings where
  tries := a.tries.getD ({} : PollingSettings).tries
  backoffMillis := a.backoffMillis.getD ({} : PollingSettings).backoffMillis
  statusWaitSeconds := a.statusWaitSeconds.getD ({} : PollingSettings).statusWaitSeconds

def family (a : Assignment) : Family where
  name := a.name.getD ({} : Config).family.name
  version := a.version.getD ({} : Config).family.version

def log (a : Assignment) : LogSettings where
  level := a.level.getD ({} : LogSettings).level
  json := a.json.getD ({} : LogSettings).json

/-- The defaults with the values in their places. -/
def config (a : Assignment) : Config :=
  { node := a.node, polling := a.polling, family := a.family, log := a.log }

/-- Whether a document assigns these values to the settings and no others. -/
structure IsMadeBy (entries : Entries) (a : Assignment) : Prop where
  tables : ∀ name ∈ ["rest_api", "polling", "family", "observability"], ∀ item,
    entries.item? name = some item → ∃ origin inner, item = .table origin inner
  url : (entries.inside "rest_api").item? "url" = a.url.map .text
  timeoutSeconds : (entries.inside "rest_api").item? "request_timeout_secs" =
    a.timeoutSeconds.map fun n => .integer n
  tries : (entries.inside "polling").item? "availability_tries" = a.tries.map fun n => .integer n
  backoffMillis : (entries.inside "polling").item? "backoff_step_ms" =
    a.backoffMillis.map fun n => .integer n
  statusWaitSeconds : (entries.inside "polling").item? "status_wait_secs" =
    a.statusWaitSeconds.map fun n => .integer n
  name : (entries.inside "family").item? "name" = a.name.map .text
  version : (entries.inside "family").item? "version" = a.version.map .text
  level : (entries.inside "observability").item? "log_level" = a.level.map .text
  json : (entries.inside "observability").item? "json" = a.json.map .bool

end Assignment

/-! ## Reading -/

theorem areFree_settings : Setting.AreFree settings := by
  unfold settings
  refine Setting.areFree_of (by decide) ?_
  simp only [List.pairwise_cons, List.forall_mem_cons, List.not_mem_nil, IsEmpty.forall_iff,
    implies_true, and_true, List.Pairwise.nil]
  refine ⟨⟨?_, ?_, ?_⟩, ⟨?_, ?_⟩, ?_⟩
  all_goals exact Setting.commutes_group (fun _ _ => rfl) (fun _ _ => rfl) fun _ _ _ => rfl

theorem natural?_integer {bound n : Nat} (h : n < bound) :
    (Item.integer n).natural? bound = some n := by
  simp [Item.natural?, h]

/-- A number that TOML can spell fits into a setting of 64 bits. -/
theorem natural?_word {n : Nat} (h : n < integerBound) :
    (Item.integer n).natural? UInt64.size = some n :=
  natural?_integer (h.trans (by decide))

/-- The settings are read from the four tables, each of them over its default. -/
theorem readEntries?_settings {a : Assignment} {entries : Entries} (ha : a.InRange)
    (hapart : entries.AreApartThroughout) (h : a.IsMadeBy entries) :
    Setting.readEntries? settings {} entries = some a.config := by
  refine Setting.readEntries?_of_leads areFree_settings hapart.keys ?_
  refine Setting.leads_cons (Setting.readIn?_table (b := a.node)
    (h.tables "rest_api" (by simp)) (hapart.inside _) rfl (Setting.areFree_of (by decide) ?_) ?_) ?_
  · exact List.pairwise_pair.mpr (Setting.commutes_of fun _ _ _ => rfl)
  · refine Setting.leads_cons (Setting.readIn?_of h.url (fun _ _ => rfl) rfl) ?_
    exact Setting.leads_cons (Setting.readIn?_of h.timeoutSeconds
      (fun n hn => natural?_word (ha.timeoutSeconds n hn)) rfl) Setting.leads_nil
  refine Setting.leads_cons (Setting.readIn?_table (b := a.polling)
    (h.tables "polling" (by simp)) (hapart.inside _) rfl (Setting.areFree_of (by decide) ?_) ?_) ?_
  · simp only [List.pairwise_cons, List.forall_mem_cons, List.not_mem_nil, IsEmpty.forall_iff,
      implies_true, and_true, List.Pairwise.nil]
    refine ⟨⟨?_, ?_⟩, ?_⟩
    all_goals exact Setting.commutes_of fun _ _ _ => rfl
  · refine Setting.leads_cons (Setting.readIn?_of h.tries
      (fun n hn => natural?_integer (ha.tries n hn)) rfl) ?_
    refine Setting.leads_cons (Setting.readIn?_of h.backoffMillis
      (fun n hn => natural?_word (ha.backoffMillis n hn)) rfl) ?_
    exact Setting.leads_cons (Setting.readIn?_of h.statusWaitSeconds
      (fun n hn => natural?_word (ha.statusWaitSeconds n hn)) rfl) Setting.leads_nil
  refine Setting.leads_cons (Setting.readIn?_table (b := a.family)
    (h.tables "family" (by simp)) (hapart.inside _) rfl (Setting.areFree_of (by decide) ?_) ?_) ?_
  · exact List.pairwise_pair.mpr (Setting.commutes_of fun _ _ _ => rfl)
  · refine Setting.leads_cons (Setting.readIn?_of h.name (fun _ _ => rfl) rfl) ?_
    exact Setting.leads_cons (Setting.readIn?_of h.version (fun _ _ => rfl) rfl) Setting.leads_nil
  refine Setting.leads_cons (Setting.readIn?_table (b := a.log)
    (h.tables "observability" (by simp)) (hapart.inside _) rfl (Setting.areFree_of (by decide) ?_)
    ?_) Setting.leads_nil
  · exact List.pairwise_pair.mpr (Setting.commutes_of fun _ _ _ => rfl)
  · refine Setting.leads_cons (Setting.readIn?_of h.level (fun _ _ => rfl) rfl) ?_
    exact Setting.leads_cons (Setting.readIn?_of h.json (fun _ _ => rfl) rfl) Setting.leads_nil

/-- The defaults with the values in their places, or all that is wrong with them. -/
def Assignment.outcome (a : Assignment) : Except Fault Config :=
  if a.config.problems = [] then .ok a.config else .error (.invalid a.config.problems)

theorem Assignment.outcome_eq (a : Assignment) : a.outcome = a.config.check := by
  unfold outcome check
  split
  next h => rw [h]
  next h =>
    split
    next hnil => exact absurd hnil h
    next => rfl

/-- However a file spells the values. -/
theorem load_eq_outcome {a : Assignment} {text : String} {entries : Entries} (ha : a.InRange)
    (hparse : parse? text = some entries) (h : a.IsMadeBy entries) :
    load (.ok (Bytes.ofText text)) = a.outcome := by
  have hread : ofToml? text = some a.config := by
    rw [ofToml?, hparse, Option.bind_some,
      readEntries?_settings ha (areApart_parse? hparse) h]
  simp only [load, FileContent.text, Bytes.text?_ofText, hread, a.outcome_eq]

/-! ## Writing -/

/-- The keys of the settings, each with its table. -/
def settingKeys : List (String × String) :=
  [("rest_api", "url"), ("rest_api", "request_timeout_secs"),
    ("polling", "availability_tries"), ("polling", "backoff_step_ms"),
    ("polling", "status_wait_secs"), ("family", "name"), ("family", "version"),
    ("observability", "log_level"), ("observability", "json")]

/-- What is found in a document for a value can be written again, if all such values can. -/
theorem exists_spellsValue_of_map {β : Type} {found : Option Item} {value? : Option β}
    {make : β → Item} (h : found = value?.map make)
    (hmake : ∀ value ∈ value?, ∃ l, SpellsValue (make value) l) :
    ∀ item ∈ found, ∃ l, SpellsValue item l := by
  intro item hitem
  obtain ⟨value, hvalue, rfl⟩ := Option.map_eq_some_iff.mp (h.symm.trans hitem)
  exact hmake value hvalue

theorem Assignment.IsMadeBy.exists_spellsValue {a : Assignment} {entries : Entries}
    (ha : a.InRange) (h : a.IsMadeBy entries) :
    ∀ k ∈ settingKeys, ∀ item ∈ (entries.inside k.1).item? k.2, ∃ l, SpellsValue item l := by
  have htries : ∀ n ∈ a.tries, n < integerBound :=
    fun n hn => (ha.tries n hn).trans (by decide)
  simp only [settingKeys, List.forall_mem_cons]
  refine ⟨?_, ?_, ?_, ?_, ?_, ?_, ?_, ?_, ?_, List.forall_mem_nil _⟩
  · exact exists_spellsValue_of_map h.url fun s _ => exists_spellsValue_text s
  · exact exists_spellsValue_of_map h.timeoutSeconds
      fun n hn => ⟨_, spellsValue_natural (ha.timeoutSeconds n hn)⟩
  · exact exists_spellsValue_of_map h.tries fun n hn => ⟨_, spellsValue_natural (htries n hn)⟩
  · exact exists_spellsValue_of_map h.backoffMillis
      fun n hn => ⟨_, spellsValue_natural (ha.backoffMillis n hn)⟩
  · exact exists_spellsValue_of_map h.statusWaitSeconds
      fun n hn => ⟨_, spellsValue_natural (ha.statusWaitSeconds n hn)⟩
  · exact exists_spellsValue_of_map h.name fun s _ => exists_spellsValue_text s
  · exact exists_spellsValue_of_map h.version fun s _ => exists_spellsValue_text s
  · exact exists_spellsValue_of_map h.level fun s _ => exists_spellsValue_text s
  · exact exists_spellsValue_of_map h.json fun b _ => exists_spellsValue_bool b

/-- Values for settings can always be written, next to any others that can. -/
theorem Assignment.exists_text {a : Assignment} {outline : Outline} (ha : a.InRange)
    (hapart : outline.IsApart) (h : a.IsMadeBy outline.entries)
    (hown : ∀ e ∈ outline.own, ∃ l, SpellsValue e.2 l)
    (hunknown : ∀ t ∈ outline.tables, ∀ e ∈ t.2, (t.1, e.1) ∉ settingKeys →
      ∃ l, SpellsValue e.2 l) :
    ∃ text : String, IsDocument outline.statements text.toList := by
  refine Outline.CanBeWritten.exists_text ⟨hown, fun t ht e he => ?_⟩
  by_cases hknown : (t.1, e.1) ∈ settingKeys
  · have hitem : (outline.entries.inside t.1).item? e.1 = some e.2 := by
      rw [Outline.inside_entries hapart ht]
      exact (hapart.tables t ht).item?_of_mem he
    exact h.exists_spellsValue ha _ hknown e.2 hitem
  · exact hunknown t ht e he hknown

/-! ## One file for any values -/

/-- The entry of a key that has a value. -/
def entry (key : String) (value? : Option Item) : Entries :=
  (value?.map fun item => (key, item)).toList

theorem fst_of_mem_entry {key : String} {value? : Option Item} {e : String × Item}
    (he : e ∈ entry key value?) : e.1 = key := by
  obtain ⟨item, -, rfl⟩ := Option.map_eq_some_iff.mp (Option.mem_toList.mp he)
  rfl

namespace Assignment

/-- The values in one table after the other. -/
def outline (a : Assignment) : Outline where
  own := []
  tables := [
    ("rest_api", entry "url" (a.url.map .text) ++
      entry "request_timeout_secs" (a.timeoutSeconds.map fun n => .integer n)),
    ("polling", entry "availability_tries" (a.tries.map fun n => .integer n) ++
      entry "backoff_step_ms" (a.backoffMillis.map fun n => .integer n) ++
      entry "status_wait_secs" (a.statusWaitSeconds.map fun n => .integer n)),
    ("family", entry "name" (a.name.map .text) ++ entry "version" (a.version.map .text)),
    ("observability", entry "log_level" (a.level.map .text) ++ entry "json" (a.json.map .bool))]

theorem isApart_outline (a : Assignment) : a.outline.IsApart where
  entries := by simp [outline, Outline.entries, Outline.named, Entries.AreApart]
  tables := by
    obtain ⟨url, timeoutSeconds, tries, backoffMillis, statusWaitSeconds, name, version, level,
      json⟩ := a
    simp only [outline, List.forall_mem_cons]
    refine ⟨?_, ?_, ?_, ?_, List.forall_mem_nil _⟩
    · cases url <;> cases timeoutSeconds <;> simp [entry, Entries.AreApart]
    · cases tries <;> cases backoffMillis <;> cases statusWaitSeconds <;>
        simp [entry, Entries.AreApart]
    · cases name <;> cases version <;> simp [entry, Entries.AreApart]
    · cases level <;> cases json <;> simp [entry, Entries.AreApart]

theorem isMadeBy_outline (a : Assignment) : a.IsMadeBy a.outline.entries := by
  obtain ⟨url, timeoutSeconds, tries, backoffMillis, statusWaitSeconds, name, version, level,
    json⟩ := a
  constructor
  case tables => simp [outline, Outline.entries, Outline.named, Entries.item?]
  case url => cases url <;> cases timeoutSeconds <;> rfl
  case timeoutSeconds => cases url <;> cases timeoutSeconds <;> rfl
  case tries => cases tries <;> cases backoffMillis <;> cases statusWaitSeconds <;> rfl
  case backoffMillis => cases tries <;> cases backoffMillis <;> cases statusWaitSeconds <;> rfl
  case statusWaitSeconds => cases tries <;> cases backoffMillis <;> cases statusWaitSeconds <;> rfl
  case name => cases name <;> cases version <;> rfl
  case version => cases name <;> cases version <;> rfl
  case level => cases level <;> cases json <;> rfl
  case json => cases level <;> cases json <;> rfl

theorem mem_settingKeys_of_outline (a : Assignment) :
    ∀ t ∈ a.outline.tables, ∀ e ∈ t.2, (t.1, e.1) ∈ settingKeys := by
  simp only [outline, List.forall_mem_cons, List.forall_mem_append]
  refine ⟨⟨?_, ?_⟩, ⟨⟨?_, ?_⟩, ?_⟩, ⟨?_, ?_⟩, ⟨?_, ?_⟩, List.forall_mem_nil _⟩
  all_goals
    intro e he
    rw [fst_of_mem_entry he]
    decide

theorem exists_isMadeBy {a : Assignment} (ha : a.InRange) :
    ∃ text entries, parse? text = some entries ∧ a.IsMadeBy entries := by
  obtain ⟨text, htext⟩ := exists_text ha a.isApart_outline a.isMadeBy_outline
    (List.forall_mem_nil _) fun t ht e he h => absurd (a.mem_settingKeys_of_outline t ht e he) h
  exact ⟨text, _, Outline.parse? a.isApart_outline htext, a.isMadeBy_outline⟩

end Assignment

/-! ## The outcome -/

/-- A variable of the environment replaces the endpoint only, and the outcome passes the check. -/
theorem override_eq_ok {config changed : Config} {value : Option Bytes}
    (h : config.override value = .ok changed) :
    changed = config.withUrl ((value.bind Bytes.text?).getD config.node.url) ∧
      changed.problems = [] := by
  rw [override_eq] at h
  obtain ⟨husable, hsound, rfl⟩ := check_eq_ok.mp h
  exact ⟨rfl, problems_eq_nil.mpr ⟨husable, hsound⟩⟩

/-- A file that assigns values to some of the settings, however it spells them, yields the defaults
with those values in their places, or all that is wrong with them. There is such a file for any
values, also one with the tables and their keys in a certain order and with keys that nobody asks
for among them. A variable of the environment changes the endpoint only, and only to one that passes
the check. -/
theorem load_overlays_defaults {a : Assignment} (ha : a.InRange) :
    (∀ text entries, parse? text = some entries → a.IsMadeBy entries →
      load (.ok (Bytes.ofText text)) = a.outcome) ∧
    (∃ text entries, parse? text = some entries ∧ a.IsMadeBy entries) ∧
    (∀ outline : Outline, outline.IsApart → a.IsMadeBy outline.entries →
      (∀ text : String, IsDocument outline.statements text.toList →
        load (.ok (Bytes.ofText text)) = a.outcome) ∧
      ((∀ e ∈ outline.own, ∃ l, SpellsValue e.2 l) →
        (∀ t ∈ outline.tables, ∀ e ∈ t.2, (t.1, e.1) ∉ settingKeys → ∃ l, SpellsValue e.2 l) →
        ∃ text : String, IsDocument outline.statements text.toList)) ∧
    ∀ (config changed : Config) (value : Option Bytes), config.override value = .ok changed →
      changed = config.withUrl ((value.bind Bytes.text?).getD config.node.url) ∧
        changed.problems = [] := by
  refine ⟨fun text entries hparse h => load_eq_outcome ha hparse h,
    Assignment.exists_isMadeBy ha, fun outline hapart h => ?_,
    fun config changed value h => override_eq_ok h⟩
  constructor
  · intro text htext
    exact load_eq_outcome ha (Outline.parse? hapart htext) h
  · intro hown hunknown
    exact Assignment.exists_text ha hapart h hown hunknown

theorem load_overlays_defaults_for_polling :
    ({ tries := some 10, json := some true } : Assignment).InRange ∧
      load (.ok (Bytes.ofText
        "[observability]\n'json' = true\n[polling]\nnote = 'x'\navailability_tries = 10\n")) =
        .ok { polling := { tries := 10 }, log := { json := true } } := by
  have hrange : ({ tries := some 10, json := some true } : Assignment).InRange :=
    ⟨by simp, by decide, by simp, by simp⟩
  obtain ⟨entries, hparse, hmade⟩ : ∃ entries, parse?
      "[observability]\n'json' = true\n[polling]\nnote = 'x'\navailability_tries = 10\n" =
        some entries ∧ ({ tries := some 10, json := some true } : Assignment).IsMadeBy entries :=
    ⟨[("observability", .table .header [("json", .bool true)]),
      ("polling", .table .header [("note", .text "x"), ("availability_tries", .integer 10)])],
      rfl, by simp [Entries.item?], rfl, rfl, rfl, rfl, rfl, rfl, rfl, rfl, rfl⟩
  have hload := (load_overlays_defaults hrange).1 _ entries hparse hmade
  have husable : Endpoint.isUsable
      ({ tries := some 10, json := some true } : Assignment).config.node.url = true :=
    (check_eq_ok.mp check_default).1
  have hsound : ({ tries := some 10, json := some true } : Assignment).config.IsSound :=
    ⟨by decide, by decide, by decide, by decide⟩
  rw [Assignment.outcome_eq, check_eq_ok.mpr ⟨husable, hsound, rfl⟩] at hload
  exact ⟨hrange, hload⟩

end CertRegistry.Config
