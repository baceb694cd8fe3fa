import CertRegistry.Json.Shape
import CertRegistry.Proofs.Json.Text
import CertRegistry.Proofs.Stages
import Mathlib.Data.List.Forall2

/-!
# Values of a known shape are read back from JSON

A reader finds a value on one line if it finds the parts: the items of a list one after the other,
and the members of an object in any order, each once and none of the mandatory ones left out.
-/

namespace CertRegistry.Json

/-- Whether a character starts a text, a list or an object. -/
def IsOpening (c : Char) : Prop := c = '"' ∨ c = '[' ∨ c = '\x7b'

/-- Whether characters start with an opening sign. -/
def Opens (front : List Char) : Prop := ∃ c rest, front = c :: rest ∧ IsOpening c

theorem skipBlanks_eq_self {cur : Cursor} {c : Char} {rest : List Char} (h : cur.rest = c :: rest)
    (hc : c ≠ '\n' ∧ c ≠ ' ' ∧ c ≠ '\t' ∧ c ≠ '\r') : cur.skipBlanks = cur := by
  obtain ⟨chars, line, column⟩ := cur
  cases h
  simp [Cursor.skipBlanks, Cursor.skipBlanks.go, hc]

theorem skipBlanks_of_isOpening {cur : Cursor} {c : Char} {rest : List Char}
    (h : cur.rest = c :: rest) (hc : IsOpening c) : cur.skipBlanks = cur := by
  refine skipBlanks_eq_self h ?_
  rcases hc with rfl | rfl | rfl <;> decide

/-! ## Single values -/

section Values

variable {α β : Type} {front : List Char}

theorem Reads.map {read : Cursor → Except Fault (α × Cursor)} {a : α} (f : α → β)
    (h : Reads read front a) :
    Reads (fun cur => (fun p => (f p.1, p.2)) <$> read cur) front (f a) := by
  intro cur rest hcur
  obtain ⟨cur', hread, hrest⟩ := h cur rest hcur
  exact ⟨cur', by simp only [hread]; rfl, hrest⟩

theorem Reads.dispatch {read : Char → Cursor → Except Fault (α × Cursor)} {c : Char} {a : α}
    (hc : IsOpening c) (h : Reads (read c) (c :: front) a) :
    Reads (dispatch read) (c :: front) a := by
  intro cur rest hcur
  obtain ⟨cur', hread, hrest⟩ := h cur rest hcur
  refine ⟨cur', ?_, hrest⟩
  rw [Json.dispatch, skipBlanks_of_isOpening hcur hc]
  simp only [hcur, List.cons_append]
  exact hread

/-- The sign before a value is passed. -/
theorem Reads.behind {read : Cursor → Except Fault (α × Cursor)} {a : α} (c : Char)
    (h : Reads read front a) : Reads (fun cur => read (cur.pass c)) (c :: front) a := by
  intro cur rest hcur
  exact h (cur.pass c) rest (by simp [hcur])

theorem reads_textOf (s : String) :
    Reads (fun cur => readText (cur.pass '"')) (textOf s).toList s := by
  rw [textOf, String.toList_ofList]
  exact (reads_text s).behind '"'

theorem opens_textOf (s : String) : Opens (textOf s).toList := by
  rw [textOf, String.toList_ofList]
  exact ⟨'"', _, rfl, Or.inl rfl⟩

theorem Reader.reads_text (s : String) (depth : Nat) :
    Reads (Reader.text depth) (textOf s).toList s := by
  have h := reads_textOf s
  rw [textOf, String.toList_ofList] at h ⊢
  exact Reads.dispatch (Or.inl rfl) (by simpa using h)

theorem Reader.reads_option {read : Reader α} {a : α} {depth : Nat} (hopens : Opens front)
    (h : Reads (read depth) front a) : Reads (Reader.option read depth) front (some a) := by
  intro cur rest hcur
  obtain ⟨c, front, rfl, hc⟩ := hopens
  obtain ⟨cur', hread, hrest⟩ := h cur rest hcur
  refine ⟨cur', ?_, hrest⟩
  have hnull : c ≠ 'n' := by rcases hc with rfl | rfl | rfl <;> decide
  simp only [Reader.option, skipBlanks_of_isOpening hcur hc]
  rw [if_neg (by simp [hcur, hnull]), hread]
  rfl

theorem Reader.reads_choice {known : List (String × α)} {name : String} {a : α} (depth : Nat)
    (h : known.lookup name = some a) :
    Reads (Reader.choice known depth) (textOf name).toList a := by
  have hname := reads_textOf name
  rw [textOf, String.toList_ofList] at hname ⊢
  refine Reads.dispatch (Or.inl rfl) ?_
  intro cur rest hcur
  obtain ⟨cur', hread, hrest⟩ := hname cur rest hcur
  refine ⟨cur', ?_, hrest⟩
  simp only [if_true, Reader.readName]
  refine bind_eq_ok.mpr ⟨_, hread, ?_⟩
  simp [h]
  rfl

end Values

/-! ## Lists -/

/-- Parts of which each but the first has a comma and the same characters before it. -/
theorem intercalate_comma {before : List Char} (part : List Char) (parts : List (List Char)) :
    (',' :: before).intercalate (part :: parts) =
      part ++ parts.flatMap fun part => ',' :: (before ++ part) := by
  induction parts generalizing part with
  | nil => simp
  | cons next parts ih => simp [List.intercalate_cons_cons, ih]

/-- Parts with commas between them are the first part and then a comma before each. -/
theorem intercalate_cons (part : List Char) (parts : List (List Char)) :
    [','].intercalate (part :: parts) = part ++ parts.flatMap (',' :: ·) :=
  intercalate_comma part parts

theorem length_le_length_commas (fronts : List (List Char)) :
    fronts.length ≤ (fronts.flatMap (',' :: ·)).length := by
  induction fronts with
  | nil => exact Nat.zero_le _
  | cons front fronts ih =>
    rw [List.flatMap_cons, List.length_append, List.length_cons, List.length_cons]
    omega

section Lists

variable {α : Type} {item : Cursor → Except Fault (α × Cursor)} {cur : Cursor} {c : Char}
  {rest : List Char}

theorem nextItem?_end (first : Bool) (h : cur.rest = ']' :: rest) :
    nextItem? first cur = .ok none := by
  rw [nextItem?, skipBlanks_eq_self h (by decide)]
  simp [h]

theorem nextItem?_first (h : cur.rest = c :: rest) (hc : IsOpening c) :
    nextItem? true cur = .ok (some cur) := by
  have hclose : c ≠ ']' := by rcases hc with rfl | rfl | rfl <;> decide
  rw [nextItem?, skipBlanks_of_isOpening h hc]
  simp [h, hclose]

theorem nextItem?_more (h : cur.rest = ',' :: c :: rest) (hc : IsOpening c) :
    nextItem? false cur = .ok (some (cur.pass ',')) := by
  have hclose : c ≠ ']' := by rcases hc with rfl | rfl | rfl <;> decide
  have hbehind : (cur.pass ',').rest = c :: rest := by simp [h]
  rw [nextItem?, skipBlanks_eq_self h (by decide)]
  simp only [h]
  rw [if_neg (by decide), if_neg (by decide), if_pos trivial, skipBlanks_of_isOpening hbehind hc]
  simp only [hbehind, if_neg hclose]

theorem closeList_end (h : cur.rest = ']' :: rest) : closeList cur = .ok (cur.pass ']') := by
  rw [closeList, skipBlanks_eq_self h (by decide)]
  simp [h]

theorem readItems_end (first : Bool) (count : Nat) (h : cur.rest = ']' :: rest) :
    readItems item (count + 1) first cur = .ok ([], cur.pass ']') := by
  simp only [readItems, nextItem?_end first h, closeList_end h, bind, Except.bind]
  rfl

/-- The items behind the first one. -/
theorem readItems_rest {fronts : List (List Char)} {as : List α}
    (hitems : List.Forall₂ (fun front a => Opens front ∧ Reads item front a) fronts as)
    {count : Nat} (hcount : fronts.length < count)
    (h : cur.rest = fronts.flatMap (',' :: ·) ++ ']' :: rest) :
    ∃ cur', readItems item count false cur = .ok (as, cur') ∧ cur'.rest = rest := by
  obtain ⟨count, rfl⟩ : ∃ n, count = n + 1 := ⟨count - 1, by omega⟩
  induction hitems generalizing count cur with
  | nil => exact ⟨cur.pass ']', readItems_end false count h, by simp [h]⟩
  | @cons front a fronts as hfirst hrest ih =>
    obtain ⟨⟨c, front, rfl, hc⟩, hread⟩ := hfirst
    rw [List.flatMap_cons, List.append_assoc, List.cons_append] at h
    have hbehind : (cur.pass ',').rest =
        c :: front ++ (fronts.flatMap (',' :: ·) ++ ']' :: rest) := by
      rw [Cursor.rest_pass, h, List.tail_cons]
    obtain ⟨cur', hitem, hcur'⟩ := hread _ _ hbehind
    obtain ⟨count, rfl⟩ : ∃ n, count = n + 1 := ⟨count - 1, by simp at hcount; omega⟩
    obtain ⟨cur'', hmore, hend⟩ := ih hcur' count (by simpa using hcount)
    refine ⟨cur'', ?_, hend⟩
    rw [readItems]
    simp only [nextItem?_more h hc, hitem, hmore, bind, Except.bind]
    rfl

theorem reads_items {fronts : List (List Char)} {as : List α}
    (hitems : List.Forall₂ (fun front a => Opens front ∧ Reads item front a) fronts as) :
    Reads (fun cur => readItems item (cur.rest.length + 1) true cur)
      ([','].intercalate fronts ++ [']']) as := by
  intro cur rest h
  rw [List.append_assoc, List.singleton_append] at h
  cases hitems with
  | nil =>
    have hrest : cur.rest = ']' :: rest := h
    exact ⟨cur.pass ']', readItems_end true _ h, by simp [hrest]⟩
  | @cons front a fronts as hfirst hrest =>
    obtain ⟨⟨c, front, rfl, hc⟩, hread⟩ := hfirst
    rw [intercalate_cons, List.append_assoc] at h
    obtain ⟨cur', hitem, hcur'⟩ := hread cur _ h
    have hcount : fronts.length < cur.rest.length := by
      have := length_le_length_commas fronts
      rw [h]
      simp only [List.length_append, List.length_cons]
      omega
    obtain ⟨cur'', hmore, hend⟩ := readItems_rest hrest hcount hcur'
    refine ⟨cur'', ?_, hend⟩
    simp only [readItems, nextItem?_first h hc, hitem, hmore, bind, Except.bind]
    rfl

end Lists

/-- Going one level down takes a level. -/
theorem openNested_eq_ok {depth : Nat} (c : Char) (cur : Cursor) :
    openNested (depth + 2) c cur = .ok (depth + 1, cur.pass c) := by
  rw [openNested, if_neg (by omega)]
  rfl

theorem Reader.reads_list {α : Type} {read : Reader α} {depth : Nat} {fronts : List (List Char)}
    {as : List α}
    (hitems : List.Forall₂ (fun front a => Opens front ∧ Reads (read (depth + 1)) front a)
      fronts as) :
    Reads (Reader.list read (depth + 2)) ('[' :: ([','].intercalate fronts ++ [']'])) as := by
  refine Reads.dispatch (Or.inr (Or.inl rfl)) ?_
  intro cur rest h
  obtain ⟨cur', hread, hrest⟩ := (reads_items hitems).behind '[' cur rest h
  refine ⟨cur', ?_, hrest⟩
  simp only [if_true, openNested_eq_ok, bind, Except.bind]
  exact hread

/-! ## Records -/

/-- A member as it stands in an object, from the text of its value. -/
def memberText (member : String × List Char) : List Char :=
  (textOf member.1).toList ++ ':' :: member.2

section Keys

variable {cur : Cursor} {rest : List Char}

theorem nextKey?_end (first : Bool) (h : cur.rest = '\x7d' :: rest) :
    nextKey? first cur = .ok none := by
  rw [nextKey?, skipBlanks_eq_self h (by decide)]
  simp [h]

theorem nextKey?_first {key : String} (h : cur.rest = (textOf key).toList ++ rest) :
    ∃ cur', nextKey? true cur = .ok (some (key, cur')) ∧ cur'.rest = rest := by
  obtain ⟨cur', hread, hrest⟩ := reads_textOf key cur rest h
  refine ⟨cur', ?_, hrest⟩
  rw [textOf, String.toList_ofList, List.cons_append, List.cons_append] at h
  simp only at hread
  rw [nextKey?, skipBlanks_eq_self h (by decide)]
  simp only [h]
  rw [if_neg (by decide), if_neg (by decide), if_neg (by decide), if_pos trivial, hread]
  rfl

theorem nextKey?_more {key : String} (h : cur.rest = ',' :: ((textOf key).toList ++ rest)) :
    ∃ cur', nextKey? false cur = .ok (some (key, cur')) ∧ cur'.rest = rest := by
  have hbehind : (cur.pass ',').rest = (textOf key).toList ++ rest := by
    rw [Cursor.rest_pass, h, List.tail_cons]
  obtain ⟨cur', hread, hrest⟩ := reads_textOf key _ rest hbehind
  refine ⟨cur', ?_, hrest⟩
  rw [textOf, String.toList_ofList, List.cons_append, List.cons_append] at hbehind
  simp only at hread
  rw [nextKey?, skipBlanks_eq_self h (by decide)]
  simp only [h]
  rw [if_neg (by decide), if_pos (by decide), skipBlanks_eq_self hbehind (by decide)]
  simp only [hbehind]
  rw [if_pos trivial, hread]
  rfl

theorem passColon_eq_ok (h : cur.rest = ':' :: rest) : passColon cur = .ok (cur.pass ':') := by
  rw [passColon, skipBlanks_eq_self h (by decide)]
  simp [h]

end Keys

section Members

variable {α β : Type} {read : Reader β} {depth : Nat} {front : List Char} {b : β}

theorem Member.reads_required (name : String) (set : α → β → α) (a : α)
    (h : Reads (read depth) front b) :
    Reads ((Member.required name read set).read depth a) front (set a b) :=
  h.map (set a)

theorem Member.reads_optional (name : String) (set : α → β → α) (a : α)
    (h : Reads (read depth) front b) :
    Reads ((Member.optional name read set).read depth a) front (set a b) :=
  h.map (set a)

end Members

namespace Record

variable {α : Type} (R : Record α) (depth : Nat)

/-- Whether the members of an object, in their order, make one record out of another: each is known
and stands there once, and no mandatory one is missing in the end. -/
inductive Fills : List String → α → List (String × List Char) → α → Prop
  | done {seen : List String} {a : α} (h : ∀ m ∈ R.members, m.mandatory = true → m.name ∈ seen) :
    Fills seen a [] a
  | member {seen : List String} {a a' a'' : α} {key : String} {front : List Char}
    {rest : List (String × List Char)} {m : Member α}
    (hknown : R.members.find? (·.name = key) = some m) (hnew : key ∉ seen)
    (hread : Reads (m.read depth a) front a') (hrest : Fills (key :: seen) a' rest a'') :
    Fills seen a ((key, front) :: rest) a''

variable {R depth}

theorem readNamed_end {seen : List String} (h : ∀ m ∈ R.members, m.mandatory = true → m.name ∈ seen)
    (first : Bool) (count : Nat) (a : α) {cur : Cursor} {rest : List Char}
    (hcur : cur.rest = '\x7d' :: rest) :
    R.readNamed depth (count + 1) first seen a cur = .ok (a, cur.pass '\x7d') := by
  have hfound : (R.members.find? fun m => m.mandatory && !seen.contains m.name) = none := by
    rw [List.find?_eq_none]
    intro m hm
    by_cases hmandatory : m.mandatory = true
    · simp [h m hm hmandatory]
    · simp [hmandatory]
  simp only [readNamed, nextKey?_end first hcur, hfound, skipBlanks_eq_self hcur (by decide), bind,
    Except.bind]
  rfl

theorem readNamed_member {seen : List String} {key : String} {m : Member α} {a a' : α}
    {front rest : List Char} (hknown : R.members.find? (·.name = key) = some m) (hnew : key ∉ seen)
    (hread : Reads (m.read depth a) front a') {first : Bool} {cur cur₁ : Cursor}
    (hkey : nextKey? first cur = .ok (some (key, cur₁))) (hcur : cur₁.rest = ':' :: (front ++ rest))
    (count : Nat) :
    ∃ cur₂, R.readNamed depth (count + 1) first seen a cur =
      R.readNamed depth count false (key :: seen) a' cur₂ ∧ cur₂.rest = rest := by
  have hbehind : (cur₁.pass ':').rest = front ++ rest := by
    rw [Cursor.rest_pass, hcur, List.tail_cons]
  obtain ⟨cur₂, hvalue, hrest⟩ := hread _ _ hbehind
  refine ⟨cur₂, ?_, hrest⟩
  rw [readNamed]
  simp only [hkey, hknown, passColon_eq_ok hcur, hvalue, bind, Except.bind]
  rw [if_neg (by simpa using hnew)]

theorem readNamed_rest {seen : List String} {a a' : α} {members : List (String × List Char)}
    (hfills : R.Fills depth seen a members a') {count : Nat} (hcount : members.length < count)
    {cur : Cursor} {rest : List Char}
    (h : cur.rest = (members.map memberText).flatMap (',' :: ·) ++ '\x7d' :: rest) :
    ∃ cur', R.readNamed depth count false seen a cur = .ok (a', cur') ∧ cur'.rest = rest := by
  obtain ⟨count, rfl⟩ : ∃ n, count = n + 1 := ⟨count - 1, by omega⟩
  induction hfills generalizing count cur with
  | done hall => exact ⟨cur.pass '\x7d', readNamed_end hall false count _ h, by simp [h]⟩
  | @member seen a a' a'' key front members m hknown hnew hread hrest ih =>
    simp only [List.map_cons, List.flatMap_cons, memberText, List.append_assoc,
      List.cons_append] at h
    obtain ⟨cur₁, hkey, hcur₁⟩ := nextKey?_more h
    obtain ⟨cur₂, hstep, hcur₂⟩ := readNamed_member hknown hnew hread hkey hcur₁ count
    obtain ⟨count, rfl⟩ : ∃ n, count = n + 1 := ⟨count - 1, by simp at hcount; omega⟩
    rw [hstep]
    exact ih hcur₂ count (by simpa using hcount)

theorem reads_named {a : α} {members : List (String × List Char)}
    (hfills : R.Fills depth [] R.blank members a) :
    Reads (fun cur => R.readNamed depth (cur.rest.length + 1) true [] R.blank cur)
      ([','].intercalate (members.map memberText) ++ ['\x7d']) a := by
  intro cur rest h
  rw [List.append_assoc, List.singleton_append] at h
  cases hfills with
  | done hall =>
    exact ⟨cur.pass '\x7d', readNamed_end hall true _ _ h,
      by simp [show cur.rest = '\x7d' :: rest from h]⟩
  | @member _ _ a' _ key front members m hknown hnew hread hrest =>
    rw [List.map_cons, intercalate_cons, memberText, List.append_assoc, List.append_assoc,
      List.cons_append] at h
    obtain ⟨cur₁, hkey, hcur₁⟩ := nextKey?_first h
    obtain ⟨cur₂, hstep, hcur₂⟩ := readNamed_member hknown hnew hread hkey hcur₁ cur.rest.length
    have hcount : members.length < cur.rest.length := by
      have := length_le_length_commas (members.map memberText)
      rw [List.length_map] at this
      rw [h]
      simp only [List.length_append, List.length_cons]
      omega
    simp only
    rw [hstep]
    exact readNamed_rest hrest hcount hcur₂

theorem reads_reader {a : α} {members : List (String × List Char)}
    (hfills : R.Fills (depth + 1) [] R.blank members a) :
    Reads (R.reader (depth + 2))
      ('\x7b' :: ([','].intercalate (members.map memberText) ++ ['\x7d'])) a := by
  refine Reads.dispatch (Or.inr (Or.inr rfl)) ?_
  intro cur rest h
  obtain ⟨cur', hread, hrest⟩ := (reads_named hfills).behind '\x7b' cur rest h
  refine ⟨cur', ?_, hrest⟩
  simp only [if_true, openNested_eq_ok, bind, Except.bind]
  exact hread

end Record

/-! ## Whole texts -/

theorem Reader.parse_eq_ok {α : Type} {read : Reader α} {text : String} {a : α}
    (h : Reads (read maxDepth) text.toList a) : read.parse text = .ok a := by
  obtain ⟨cur, hread, hrest⟩ := h (Cursor.start text) [] (by simp [Cursor.start])
  have hend : cur.skipBlanks.rest = [] := by
    obtain ⟨chars, line, column⟩ := cur
    cases hrest
    rfl
  rw [parse]
  refine bind_eq_ok.mpr ⟨_, hread, ?_⟩
  simp only [hend, if_true]
  rfl

end CertRegistry.Json
