import CertRegistry.Proofs.Json.Spelling

/-!
# Values that are skipped

Whatever the grammar has for a value is passed as a whole, however deep its parts are nested. The
reader keeps what is open in a list; a value in the innermost frame is done when the reader closes
frames behind it.
-/

namespace CertRegistry.Json

/-- Goes on with what comes after a value. -/
def resume (count : Nat) (r : Except Fault Continuation) : Except Fault Cursor := do
  match ← r with
  | .value frames cur => skipOpen count frames cur
  | .done cur => return cur

/-- Whether a value is passed, so that the frames around it are closed next. -/
def IsPassed (d : Doc) : Prop :=
  ∀ {l t : List Char} (_ : IsValue d l t) (_ : Ends t) (frames : List Frame) {cur : Cursor}
    (_ : cur.skipBlanks.rest = l) {count : Nat} (_ : l.length ≤ count), ∃ cur' count',
      skipOpen count frames cur = resume count' (closeFrames frames true cur') ∧
        cur'.rest = t ∧ t.length ≤ count'

theorem Doc.Opens.ofOpening? {d : Doc} {c : Char} (h : d.Opens c) (hscalar : d.IsScalar) :
    Frame.ofOpening? c = none := by
  cases d with
  | null => cases h; decide
  | bool b => cases b <;> cases h <;> decide
  | number cs =>
    rw [Frame.ofOpening?, if_neg, if_neg]
    · rintro rfl
      exact not_isDigit_of_mem (by decide) h
    · rintro rfl
      exact not_isDigit_of_mem (by decide) h
  | text spelled => cases h; decide
  | list items => exact hscalar.elim
  | object members => exact hscalar.elim

/-! ## One step -/

section Steps

variable {count : Nat} {frame : Frame} {frames : List Frame} {cur cur' : Cursor} {c : Char}
  {l t : List Char}

theorem skipOpen_opening (h : cur.skipBlanks.rest = c :: l) (hc : Frame.ofOpening? c = some frame) :
    skipOpen (count + 1) frames cur =
      resume count (closeFrames (frame :: frames) false (cur.skipBlanks.pass c)) := by
  rw [skipOpen]
  simp only [h, hc]
  rfl

theorem skipOpen_scalar (h : cur.skipBlanks.rest = c :: l) (hc : Frame.ofOpening? c = none)
    (hskip : skipScalar c cur.skipBlanks = .ok cur') :
    skipOpen (count + 1) frames cur = resume count (closeFrames frames true cur') := by
  rw [skipOpen]
  simp only [h, hc, hskip]
  rfl

theorem closeFrames_closing (comma : Bool) (hc : frame.closing ≠ ',')
    (h : cur.skipBlanks.rest = frame.closing :: t) :
    closeFrames (frame :: frames) comma cur =
      closeFrames frames true (cur.skipBlanks.pass frame.closing) := by
  rw [closeFrames]
  simp [h, hc]

theorem closeFrames_comma (h : cur.skipBlanks.rest = ',' :: t) :
    closeFrames (frame :: frames) true cur = enter frame frames (cur.skipBlanks.pass ',') := by
  rw [closeFrames]
  simp [h]

theorem closeFrames_first (h : cur.skipBlanks.rest = c :: t) (hc : c ≠ frame.closing) :
    closeFrames (frame :: frames) false cur = enter frame frames cur.skipBlanks := by
  rw [closeFrames]
  simp [h, hc]

/-- What separates an item from those before leads to it. -/
theorem closeFrames_separates {first : Bool} (hsep : Separates first cur.rest (c :: l))
    (hspace : isSpace c = false) (hc : c ≠ frame.closing) : ∃ cur',
      closeFrames (frame :: frames) (!first) cur = enter frame frames cur' ∧
        cur'.skipBlanks.rest = c :: l ∧ (c :: l).length ≤ cur.rest.length := by
  cases hsep with
  | first hgap =>
    have hcur := hgap.rest_skipBlanks hspace
    exact ⟨_, closeFrames_first hcur hc, skipBlanks_of_skipBlanks hcur, hgap.length_le⟩
  | comma hgap hgap' =>
    have hcur := hgap.rest_skipBlanks (by decide)
    refine ⟨_, closeFrames_comma hcur, Gap.rest_skipBlanks ?_ hspace, ?_⟩
    · rw [Cursor.rest_pass, hcur]
      exact hgap'
    · exact hgap'.length_le.trans ((Nat.le_succ _).trans hgap.length_le)

end Steps

/-! ## Values -/

theorem isPassed_scalar {d : Doc} (hscalar : d.IsScalar) : IsPassed d := by
  intro l t hd ht frames cur h count hcount
  have hlength := hd.length_lt
  obtain ⟨c, rest, rfl, hc⟩ := hd.exists_cons
  obtain ⟨count, rfl⟩ : ∃ n, count = n + 1 := ⟨count - 1, by omega⟩
  obtain ⟨cur', hskip, hrest⟩ := skipScalar_eq_ok hd hscalar ht h rfl
  exact ⟨cur', count, skipOpen_scalar h (hc.ofOpening? hscalar) hskip, hrest, by omega⟩

/-- The end of a list or an object is passed. -/
theorem closeFrames_end {frame : Frame} (frames : List Frame) (comma : Bool) {cur : Cursor}
    {t : List Char} (h : Gap cur.rest (frame.closing :: t)) {count : Nat}
    (hcount : cur.rest.length ≤ count) : ∃ cur' count',
      resume count (closeFrames (frame :: frames) comma cur) =
        resume count' (closeFrames frames true cur') ∧ cur'.rest = t ∧ t.length ≤ count' := by
  have hclosing : isSpace frame.closing = false ∧ frame.closing ≠ ',' := by
    cases frame <;> decide
  have hcur := h.rest_skipBlanks hclosing.1
  have hlength := h.length_le
  rw [List.length_cons] at hlength
  exact ⟨_, count, by rw [closeFrames_closing comma hclosing.2 hcur], by simp [hcur], by omega⟩

/-- The items of a list are passed up to its end. -/
theorem closeFrames_items {items : List Doc} (hitems : ∀ d ∈ items, IsPassed d) {first : Bool}
    {t : List Char} (frames : List Frame) {cur : Cursor} (h : IsItems first items cur.rest t)
    {count : Nat} (hcount : cur.rest.length ≤ count) : ∃ cur' count',
      resume count (closeFrames (.list :: frames) (!first) cur) =
        resume count' (closeFrames frames true cur') ∧ cur'.rest = t ∧ t.length ≤ count' := by
  induction items generalizing first cur count with
  | nil =>
    cases h with
    | done hgap => exact closeFrames_end frames (!first) hgap hcount
  | cons d items ih =>
    cases h with
    | item hbefore hvalue hrest =>
      obtain ⟨c, v, rfl, hc⟩ := hvalue.exists_cons
      obtain ⟨cur₁, hstep, hcur₁, hlength⟩ :=
        @closeFrames_separates .list frames cur c v first hbefore hc.isSpace hc.ne.1
      obtain ⟨hd, hmore⟩ := List.forall_mem_cons.mp hitems
      obtain ⟨cur₂, count₂, hitem, rfl, hcount₂⟩ :=
        hd hvalue hrest.ends (.list :: frames) hcur₁ (hlength.trans hcount)
      obtain ⟨cur', count', hend, hcur', hcount'⟩ := ih hmore hrest hcount₂
      refine ⟨cur', count', ?_, hcur', hcount'⟩
      rw [hstep, ← hend, Bool.not_false, ← hitem]
      rfl

theorem skipKey_eq_ok {key : List Spelled} {k k' : List Char} {cur : Cursor}
    (h : cur.skipBlanks.rest = '"' :: (key.flatMap Spelled.chars ++ '"' :: k))
    (hcolon : Gap k (':' :: k')) : ∃ cur', skipKey cur = .ok cur' ∧ cur'.rest = k' := by
  have hpass : (cur.skipBlanks.pass '"').rest = key.flatMap Spelled.chars ++ '"' :: k := by
    rw [Cursor.rest_pass, h, List.tail_cons]
  obtain ⟨cur₁, hskip, rfl⟩ := skipText_spelled hpass
  have hcur₁ := hcolon.rest_skipBlanks (by decide)
  refine ⟨cur₁.skipBlanks.pass ':', ?_, by simp [hcur₁]⟩
  simp only [skipKey, h, ne_eq, not_true_eq_false, if_false, hskip, hcur₁, if_true, bind,
    Except.bind]
  rfl

/-- The members of an object are passed up to its end. -/
theorem closeFrames_members {members : List (List Spelled × Doc)}
    (hmembers : ∀ m ∈ members, IsPassed m.2) {first : Bool} {t : List Char} (frames : List Frame)
    {cur : Cursor} (h : IsMembers first members cur.rest t) {count : Nat}
    (hcount : cur.rest.length ≤ count) : ∃ cur' count',
      resume count (closeFrames (.object :: frames) (!first) cur) =
        resume count' (closeFrames frames true cur') ∧ cur'.rest = t ∧ t.length ≤ count' := by
  induction members generalizing first cur count with
  | nil =>
    cases h with
    | done hgap => exact closeFrames_end frames (!first) hgap hcount
  | cons m members ih =>
    cases h with
    | @member _ key d _ l k k' v l' t hbefore hcolon hgap hvalue hrest =>
      obtain ⟨cur₁, hstep, hcur₁, hlength⟩ :=
        @closeFrames_separates .object frames cur '"' _ first hbefore (by decide) (by decide)
      obtain ⟨cur₂, hkey, rfl⟩ := skipKey_eq_ok hcur₁ hcolon
      have hv : v.length ≤ count := by
        have := hgap.length_le
        have := hcolon.length_le
        simp only [List.length_cons, List.length_append] at *
        omega
      obtain ⟨hd, hmore⟩ := List.forall_mem_cons.mp hmembers
      obtain ⟨cur₃, count₃, hitem, rfl, hcount₃⟩ :=
        hd hvalue hrest.ends (.object :: frames) (hvalue.rest_skipBlanks hgap) hv
      obtain ⟨cur', count', hend, hcur', hcount'⟩ := ih hmore hrest hcount₃
      refine ⟨cur', count', ?_, hcur', hcount'⟩
      rw [hstep, ← hend, Bool.not_false, ← hitem, enter, hkey]
      rfl

theorem isPassed (d : Doc) : IsPassed d := by
  induction d using Doc.induct with
  | scalar d hscalar => exact isPassed_scalar hscalar
  | list items ih =>
    intro l t hd ht frames cur h count hcount
    cases hd with
    | @list _ inner _ hitems =>
      obtain ⟨count, rfl⟩ : ∃ n, count = n + 1 := ⟨count - 1, by simp at hcount; omega⟩
      have hpass : (cur.skipBlanks.pass '[').rest = inner := by
        rw [Cursor.rest_pass, h, List.tail_cons]
      have hroom : (cur.skipBlanks.pass '[').rest.length ≤ count := by
        rw [hpass]
        simpa using hcount
      rw [skipOpen_opening h rfl]
      exact closeFrames_items ih frames (hpass ▸ hitems) hroom
  | object members ih =>
    intro l t hd ht frames cur h count hcount
    cases hd with
    | @object _ inner _ hmembers =>
      obtain ⟨count, rfl⟩ : ∃ n, count = n + 1 := ⟨count - 1, by simp at hcount; omega⟩
      have hpass : (cur.skipBlanks.pass '\x7b').rest = inner := by
        rw [Cursor.rest_pass, h, List.tail_cons]
      have hroom : (cur.skipBlanks.pass '\x7b').rest.length ≤ count := by
        rw [hpass]
        simpa using hcount
      rw [skipOpen_opening h rfl]
      exact closeFrames_members ih frames (hpass ▸ hmembers) hroom

/-- A value is skipped up to its end. -/
theorem skipValue_eq_ok {d : Doc} {l t : List Char} (h : IsValue d l t) (ht : Ends t) {cur : Cursor}
    (hgap : Gap cur.rest l) : ∃ cur', skipValue cur = .ok cur' ∧ cur'.rest = t := by
  obtain ⟨cur', count, hskip, hrest, -⟩ := isPassed d h ht [] (h.rest_skipBlanks hgap)
    (hgap.length_le.trans (Nat.le_succ _))
  exact ⟨cur', by rw [skipValue, hskip]; rfl, hrest⟩

end CertRegistry.Json
