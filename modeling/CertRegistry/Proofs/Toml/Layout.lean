import CertRegistry.Proofs.Toml.Values
import CertRegistry.Toml.Document

/-!
# Documents line by line

A document of headers and assignments under keys without dots can be laid out in many ways: with
blanks around its marks, with comments, with lines in between that say nothing, with one kind of
line end or the other, and with its keys between quotes or not. Whichever way it is, its statements
are read in their order.
-/

namespace CertRegistry.Toml

/-- Whether characters are a key without dots. -/
inductive IsKey (name : String) : List Char → Prop
  | bare (hne : name.toList ≠ []) (h : ∀ c ∈ name.toList, isKeyChar c = true) :
    IsKey name name.toList
  | quoted {l : List Char} (h : IsQuoted name.toList l) : IsKey name l

/-- Whether characters at the end of a line say nothing. -/
inductive IsGap : List Char → Prop
  | blanks {blanks : List Char} (h : ∀ c ∈ blanks, isBlank c = true) : IsGap blanks
  | comment {blanks text : List Char} (h : ∀ c ∈ blanks, isBlank c = true)
    (htext : ∀ c ∈ text, isControl c = false) : IsGap (blanks ++ '#' :: text)

inductive IsNewline : List Char → Prop
  | feed : IsNewline ['\n']
  | both : IsNewline ['\r', '\n']

/-- Whether characters are a statement. -/
inductive SpellsStatement : Statement → List Char → Prop
  | assign {name : String} {item : Item} {key blanks value : List Char} (hkey : IsKey name key)
    (hblanks : ∀ c ∈ blanks, isBlank c = true) (hvalue : SpellsValue item value) :
    SpellsStatement (.assign [name] item) (key ++ (blanks ++ '=' :: value))
  | header {name : String} {before key after : List Char}
    (hbefore : ∀ c ∈ before, isBlank c = true) (hkey : IsKey name key)
    (hafter : ∀ c ∈ after, isBlank c = true) :
    SpellsStatement (.header [name]) ('[' :: (before ++ (key ++ (after ++ [']']))))

/-- Whether characters are a line with a statement or without one. -/
inductive SpellsLine : List Statement → List Char → Prop
  | gap {gap : List Char} (hgap : IsGap gap) : SpellsLine [] gap
  | statement {s : Statement} {indent line gap : List Char}
    (hindent : ∀ c ∈ indent, isBlank c = true) (hline : SpellsStatement s line)
    (hgap : IsGap gap) : SpellsLine [s] (indent ++ (line ++ gap))

/-- Whether characters are lines with certain statements. -/
inductive IsDocument : List Statement → List Char → Prop
  | last {ss : List Statement} {line : List Char} (h : SpellsLine ss line) : IsDocument ss line
  | cons {ss more : List Statement} {line newline rest : List Char} (h : SpellsLine ss line)
    (hnewline : IsNewline newline) (hrest : IsDocument more rest) :
    IsDocument (ss ++ more) (line ++ (newline ++ rest))

/-! ## Ends of lines -/

/-- Whether a line is over, with other ones after it or not. -/
inductive Ends : List Char → List Char → Prop
  | text : Ends [] []
  | line {newline rest : List Char} (h : IsNewline newline) : Ends (newline ++ rest) rest

section Lines

variable {gap tail next : List Char}

theorem IsGap.skipComment_append (h : IsGap gap)
    (htail : ∀ c, tail.head? = some c → isControl c = true ∧ isBlank c = false) :
    skipComment (skipBlanks (gap ++ tail)) = tail := by
  cases h with
  | blanks h =>
    rw [skipBlanks, dropWhile_append h fun c hc => (htail c hc).2]
    unfold skipComment
    split
    next => exact absurd (htail '#' rfl).1 (by decide)
    next => rfl
  | comment h htext =>
    rw [skipBlanks, List.append_assoc, List.dropWhile_append_of_pos h, List.cons_append,
      List.dropWhile_cons_of_neg (by decide)]
    exact dropWhile_append (fun c hc => by simp [htext c hc]) fun c hc => by simp [(htail c hc).1]

theorem Ends.head? (h : Ends tail next) :
    ∀ c, tail.head? = some c → isControl c = true ∧ isBlank c = false := by
  rintro c hc
  cases h with
  | text => cases hc
  | line h =>
    cases h with
    | feed =>
      cases hc
      decide
    | both =>
      cases hc
      decide

theorem IsGap.passLineEnd? (hgap : IsGap gap) (h : Ends tail next) :
    passLineEnd? (gap ++ tail) = some next := by
  simp only [Toml.passLineEnd?, hgap.skipComment_append h.head?]
  cases h with
  | text => rfl
  | line h => cases h <;> rfl

end Lines

/-! ## Space between statements -/

section Space

variable {cs rest : List Char} {c : Char} {n m : Nat}

theorem length_skipBlanks (cs : List Char) : (skipBlanks cs).length ≤ cs.length :=
  (List.dropWhile_sublist _).length_le

theorem length_skipComment (cs : List Char) : (skipComment cs).length ≤ cs.length := by
  unfold skipComment
  split
  next text =>
    exact ((List.dropWhile_sublist _).length_le).trans (Nat.le_succ _)
  next => exact Nat.le_refl _

theorem length_passNewline? (h : passNewline? cs = some rest) : rest.length < cs.length := by
  unfold passNewline? at h
  split at h
  · cases h
    exact Nat.lt_succ_self _
  · cases h
    exact Nat.lt_succ_of_lt (Nat.lt_succ_self _)
  · cases h

theorem skipSpace_nil (n : Nat) : skipSpace n [] = some [] := by
  cases n with
  | zero => rfl
  | succ n => rfl

/-- As many as there are characters are enough. -/
theorem skipSpace_eq_of_le (hn : cs.length ≤ n) (hm : cs.length ≤ m) :
    skipSpace n cs = skipSpace m cs := by
  induction n generalizing m cs with
  | zero =>
    obtain rfl := List.length_eq_zero_iff.mp (Nat.le_zero.mp hn)
    rw [skipSpace_nil, skipSpace_nil]
  | succ n ih =>
    cases m with
    | zero =>
      obtain rfl := List.length_eq_zero_iff.mp (Nat.le_zero.mp hm)
      rw [skipSpace_nil, skipSpace_nil]
    | succ m =>
      have hnext : ∀ passed rest, passed.length ≤ cs.length → passNewline? passed = some rest →
          skipSpace n rest = skipSpace m rest := by
        intro passed rest hpassed hrest
        have := length_passNewline? hrest
        exact ih (by omega) (by omega)
      have hblanks := length_skipBlanks cs
      have hcomment := length_skipComment (skipBlanks cs)
      simp only [skipSpace]
      split
      · cases hpassed : skipComment (skipBlanks cs) with
        | nil => rfl
        | cons first more =>
          simp only
          cases hrest : passNewline? (first :: more) with
          | none => rfl
          | some rest => exact hnext _ _ (hpassed ▸ hcomment.trans hblanks) hrest
      · cases hrest : passNewline? (skipBlanks cs) with
        | none => rfl
        | some rest => exact hnext _ _ hblanks hrest

theorem skipSpace_of_passLineEnd? (h : passLineEnd? cs = some rest) (n : Nat) :
    skipSpace (n + 1) cs = skipSpace n rest := by
  unfold passLineEnd? at h
  simp only [skipSpace]
  split
  next heq =>
    rw [heq] at h ⊢
    split at h
    next =>
      cases h
      simp only [skipSpace_nil]
    next => rw [h, Option.bind_eq_bind, Option.bind_some]
  next hcomment =>
    have hskip : skipComment (skipBlanks cs) = skipBlanks cs := by
      unfold skipComment
      split
      next heq => exact absurd heq (hcomment _)
      next => rfl
    rw [hskip] at h
    split at h
    next hnil =>
      cases h
      simp only [hnil, passNewline?, skipSpace_nil]
    next => simp only [h]

theorem length_passLineEnd? (h : passLineEnd? cs = some rest) (hne : cs ≠ []) :
    rest.length < cs.length := by
  unfold passLineEnd? at h
  split at h
  · cases h
    exact List.length_pos_of_ne_nil hne
  · exact (length_passNewline? h).trans_le ((length_skipComment _).trans (length_skipBlanks cs))

/-- A line that says nothing makes no difference. -/
theorem skipAll?_of_passLineEnd? (h : passLineEnd? cs = some rest) :
    skipAll? cs = skipAll? rest := by
  rcases eq_or_ne cs [] with rfl | hne
  · cases h
    rfl
  · have hlt := length_passLineEnd? h hne
    obtain ⟨n, hn⟩ := Nat.exists_eq_add_of_lt hlt
    rw [skipAll?, hn, skipSpace_of_passLineEnd? h]
    exact skipSpace_eq_of_le (Nat.le_add_right _ _) (Nat.le_refl _)

/-- Space is over where no blank, no comment and no line end comes next. -/
theorem skipAll?_of_not_isLineEnd {indent : List Char} (hindent : ∀ c ∈ indent, isBlank c = true)
    (hc : isLineEnd c = false) : skipAll? (indent ++ c :: rest) = some (c :: rest) := by
  simp only [isLineEnd, Bool.or_eq_false_iff, decide_eq_false_iff_not] at hc
  obtain ⟨⟨⟨hblank, hcomment⟩, hfeed⟩, hreturn⟩ := hc
  have hskip : skipBlanks (indent ++ c :: rest) = c :: rest :=
    dropWhile_append hindent fun c' hc' => by
      cases hc'
      exact hblank
  have hline : passNewline? (c :: rest) = none := by
    unfold passNewline?
    split
    next heq => exact absurd (List.cons.inj heq).1 hfeed
    next heq => exact absurd (List.cons.inj heq).1 hreturn
    next => rfl
  have hne : (indent ++ c :: rest).length ≠ 0 := by simp
  obtain ⟨n, hn⟩ := Nat.exists_eq_succ_of_ne_zero hne
  rw [skipAll?, hn]
  simp only [skipSpace, hskip, hline]
  split
  next heq => exact absurd (List.cons.inj heq).1 hcomment
  next => rfl

end Space

/-! ## Keys -/

def isKeyStart (c : Char) : Bool := isKeyChar c || c = '"' || c = '\''

theorem not_isLineEnd_of_isKeyStart {c : Char} (h : isKeyStart c = true) : isLineEnd c = false := by
  by_contra hend
  simp only [isLineEnd, isBlank, Bool.not_eq_false, Bool.or_eq_true, decide_eq_true_eq] at hend
  revert h
  rcases hend with (((rfl | rfl) | rfl) | rfl) | rfl <;> decide

theorem not_isBlank_of_isKeyStart {c : Char} (h : isKeyStart c = true) : isBlank c = false := by
  have hend := not_isLineEnd_of_isKeyStart h
  simp only [isLineEnd, Bool.or_eq_false_iff] at hend
  exact hend.1.1.1

theorem not_isKeyChar_of_isBlank {c : Char} (h : isBlank c = true) : isKeyChar c = false := by
  by_contra hkey
  have hstart : isKeyStart c = true := by simp [isKeyStart, Bool.not_eq_false _ ▸ hkey]
  exact Bool.false_ne_true ((not_isBlank_of_isKeyStart hstart).symm.trans h)

namespace IsKey

variable {name : String} {l rest : List Char}

theorem exists_cons (h : IsKey name l) : ∃ c more, l = c :: more ∧ isKeyStart c = true := by
  cases h with
  | bare hne h =>
    obtain ⟨c, more, hl⟩ := List.exists_cons_of_ne_nil hne
    exact ⟨c, more, hl, by simp [isKeyStart, h c (hl ▸ List.mem_cons_self)]⟩
  | quoted h =>
    cases h with
    | basic => exact ⟨_, _, rfl, by decide⟩
    | literal => exact ⟨_, _, rfl, by decide⟩

theorem simpleKey?_append (h : IsKey name l)
    (hrest : ∀ c, rest.head? = some c → isKeyChar c = false) :
    simpleKey? (l ++ rest) = some (name, rest) := by
  cases h with
  | bare hne h =>
    obtain ⟨c, more, hl⟩ := List.exists_cons_of_ne_nil hne
    have hc : isKeyChar c = true := h c (hl ▸ List.mem_cons_self)
    have hspan : (c :: more ++ rest).span isKeyChar = (c :: more, rest) :=
      span_append (hl ▸ h) hrest
    rw [hl]
    unfold simpleKey?
    split
    next heq =>
      obtain ⟨rfl, -⟩ := List.cons.inj heq
      exact absurd hc (by decide)
    next heq =>
      obtain ⟨rfl, -⟩ := List.cons.inj heq
      exact absurd hc (by decide)
    next =>
      simp only [hspan]
      rw [← hl, String.ofList_toList]
  | quoted h =>
    cases h with
    | basic h =>
      simp only [List.cons_append, List.append_assoc, List.nil_append, simpleKey?,
        h.basic?_append, Option.map_some, String.ofList_toList]
    | literal hcontrol hquote =>
      simp only [List.cons_append, List.append_assoc, List.nil_append, simpleKey?,
        literal?_append hcontrol hquote, Option.map_some, String.ofList_toList]

/-- A key ends in front of a mark, before which there may be blanks. -/
theorem key?_append {before after : List Char} {mark : Char} (h : IsKey name l)
    (hbefore : ∀ c ∈ before, isBlank c = true) (hafter : ∀ c ∈ after, isBlank c = true)
    (hmark : mark = '=' ∨ mark = ']') :
    key? maxDepth (before ++ (l ++ (after ++ mark :: rest))) = some ([name], mark :: rest) := by
  have hstop : ∀ c, (after ++ mark :: rest).head? = some c → isKeyChar c = false := by
    intro c hc
    cases after with
    | nil =>
      cases hc
      rcases hmark with rfl | rfl <;> decide
    | cons blank after =>
      cases hc
      exact not_isKeyChar_of_isBlank (hafter _ List.mem_cons_self)
  have hskip : skipBlanks (before ++ (l ++ (after ++ mark :: rest))) =
      l ++ (after ++ mark :: rest) := by
    obtain ⟨c, more, rfl, hc⟩ := h.exists_cons
    exact dropWhile_append hbefore fun c' hc' => by
      cases hc'
      exact not_isBlank_of_isKeyStart hc
  have hmore : skipBlanks (after ++ mark :: rest) = mark :: rest :=
    dropWhile_append hafter fun c hc => by
      cases hc
      rcases hmark with rfl | rfl <;> decide
  change key? (78 + 1) _ = _
  unfold key?
  simp only [hskip, h.simpleKey?_append hstop, Option.bind_eq_bind, Option.bind_some, hmore]
  rcases hmark with rfl | rfl <;> rfl

end IsKey

/-! ## Statements -/

section Statements

variable {s : Statement} {ss more : List Statement} {line tail next : List Char} {n : Nat}

/-- No statement starts with a blank or with what ends a line. -/
theorem SpellsStatement.exists_cons (h : SpellsStatement s line) :
    ∃ c more, line = c :: more ∧ isLineEnd c = false := by
  cases h with
  | assign hkey =>
    obtain ⟨c, more, rfl, hc⟩ := hkey.exists_cons
    exact ⟨c, _, rfl, not_isLineEnd_of_isKeyStart hc⟩
  | header => exact ⟨'[', _, rfl, by decide⟩

theorem SpellsStatement.length_pos (h : SpellsStatement s line) : 0 < line.length := by
  obtain ⟨c, more, rfl, -⟩ := h.exists_cons
  exact Nat.succ_pos _

theorem SpellsStatement.skipAll?_append (h : SpellsStatement s line) {indent : List Char}
    (hindent : ∀ c ∈ indent, isBlank c = true) (tail : List Char) :
    skipAll? (indent ++ (line ++ tail)) = some (line ++ tail) := by
  obtain ⟨c, more, rfl, hc⟩ := h.exists_cons
  exact skipAll?_of_not_isLineEnd hindent hc

theorem assignment?_append {name : String} {item : Item} {key blanks value : List Char}
    (hkey : IsKey name key) (hblanks : ∀ c ∈ blanks, isBlank c = true)
    (hvalue : SpellsValue item value) (htail : (passLineEnd? tail).isSome) :
    assignment? (value? maxDepth) (key ++ (blanks ++ '=' :: value) ++ tail) =
      some (([name], item), tail) := by
  have hpath : key? maxDepth (key ++ (blanks ++ '=' :: (value ++ tail))) =
      some ([name], '=' :: (value ++ tail)) :=
    hkey.key?_append (List.forall_mem_nil _) hblanks (.inl rfl)
  rw [List.append_assoc, List.append_assoc, List.cons_append]
  simp only [assignment?, hpath, Option.bind_eq_bind, Option.bind_some, hvalue tail htail]
  rfl

theorem header?_append {name : String} {before key after : List Char}
    (hbefore : ∀ c ∈ before, isBlank c = true) (hkey : IsKey name key)
    (hafter : ∀ c ∈ after, isBlank c = true) (tail : List Char) :
    header? (before ++ (key ++ (after ++ [']'])) ++ tail) = some (.header [name], tail) := by
  have hpath : key? maxDepth (before ++ (key ++ (after ++ ']' :: tail))) =
      some ([name], ']' :: tail) := hkey.key?_append hbefore hafter (.inr rfl)
  simp only [List.append_assoc, List.singleton_append]
  unfold header?
  split
  next heq =>
    cases before with
    | nil =>
      obtain ⟨c, more, rfl, hc⟩ := hkey.exists_cons
      obtain ⟨rfl, -⟩ := List.cons.inj heq
      exact absurd hc (by decide)
    | cons blank before =>
      obtain ⟨rfl, -⟩ := List.cons.inj heq
      exact absurd (hbefore '[' List.mem_cons_self) (by decide)
  next =>
    simp only [hpath, Option.bind_eq_bind, Option.bind_some]
    rfl

/-- A statement is read up to the end of its line. -/
theorem SpellsStatement.statements? (h : SpellsStatement s line) {cs : List Char}
    (hskip : skipAll? cs = some (line ++ tail)) (htail : passLineEnd? tail = some next) (n : Nat) :
    statements? (n + 1) cs = (statements? n next).map (s :: ·) := by
  cases h with
  | assign hkey hblanks hvalue =>
    have hread := assignment?_append hkey hblanks hvalue (Option.isSome_of_eq_some htail)
    obtain ⟨c, more, rfl, hc⟩ := hkey.exists_cons
    rw [Toml.statements?, hskip, Option.bind_eq_bind, Option.bind_some]
    split
    next heq => cases heq
    next heq =>
      obtain ⟨rfl, -⟩ := List.cons.inj heq
      exact absurd hc (by decide)
    next =>
      simp only [hread, Option.bind_eq_bind, Option.bind_some, htail, Option.map_eq_bind]
      rfl
  | header hbefore hkey hafter =>
    have hread := header?_append hbefore hkey hafter tail
    rw [Toml.statements?, hskip, Option.bind_eq_bind, Option.bind_some]
    simp only [Option.bind_eq_bind, Option.bind_some, List.cons_append, hread, htail,
      Option.map_eq_bind]
    rfl

theorem statements?_congr {cs cs' : List Char} (h : skipAll? cs = skipAll? cs') (n : Nat) :
    Toml.statements? n cs = Toml.statements? n cs' := by
  cases n with
  | zero => rfl
  | succ n => simp only [Toml.statements?, h]

theorem Ends.length_le (h : Ends tail next) : next.length ≤ tail.length := by
  cases h with
  | text => exact Nat.le_refl _
  | line => exact (List.sublist_append_right _ _).length_le

/-- The statements of a line come before those of the lines after it. -/
theorem SpellsLine.statements? (h : SpellsLine ss line) (htail : Ends tail next)
    (hnext : ∀ n, next.length < n → Toml.statements? n next = some more)
    (hn : (line ++ tail).length < n) : Toml.statements? n (line ++ tail) = some (ss ++ more) := by
  have hle := htail.length_le
  rw [List.length_append] at hn
  cases h with
  | gap hgap =>
    rw [statements?_congr (skipAll?_of_passLineEnd? (hgap.passLineEnd? htail)), hnext n (by omega)]
    rfl
  | statement hindent hline hgap =>
    obtain ⟨n, rfl⟩ := Nat.exists_eq_succ_of_ne_zero (Nat.ne_zero_of_lt hn)
    have hpos := hline.length_pos
    simp only [List.length_append] at hn
    rw [List.append_assoc, List.append_assoc, hline.statements? (hline.skipAll?_append hindent _)
      (hgap.passLineEnd? htail), hnext n (by omega)]
    rfl

end Statements

theorem IsDocument.statements? {ss : List Statement} {l : List Char} (h : IsDocument ss l) {n : Nat}
    (hn : l.length < n) : Toml.statements? n l = some ss := by
  induction h generalizing n with
  | last h =>
    have hnext : ∀ n, ([] : List Char).length < n → Toml.statements? n [] = some [] := by
      intro n hn
      obtain ⟨n, rfl⟩ := Nat.exists_eq_succ_of_ne_zero (Nat.ne_zero_of_lt hn)
      rfl
    simpa using h.statements? .text hnext (by simpa using hn)
  | cons h hnewline _ ih => exact h.statements? (.line hnewline) (fun n => ih) hn

/-- No document starts with a mark of the octet order, so none is taken away from it. -/
theorem statements?_mark (rest : List Char) (n : Nat) :
    statements? (n + 1) ('\uFEFF' :: rest) = none := rfl

theorem IsDocument.parse? {ss : List Statement} {text : String} (h : IsDocument ss text.toList) :
    parse? text = (ss.foldlM Draft.run? {}).bind Draft.close? := by
  have hread := h.statements? (Nat.lt_succ_self _)
  unfold Toml.parse?
  cases hchars : text.toList with
  | nil =>
    rw [hchars] at hread
    simp only [hread, Option.bind_eq_bind, Option.bind_some]
  | cons c rest =>
    rw [hchars] at hread
    have hmark : c.toNat ≠ 0xFEFF := by
      intro hmark
      obtain rfl : c = '\uFEFF' := by rw [← Char.ofNat_toNat c, hmark]
      rw [statements?_mark] at hread
      cases hread
    simp only [if_neg hmark, hread, Option.bind_eq_bind, Option.bind_some]

/-! ## Writing -/

theorem exists_isKey (name : String) : ∃ l, IsKey name l := by
  obtain ⟨l, h⟩ := exists_isQuoted name.toList
  exact ⟨l, .quoted h⟩

theorem SpellsStatement.exists_header (name : String) :
    ∃ l, SpellsStatement (.header [name]) l := by
  obtain ⟨key, hkey⟩ := exists_isKey name
  exact ⟨_, .header (List.forall_mem_nil _) hkey (List.forall_mem_nil _)⟩

theorem SpellsStatement.exists_assign (name : String) {item : Item} (h : ∃ l, SpellsValue item l) :
    ∃ l, SpellsStatement (.assign [name] item) l := by
  obtain ⟨key, hkey⟩ := exists_isKey name
  obtain ⟨value, hvalue⟩ := h
  exact ⟨_, .assign hkey (List.forall_mem_nil _) hvalue⟩

/-- Statements can be laid out in lines if each of them can. -/
theorem exists_isDocument {ss : List Statement} (h : ∀ s ∈ ss, ∃ line, SpellsStatement s line) :
    ∃ l, IsDocument ss l := by
  have hgap : IsGap [] := .blanks (List.forall_mem_nil _)
  induction ss with
  | nil => exact ⟨[], .last (.gap hgap)⟩
  | cons s ss ih =>
    obtain ⟨⟨line, hline⟩, hmore⟩ := List.forall_mem_cons.mp h
    obtain ⟨rest, hrest⟩ := ih hmore
    exact ⟨_, .cons (.statement (List.forall_mem_nil _) hline hgap) .feed hrest⟩

end CertRegistry.Toml
