import CertRegistry.Proofs.Json.Layout
import CertRegistry.Proofs.Json.Values

/-!
# Values of any shape are read back

A value without fractions, whose numbers fit 64 bits and whose keys are in order, is read back from
its document, and so from whatever is printed for it.
-/

namespace CertRegistry.Json

variable {α : Type}

/-! ## Numbers -/

theorem readNumber_toString (negative : Bool) {n : Nat} (hn : n ≤ maxWord) :
    (readNumber negative { rest := (toString n).toList }).toOption.map (·.1) =
      some (wholeNumber negative n) := by
  have hvalue : ((toString n).toList.map fun c => c.toNat - 48).foldl (fun n d => n * 10 + d) 0 =
      n := by
    rw [List.foldl_map]
    exact Text.foldl_toString n
  have htaken := takeUp_eq (hvalue.symm ▸ hn)
  rw [hvalue] at htaken
  have hcomes := @comes_readNumber_whole negative (toString n).toList
    ⟨Text.toString_ne_nil n, fun _ => Text.isDigit_of_mem_toString⟩
    (fun _ => Text.eq_nil_of_toString) [] { rest := (toString n).toList } ends_nil
    (List.append_nil _).symm
  rw [hcomes.toOption_eq, wholeNumber?, htaken]
  simp

theorem Number.ofChars?_natural {n : Nat} (hn : n ≤ maxWord) :
    ofChars? (Number.natural n).text.toList = some (.natural n) := by
  rw [Number.text, ofChars?_of_isUnsigned (isUnsigned_toString n), readNumber_toString false hn]
  rfl

theorem Number.ofChars?_negative {n : Nat} (hpos : 0 < n) (hn : n ≤ signBit) :
    ofChars? (Number.negative n).text.toList = some (.negative n) := by
  have hword : signBit ≤ maxWord := by decide
  have htext : (Number.negative n).text.toList = '-' :: (toString n).toList := by
    rw [Number.text, String.toList_append]
    rfl
  rw [htext, ofChars?, readNumber_toString true (hn.trans hword), wholeNumber, if_neg (by simp),
    if_neg (by omega)]

/-! ## Members in order -/

theorem putMember_append {key : String} {a : α} {members : List (String × α)}
    (h : ∀ m ∈ members, m.1 < key) : putMember key a members = members ++ [(key, a)] := by
  induction members with
  | nil => rfl
  | cons m members ih =>
    obtain ⟨hm, hmore⟩ := List.forall_mem_cons.mp h
    rw [putMember_of_gt hm, ih hmore, List.cons_append]

/-- Members in the order of their keys stay as they are. -/
theorem foldl_putMember {members : List (String × α)} :
    ∀ {before : List (String × α)}, (before ++ members).Pairwise (fun m m' => m.1 < m'.1) →
      members.foldl (fun ms m => putMember m.1 m.2 ms) before = before ++ members := by
  induction members with
  | nil => simp
  | cons m members ih =>
    intro before h
    have hlast : ∀ m' ∈ before, m'.1 < m.1 := fun m' hm' =>
      (List.pairwise_append.mp h).2.2 m' hm' m List.mem_cons_self
    rw [List.foldl_cons, putMember_append hlast, ih (by simpa using h), List.append_assoc,
      List.singleton_append]

/-- A new member comes to the others, wherever it is put. -/
theorem putMember_perm {key : String} (a : α) {members : List (String × α)}
    (h : ∀ m ∈ members, m.1 ≠ key) : (putMember key a members).Perm ((key, a) :: members) := by
  induction members with
  | nil => exact .refl _
  | cons m members ih =>
    obtain ⟨hm, hmore⟩ := List.forall_mem_cons.mp h
    rw [putMember, if_neg hm.symm]
    split
    · exact .refl _
    · exact ((ih hmore).cons m).trans (.swap (key, a) m members)

theorem foldl_putMember_perm {members before : List (String × α)}
    (h : (members ++ before).Pairwise fun m m' => m.1 ≠ m'.1) :
    (members.foldl (fun ms m => putMember m.1 m.2 ms) before).Perm (members ++ before) := by
  induction members generalizing before with
  | nil => exact .refl _
  | cons m members ih =>
    obtain ⟨hm, hmore⟩ := List.pairwise_cons.mp h
    have hput := putMember_perm m.2 fun m' hm' => (hm m' (List.mem_append_right _ hm')).symm
    have hmoved : (members ++ putMember m.1 m.2 before).Perm (m :: (members ++ before)) :=
      (hput.append_left members).trans List.perm_middle
    exact (ih ((hmoved.pairwise_iff fun hne => hne.symm).mpr h)).trans hmoved

/-! ## Values -/

namespace Value

/-- Whether a value is one that is read back where it may nest so deep. -/
inductive Fits : Nat → Value → Prop
  | null (depth : Nat) : Fits (depth + 1) null
  | bool (depth : Nat) (b : Bool) : Fits (depth + 1) (bool b)
  | natural (depth : Nat) {n : Nat} (h : n ≤ maxWord) : Fits (depth + 1) (number (.natural n))
  | negative (depth : Nat) {n : Nat} (hpos : 0 < n) (h : n ≤ signBit) :
    Fits (depth + 1) (number (.negative n))
  | text (depth : Nat) (s : String) : Fits (depth + 1) (text s)
  | list {depth : Nat} {items : List Value} (h : ∀ v ∈ items, Fits (depth + 1) v) :
    Fits (depth + 2) (list items)
  | object {depth : Nat} {members : List (String × Value)}
    (hsorted : members.Pairwise fun m m' => m.1 < m'.1) (h : ∀ m ∈ members, Fits (depth + 1) m.2) :
    Fits (depth + 2) (object members)

theorem Fits.isPlain {depth : Nat} {v : Value} (h : v.Fits depth) : v.IsPlain := by
  induction h with
  | null => exact .null
  | bool depth b => exact .bool b
  | natural => exact .natural _
  | negative => exact .negative _
  | text depth s => exact .text s
  | list _ ih => exact .list ih
  | object _ _ ih => exact .object ih

theorem record_of_sorted {members : List (String × Value)}
    (h : members.Pairwise fun m m' => m.1 < m'.1) : record members = object members := by
  rw [record, foldl_putMember h, List.nil_append]

/-- The members of a record are its own, in some order. -/
theorem exists_record_perm {members : List (String × Value)}
    (h : members.Pairwise fun m m' => m.1 ≠ m'.1) :
    ∃ sorted, record members = object sorted ∧ sorted.Perm members := by
  have hperm : (members.foldl (fun ms m => putMember m.1 m.2 ms) []).Perm (members ++ []) :=
    foldl_putMember_perm (by simpa using h)
  exact ⟨_, rfl, by simpa using hperm⟩

/-- What the document of a value means is the value. -/
theorem Fits.value?_doc {depth : Nat} {v : Value} (h : v.Fits depth) :
    v.doc.value? depth = some v := by
  induction h with
  | null depth => rw [doc, Doc.value?]
  | bool depth b => rw [doc, Doc.value?]
  | natural depth hn => rw [doc, Doc.value?, Number.ofChars?_natural hn, Option.map_some]
  | negative depth hpos hn =>
    rw [doc, Doc.value?, Number.ofChars?_negative hpos hn, Option.map_some]
  | text depth s => rw [doc, Doc.value?, Spelled.string?_ofText, Option.map_some]
  | @list depth items _ ih =>
    have hitems : (items.map doc).mapM (Doc.value? (depth + 1)) = some items :=
      mapM_eq_some.mpr (List.forall₂_map_left_iff.mpr (List.forall₂_same.mpr ih))
    rw [doc, docItems_eq_map, Doc.value?, hitems, Option.map_some]
  | @object depth members hsorted _ ih =>
    have hmembers : ((members.map fun m => (Spelled.ofText m.1, m.2.doc)).mapM fun m =>
        (Spelled.string? m.1).bind fun key =>
          (Doc.value? (depth + 1) m.2).map (key, ·)) = some members := by
      refine mapM_eq_some.mpr (List.forall₂_map_left_iff.mpr (List.forall₂_same.mpr fun m hm => ?_))
      rw [Spelled.string?_ofText, Option.bind_some, ih m hm, Option.map_some]
    rw [doc, docMembers_eq_map, Doc.value?, hmembers, Option.map_some, record_of_sorted hsorted]

/-- A value is read back from every text of its document. -/
theorem Fits.parse {v : Value} (h : v.Fits maxDepth) {text : String} (htext : v.doc.IsOf text) :
    Reader.value.parse text = .ok v :=
  (Reader.parse_eq_ok_iff (Reader.understands_value maxDepth) htext).mpr h.value?_doc

end Value

end CertRegistry.Json
