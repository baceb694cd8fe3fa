import CertRegistry.Proofs.Json.Shape

/-!
# Values on one line are read back

A printed value stands between signs of its own, and what stands between them are the printed parts,
so readers of the shape find them.
-/

namespace CertRegistry.Json

/-! ## Members in order -/

section PutMember

variable {α : Type} {key k : String} {value v : α} {rest : List (String × α)}

theorem putMember_nil : putMember key value [] = [(key, value)] := rfl

theorem putMember_of_lt (h : key < k) :
    putMember key value ((k, v) :: rest) = (key, value) :: (k, v) :: rest := by
  have hne : key ≠ k := by
    rintro rfl
    exact String.lt_irrefl _ h
  rw [putMember, if_neg hne, if_pos h]

theorem putMember_of_gt (h : k < key) :
    putMember key value ((k, v) :: rest) = (k, v) :: putMember key value rest := by
  have hne : key ≠ k := by
    rintro rfl
    exact String.lt_irrefl _ h
  have hlt : ¬ key < k := fun hlt => String.lt_irrefl _ (String.lt_trans hlt h)
  rw [putMember, if_neg hne, if_neg hlt]

end PutMember

/-! ## Values on one line -/

theorem compactItems_eq_map (items : List Value) : compactItems items = items.map (·.compact) := by
  induction items with
  | nil => rfl
  | cons v items ih => rw [compactItems, ih, List.map_cons]

theorem compactMembers_eq_map (members : List (String × Value)) :
    compactMembers members = members.map fun m => textOf m.1 ++ ":" ++ m.2.compact := by
  induction members with
  | nil => rfl
  | cons m members ih => rw [compactMembers, ih, List.map_cons]

namespace Value

/-- The members of an object with the texts of their values. -/
def texts (members : List (String × Value)) : List (String × List Char) :=
  members.map fun m => (m.1, m.2.compact.toList)

theorem toList_compact_list (items : List Value) : (list items).compact.toList =
    '[' :: ([','].intercalate (items.map (·.compact.toList)) ++ [']']) := by
  simp [compact, compactItems_eq_map, String.toList_append, String.toList_intercalate,
    Function.comp_def]

theorem toList_compact_object (members : List (String × Value)) : (object members).compact.toList =
    '\x7b' :: ([','].intercalate ((texts members).map memberText) ++ ['\x7d']) := by
  simp [compact, compactMembers_eq_map, texts, memberText, String.toList_append,
    String.toList_intercalate, Function.comp_def]

theorem opens_object (members : List (String × Value)) : Opens (object members).compact.toList := by
  rw [toList_compact_object]
  exact ⟨_, _, rfl, Or.inr (Or.inr rfl)⟩

theorem reads_list {α : Type} {read : Reader α} {depth : Nat} {items : List Value} {as : List α}
    (h : List.Forall₂ (fun v a => Opens v.compact.toList ∧
      Reads (read (depth + 1)) v.compact.toList a) items as) :
    Reads (Reader.list read (depth + 2)) (list items).compact.toList as := by
  rw [toList_compact_list]
  exact Reader.reads_list (List.forall₂_map_left_iff.mpr h)

theorem reads_object {α : Type} {R : Record α} {depth : Nat} {members : List (String × Value)}
    {a : α} (h : R.Fills (depth + 1) [] R.blank (texts members) a) :
    Reads (R.reader (depth + 2)) (object members).compact.toList a := by
  rw [toList_compact_object]
  exact Record.reads_reader h

end Value

end CertRegistry.Json
