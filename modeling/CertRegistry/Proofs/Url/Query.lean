import CertRegistry.Proofs.Url.Extension

/-!
# Queries that are written as they are

What becomes of a text that is put into a query without a look at it. Tabs and line ends are left
out, a mark of a fragment ends the query, and of the other characters those are escaped that a query
cannot hold. Nothing is done about the signs that keep parameters apart.
-/

namespace CertRegistry.Url

/-- A text as a query holds it. -/
def escaped (cs : List Char) : List Char := Percent.encode Percent.inWebQuery (unbroken cs)

/-- The query that a text behind its mark starts with. -/
def queryOf (cs : List Char) : List Char :=
  Percent.encode Percent.inWebQuery ((unbroken cs).takeWhile (· ≠ '#'))

variable {cs path more : List Char} {c : Char}

/-! ## Escaped texts -/

theorem unbroken_append (cs ds : List Char) : unbroken (cs ++ ds) = unbroken cs ++ unbroken ds :=
  List.filter_append cs ds

theorem escaped_append (cs ds : List Char) : escaped (cs ++ ds) = escaped cs ++ escaped ds := by
  simp only [escaped, unbroken_append, Percent.encode_append]

theorem escaped_eq_self (h : ∀ c ∈ cs, IsPlain c) : escaped cs = cs := by
  rw [escaped, unbroken_eq_self fun c hc => (h c hc).visible.1, Percent.encode_eq_self h]

theorem escaped_intercalate {sep : List Char} (hsep : ∀ c ∈ sep, IsPlain c)
    (parts : List (List Char)) :
    escaped (sep.intercalate parts) = sep.intercalate (parts.map escaped) := by
  induction parts with
  | nil => rfl
  | cons part parts ih =>
    cases parts with
    | nil => simp only [List.map_cons, List.map_nil, List.intercalate_singleton]
    | cons next parts =>
      rw [List.map_cons, List.map_cons, List.intercalate_cons_cons, List.intercalate_cons_cons,
        escaped_append, escaped_append, escaped_eq_self hsep, ih, List.map_cons]

theorem isPlain_of_mem_encode (h : c ∈ Percent.encode Percent.inWebQuery cs) : IsPlain c := by
  rcases Percent.of_mem_encode h with ⟨-, hplain⟩ | rfl | hdigit
  · exact hplain
  · decide
  · exact Hex.forall_isAnyDigit (p := IsPlain) (by decide) c hdigit

theorem mem_of_mem_escaped (h : c ∈ escaped cs) (hc : c ≠ '%' ∧ ¬ Hex.IsAnyDigit c) : c ∈ cs :=
  List.mem_of_mem_filter (Percent.mem_of_mem_encode h hc)

/-- Without the mark of a fragment all of a text belongs to the query. -/
theorem queryOf_eq_escaped (h : '#' ∉ cs) : queryOf cs = escaped cs := by
  have hall : (unbroken cs).takeWhile (· ≠ '#') = unbroken cs := by
    rw [List.takeWhile_eq_self_iff]
    intro c hc
    refine decide_eq_true ?_
    rintro rfl
    exact h (List.mem_of_mem_filter hc)
  rw [queryOf, hall, escaped]

/-! ## Reading -/

/-- A query and a fragment behind a path leave it as it is. -/
theorem readPath_query (url : Url) (hpath : ∀ c ∈ path, startsTail c = false)
    (more : List Char) : ∃ fragment,
    readPath url .web (path ++ '?' :: more) =
      { readPath url .web path with
        query := some (Percent.encode Percent.inWebQuery (more.takeWhile (· ≠ '#')))
        fragment } := by
  have hspan : (path ++ '?' :: more).span (!startsTail ·) = (path, '?' :: more) := by
    refine span_append (fun c hc => by simp [hpath c hc]) fun c hc => ?_
    cases hc
    rfl
  have htail : ('?' :: more).span (· ≠ '#') =
      ('?' :: more.takeWhile (· ≠ '#'), more.dropWhile (· ≠ '#')) := by
    rw [List.span_eq_takeWhile_dropWhile]
    rfl
  rw [readPath_page url hpath]
  unfold readPath withTail
  rw [hspan]
  simp only [htail, reduceCtorEq, false_and, if_false]
  exact ⟨_, rfl⟩

end CertRegistry.Url
