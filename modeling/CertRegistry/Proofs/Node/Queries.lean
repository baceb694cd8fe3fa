import CertRegistry.Proofs.Node.Requests
import CertRegistry.Proofs.Url.Query

/-!
# Queries for the statuses of batches

Ids of batches are put into a query as they are, with commas between them. Whether the node gets
back what was asked for is a matter of what the ids are made of.
-/

namespace CertRegistry.Ledger

open Url

/-- The batches that a query asks about. -/
def asked? (query : List Char) : Option (List String) :=
  (parameter? query "id").map fun ids => (ids.toList.splitOn ',').map String.ofList

/-- Whether a node that takes a query apart finds these ids and this wait in it. -/
structure Lists (query : List Char) (ids : List String) (wait : Nat) : Prop where
  ids : asked? query = some ids
  wait : parameter? query "wait" = some (toString wait)

/-- An id as a query holds it. -/
def escapedId (id : String) : String := String.ofList (escaped id.toList)

/-- The query that the ids of batches and a wait are put into. -/
def batchQuery (ids : List String) (wait : Nat) : List Char :=
  statusQuery (String.intercalate "," ids) wait

variable {query part cs : List Char} {name value : String} {ids : List String} {wait : Nat}

/-! ## What a node finds -/

/-- A part of a list is free of what the list is split at, and has only what the list has. -/
theorem of_mem_splitOn {sep : Char} (h : part ∈ cs.splitOn sep) : sep ∉ part ∧ part ⊆ cs := by
  induction cs generalizing part with
  | nil =>
    rw [List.splitOn_nil, List.mem_singleton] at h
    subst h
    exact ⟨List.not_mem_nil, List.Subset.refl _⟩
  | cons c cs ih =>
    obtain ⟨first, rest, hsplit⟩ := List.exists_cons_of_ne_nil (List.splitOn_ne_nil sep cs)
    rw [List.splitOn_cons_eq_if_modifyHead, hsplit, List.modifyHead_cons] at h
    rw [hsplit] at ih
    by_cases hc : c = sep
    · rw [if_pos (by simpa using hc)] at h
      rcases List.mem_cons.mp h with rfl | h
      · exact ⟨List.not_mem_nil, List.nil_subset _⟩
      · exact ⟨(ih h).1, List.subset_cons_of_subset _ (ih h).2⟩
    · rw [if_neg (by simpa using hc)] at h
      rcases List.mem_cons.mp h with rfl | h
      · have hfirst := ih List.mem_cons_self
        exact ⟨List.not_mem_cons_of_ne_of_not_mem (Ne.symm hc) hfirst.1,
          List.cons_subset_cons _ hfirst.2⟩
      · have hrest := ih (List.mem_cons_of_mem _ h)
        exact ⟨hrest.1, List.subset_cons_of_subset _ hrest.2⟩

/-- The value of a parameter is a part of the query. -/
theorem of_mem_parameters (h : (name, value) ∈ parameters query) :
    '&' ∉ value.toList ∧ value.toList ⊆ query := by
  obtain ⟨part, hpart, h⟩ := List.mem_filterMap.mp h
  obtain ⟨hfree, hsubset⟩ := of_mem_splitOn hpart
  split at h
  next front mark rest hspan =>
    obtain ⟨rfl, -⟩ := of_span hspan
    cases h
    have hrest : rest ⊆ front ++ mark :: rest := fun c hc => by simp [hc]
    rw [String.toList_ofList]
    exact ⟨fun hmem => hfree (hrest hmem), List.Subset.trans hrest hsubset⟩
  next => cases h

theorem of_parameter? (h : parameter? query name = some value) :
    '&' ∉ value.toList ∧ value.toList ⊆ query := by
  obtain ⟨before, after, hparts, -⟩ := List.lookup_eq_some_iff.mp h
  have hmem : (name, value) ∈ (parameters query).reverse := by
    rw [hparts]
    exact List.mem_append_right _ List.mem_cons_self
  exact of_mem_parameters (List.mem_reverse.mp hmem)

/-- The ids that a node finds are made of what the query has, and of nothing that keeps ids or
parameters apart. -/
theorem of_asked? (h : asked? query = some ids) :
    ∀ id ∈ ids, ∀ c ∈ id.toList, c ∈ query ∧ c ≠ '&' ∧ c ≠ ',' := by
  obtain ⟨value, hvalue, rfl⟩ := Option.map_eq_some_iff.mp h
  obtain ⟨hfree, hsubset⟩ := of_parameter? hvalue
  intro id hid c hc
  obtain ⟨part, hpart, rfl⟩ := List.mem_map.mp hid
  obtain ⟨hcomma, hmem⟩ := of_mem_splitOn hpart
  rw [String.toList_ofList] at hc
  refine ⟨hsubset (hmem hc), ?_, ?_⟩
  · rintro rfl
    exact hfree (hmem hc)
  · rintro rfl
    exact hcomma hc

/-! ## What is put into a query -/

theorem mem_intercalate {sep c : Char} {parts : List (List Char)} (hc : c ≠ sep)
    (h : c ∈ [sep].intercalate parts) : ∃ part ∈ parts, c ∈ part := by
  induction parts with
  | nil => cases h
  | cons part parts ih =>
    cases parts with
    | nil =>
      rw [List.intercalate_singleton] at h
      exact ⟨part, List.mem_singleton_self part, h⟩
    | cons next parts =>
      rw [List.intercalate_cons_cons, List.mem_append, List.mem_append, List.mem_singleton] at h
      rcases h with (h | h) | h
      · exact ⟨part, List.mem_cons_self, h⟩
      · exact absurd h hc
      · obtain ⟨other, hother, h⟩ := ih h
        exact ⟨other, List.mem_cons_of_mem _ hother, h⟩

theorem toList_intercalate (ids : List String) :
    (String.intercalate "," ids).toList = [','].intercalate (ids.map String.toList) :=
  String.toList_intercalate

/-- What no id has, the ids in a row do not have. -/
theorem not_mem_toList_intercalate {c : Char} (hc : c ≠ ',') (h : ∀ id ∈ ids, c ∉ id.toList) :
    c ∉ (String.intercalate "," ids).toList := by
  intro hmem
  rw [toList_intercalate] at hmem
  obtain ⟨part, hpart, hmem⟩ := mem_intercalate hc hmem
  obtain ⟨id, hid, rfl⟩ := List.mem_map.mp hpart
  exact h id hid hmem

theorem toList_escapedId (id : String) : (escapedId id).toList = escaped id.toList :=
  String.toList_ofList

theorem escapedId_intercalate (ids : List String) :
    escapedId (String.intercalate "," ids) = String.intercalate "," (ids.map escapedId) := by
  have hcomma : ∀ c ∈ [','], IsPlain c := by simp only [List.forall_mem_singleton]; decide
  rw [← String.toList_inj, toList_escapedId, toList_intercalate, escaped_intercalate hcomma,
    toList_intercalate, List.map_map, List.map_map]
  simp only [Function.comp_def, toList_escapedId]

theorem escaped_statusQuery (id : String) (wait : Nat) :
    escaped (statusQuery id wait) = statusQuery (escapedId id) wait := by
  have hfirst : ∀ c ∈ "id=".toList, IsPlain c := forall_mem_of_all (by decide)
  have hsecond : ∀ c ∈ "&wait=".toList, IsPlain c := forall_mem_of_all (by decide)
  have hdigits : ∀ c ∈ (toString wait).toList, IsPlain c :=
    fun c hc => isPlain_of_isAnyDigit c (isAnyDigit_toString wait c hc)
  rw [statusQuery_eq, statusQuery_eq, escaped_append, escaped_append, escaped_append,
    escaped_eq_self hfirst, escaped_eq_self hsecond, escaped_eq_self hdigits, toList_escapedId]

/-- Ids that start no fragment are put into the query one by one. -/
theorem queryOf_batchQuery (h : ∀ id ∈ ids, '#' ∉ id.toList) :
    queryOf (batchQuery ids wait) = batchQuery (ids.map escapedId) wait := by
  have hmark : '#' ∉ batchQuery ids wait := by
    have hids := not_mem_toList_intercalate (by decide) h
    have hwait := not_mem_of_isAnyDigit (isAnyDigit_toString wait) (d := '#') (by decide)
    rw [batchQuery, statusQuery_eq]
    simp only [List.mem_append, not_or]
    exact ⟨⟨by decide, hids⟩, by decide, hwait⟩
  rw [queryOf_eq_escaped hmark, batchQuery, escaped_statusQuery, escapedId_intercalate, batchQuery]

theorem not_mem_escapedId {id : String} {c : Char} (h : c ∉ id.toList)
    (hc : c ≠ '%' ∧ ¬ Hex.IsAnyDigit c) : c ∉ (escapedId id).toList := by
  rw [toList_escapedId]
  exact fun hmem => h (mem_of_mem_escaped hmem hc)

/-- Who resolves the escapes in an id gets it back, without tabs and line ends. -/
theorem decode_escapedId {id : String} (h : '%' ∉ id.toList) :
    Percent.decode (Bytes.ofText (escapedId id)) =
      Bytes.ofText (String.ofList (unbroken id.toList)) :=
  Percent.decode_encode _ fun hmem => h (List.mem_of_mem_filter hmem)

/-- Ids that start neither a fragment nor a parameter leave the parameters as they are meant. -/
theorem parameters_batchQuery (wait : Nat) (hmark : ∀ id ∈ ids, '#' ∉ id.toList)
    (hand : ∀ id ∈ ids, '&' ∉ id.toList) : parameters (queryOf (batchQuery ids wait)) =
      [("id", String.intercalate "," (ids.map escapedId)), ("wait", toString wait)] := by
  rw [queryOf_batchQuery hmark, batchQuery, parameters_statusQuery]
  refine not_mem_toList_intercalate (by decide) ?_
  rw [List.forall_mem_map]
  exact fun id hid => not_mem_escapedId (hand id hid) (by decide)

/-- If they do not have commas either, each of them is seen as one id. -/
theorem lists_batchQuery (wait : Nat) (hne : ids ≠ []) (hmark : ∀ id ∈ ids, '#' ∉ id.toList)
    (hand : ∀ id ∈ ids, '&' ∉ id.toList) (hcomma : ∀ id ∈ ids, ',' ∉ id.toList) :
    Lists (queryOf (batchQuery ids wait)) (ids.map escapedId) wait := by
  have hparameters := parameters_batchQuery wait hmark hand
  have hsplit : (String.intercalate "," (ids.map escapedId)).toList.splitOn ',' =
      (ids.map escapedId).map String.toList := by
    rw [toList_intercalate]
    refine List.splitOn_intercalate _ ?_ (by simpa using hne)
    rw [List.forall_mem_map, List.forall_mem_map]
    exact fun id hid => not_mem_escapedId (hcomma id hid) (by decide)
  constructor
  · have hfound : parameter? (queryOf (batchQuery ids wait)) "id" =
        some (String.intercalate "," (ids.map escapedId)) := by
      rw [parameter?, hparameters]
      rfl
    rw [asked?, hfound, Option.map_some, hsplit, List.map_map]
    simp only [Function.comp_def, String.ofList_toList, List.map_id']
  · rw [parameter?, hparameters]
    rfl

/-- Whether an id stays what it is in a query. -/
def IsPlainId (id : String) : Prop := ∀ c ∈ id.toList, IsPlain c ∧ c ≠ '&' ∧ c ≠ ','

theorem IsPlainId.escapedId_eq {id : String} (h : IsPlainId id) : escapedId id = id := by
  rw [escapedId, escaped_eq_self fun c hc => (h c hc).1, String.ofList_toList]

/-- The node finds the ids that were meant if and only if each of them stays what it is. -/
theorem lists_batchQuery_iff (hne : ids ≠ []) :
    Lists (queryOf (batchQuery ids wait)) ids wait ↔ ∀ id ∈ ids, IsPlainId id := by
  constructor
  · intro h id hid c hc
    obtain ⟨hmem, hand, hcomma⟩ := of_asked? h.ids id hid c hc
    exact ⟨isPlain_of_mem_encode hmem, hand, hcomma⟩
  · intro h
    have hescaped : ids.map escapedId = ids :=
      (List.map_congr_left fun id hid => (h id hid).escapedId_eq).trans (List.map_id ids)
    have hlists := lists_batchQuery wait hne
      (fun id hid hmem => (h id hid _ hmem).1.visible.2 rfl)
      (fun id hid hmem => (h id hid _ hmem).2.1 rfl) fun id hid hmem => (h id hid _ hmem).2.2 rfl
    rwa [hescaped] at hlists

/-- How a query conveys ids and a wait to a node: as they are if and only if the ids stay what they
are, and without anything else as long as no id starts a fragment or a parameter. Ids that do not
stay what they are can be told by who resolves escapes. -/
structure Conveys (query : List Char) (ids : List String) (wait : Nat) : Prop where
  plain : Lists query ids wait ↔ ∀ id ∈ ids, IsPlainId id
  parameters : (∀ id ∈ ids, '#' ∉ id.toList) → (∀ id ∈ ids, '&' ∉ id.toList) →
    parameters query =
      [("id", String.intercalate "," (ids.map escapedId)), ("wait", toString wait)]
  apart : (∀ id ∈ ids, '#' ∉ id.toList) → (∀ id ∈ ids, '&' ∉ id.toList) →
    (∀ id ∈ ids, ',' ∉ id.toList) → Lists query (ids.map escapedId) wait
  resolved : ∀ id ∈ ids, '%' ∉ id.toList → Percent.decode (Bytes.ofText (escapedId id)) =
    Bytes.ofText (String.ofList (unbroken id.toList))

theorem conveys_batchQuery (hne : ids ≠ []) : Conveys (queryOf (batchQuery ids wait)) ids wait where
  plain := lists_batchQuery_iff hne
  parameters := parameters_batchQuery wait
  apart := lists_batchQuery wait hne
  resolved _ _ := decode_escapedId

end CertRegistry.Ledger
