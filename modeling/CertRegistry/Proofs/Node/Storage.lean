import CertRegistry.Node.Memory

/-!
# The storage of a node

Entries stand in the order of their addresses, one for each address. To put an entry changes what
is stored under its address and nothing else.
-/

namespace CertRegistry.Ledger

/-- Entries in the order of their addresses, no address twice. -/
def Ordered (state : List (String × Bytes)) : Prop := state.Pairwise fun e e' => e.1 < e'.1

variable {state : List (String × Bytes)}

theorem eq_or_mem_of_mem_put {address : String} {data : Bytes} {entry : String × Bytes}
    (h : entry ∈ put address data state) : entry = (address, data) ∨ entry ∈ state := by
  induction state with
  | nil => simpa [put] using h
  | cons first rest ih =>
    obtain ⟨a, d⟩ := first
    simp only [put] at h
    split at h
    · rcases List.mem_cons.mp h with h | h
      · exact Or.inl h
      · exact Or.inr (List.mem_cons_of_mem _ h)
    · split at h
      · exact List.mem_cons.mp h
      · rcases List.mem_cons.mp h with h | h
        · exact Or.inr (h ▸ List.mem_cons_self)
        · exact (ih h).imp_right (List.mem_cons_of_mem _)

theorem Ordered.put (h : Ordered state) (address : String) (data : Bytes) :
    Ordered (put address data state) := by
  induction state with
  | nil => exact List.pairwise_singleton _ _
  | cons first rest ih =>
    obtain ⟨a, d⟩ := first
    obtain ⟨hfirst, hrest⟩ := List.pairwise_cons.mp h
    simp only [Ledger.put]
    split
    · next heq =>
      subst heq
      exact List.pairwise_cons.mpr ⟨hfirst, hrest⟩
    · next hne =>
      split
      · next hlt =>
        refine List.pairwise_cons.mpr ⟨?_, h⟩
        intro entry hentry
        rcases List.mem_cons.mp hentry with rfl | hentry
        · exact hlt
        · exact String.lt_trans hlt (hfirst entry hentry)
      · next hge =>
        refine List.pairwise_cons.mpr ⟨?_, ih hrest⟩
        intro entry hentry
        rcases eq_or_mem_of_mem_put hentry with rfl | hentry
        · -- The address is neither the first one nor before it.
          refine String.not_le.mp fun hle => hne ?_
          exact String.le_antisymm hle (String.not_lt.mp hge)
        · exact hfirst entry hentry

theorem lookup_entry (address : String) (data : Bytes) (other : String) :
    ((address, data) :: state).lookup other =
      if other = address then some data else state.lookup other := by
  rw [List.lookup_cons]
  by_cases h : other = address
  · simp [h]
  · simp [h, beq_eq_false_iff_ne.mpr h]

theorem lookup_put (address : String) (data : Bytes) (other : String) :
    (put address data state).lookup other =
      if other = address then some data else state.lookup other := by
  induction state with
  | nil => rw [put, lookup_entry]
  | cons first rest ih =>
    obtain ⟨a, d⟩ := first
    simp only [put]
    split
    · next heq =>
      subst heq
      simp only [lookup_entry]
      split <;> rfl
    · next hne =>
      split
      · rw [lookup_entry]
      · simp only [lookup_entry, ih]
        split
        · next ha =>
          rw [if_neg (by rw [ha]; exact Ne.symm hne)]
        · rfl

theorem Ordered.lookup_eq_some_iff (h : Ordered state) {address : String} {data : Bytes} :
    state.lookup address = some data ↔ (address, data) ∈ state := by
  induction state with
  | nil => simp
  | cons first rest ih =>
    obtain ⟨a, d⟩ := first
    obtain ⟨hfirst, hrest⟩ := List.pairwise_cons.mp h
    rw [lookup_entry]
    split
    · next heq =>
      subst heq
      simp only [Option.some.injEq, List.mem_cons, Prod.mk.injEq, true_and]
      constructor
      · exact fun hd => Or.inl hd.symm
      · rintro (hd | hmem)
        · exact hd.symm
        · exact absurd (hfirst _ hmem) (String.lt_irrefl _)
    · next hne => simp [ih hrest, hne]

/-- At most one entry has the address. -/
theorem Ordered.filter_address (h : Ordered state) (address : String) :
    (state.filter fun entry => entry.1 = address) =
      (state.lookup address).toList.map fun data => (address, data) := by
  induction state with
  | nil => rfl
  | cons first rest ih =>
    obtain ⟨a, d⟩ := first
    obtain ⟨hfirst, hrest⟩ := List.pairwise_cons.mp h
    rw [lookup_entry]
    by_cases heq : address = a
    · have hnone : (rest.filter fun entry => entry.1 = address) = [] := by
        rw [List.filter_eq_nil_iff]
        intro entry hentry
        have hlt := hfirst entry hentry
        rw [decide_eq_true_eq]
        intro heq'
        rw [heq', heq] at hlt
        exact String.lt_irrefl _ hlt
      rw [if_pos heq, List.filter_cons_of_pos (by simp [heq]), hnone, heq]
      rfl
    · rw [if_neg heq, List.filter_cons_of_neg (by simpa using Ne.symm heq), ih hrest]

end CertRegistry.Ledger
