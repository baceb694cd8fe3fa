import CertRegistry.Curve.Nonce
import CertRegistry.Proofs.Bytes.HexReading
import Mathlib.Data.Finset.Card

/-!
# How a factor is drawn

Draws go through the states of a source one after the other, and there are only so many of these.
What has not been found by the time when each could have come up is never found, so that a draw with
as many steps as there are states is one without end.
-/

namespace CertRegistry

/-- So many octets spell a number below this power. -/
theorem Bytes.toNat_lt (bs : Bytes) : toNat bs < Nat.pow 256 bs.length := by
  have hmod := toNat_ofNat bs.length (toNat bs)
  rw [ofNat_toNat] at hmod
  rw [hmod]
  exact Nat.mod_lt _ (Nat.pow_pos (by decide))

theorem Bytes.eq_of_toNat_eq {bs cs : Bytes} (hlength : bs.length = cs.length)
    (h : toNat bs = toNat cs) : bs = cs := by
  rw [← ofNat_toNat bs, hlength, h, ofNat_toNat]

namespace Curve.Nonce.Source

variable {α : Type} {f : Scalar → Option α} {g : Source} {count : Nat} {a : α}

/-! ## States that come round again -/

/-- The octets of a state as a number. -/
def code (g : Source) : Nat := Bytes.toNat (g.key ++ g.value)

theorem length_octets (g : Source) : (g.key ++ g.value).length = 64 := by
  rw [List.length_append, g.length_key, g.length_value]

theorem code_lt (g : Source) : g.code < stateCount := by
  have hlt := Bytes.toNat_lt (g.key ++ g.value)
  rw [length_octets] at hlt
  exact hlt

theorem code_injective : Function.Injective code := by
  intro g g' h
  have hoctets := Bytes.eq_of_toNat_eq ((length_octets g).trans (length_octets g').symm) h
  obtain ⟨hkey, hvalue⟩ := List.append_inj hoctets (g.length_key.trans g'.length_key.symm)
  exact Source.ext hkey hvalue

/-- A state that comes late has been there before. -/
theorem exists_iterate_eq (g : Source) {i : Nat} (h : stateCount ≤ i) :
    ∃ j < i, next^[j] g = next^[i] g := by
  have hcard : (Finset.range stateCount).card < (Finset.range (i + 1)).card := by
    rw [Finset.card_range, Finset.card_range]
    exact Nat.lt_succ_of_le h
  obtain ⟨x, hx, y, hy, hne, hcode⟩ := Finset.exists_ne_map_eq_of_card_lt_of_maps_to hcard
    (f := fun k => (next^[k] g).code)
    fun k _ => Finset.mem_coe.mpr (Finset.mem_range.mpr (code_lt _))
  have hagain : ∀ {p q : Nat}, p < q → q ≤ i → next^[p] g = next^[q] g →
      ∃ j < i, next^[j] g = next^[i] g := by
    intro p q hlt hle heq
    refine ⟨i - q + p, by omega, ?_⟩
    rw [Function.iterate_add_apply, heq, ← Function.iterate_add_apply, Nat.sub_add_cancel hle]
  have hstate := code_injective hcode
  rw [Finset.mem_range] at hx hy
  rcases Nat.lt_or_gt_of_ne hne with hlt | hgt
  · exact hagain hlt (Nat.le_of_lt_succ hy) hstate
  · exact hagain hgt (Nat.le_of_lt_succ hx) hstate.symm

/-! ## What is found -/

/-- What is found is the answer on the first state that has one. -/
theorem findSome?_eq_some_iff : g.findSome? f count = some a ↔
    ∃ i < count, (next^[i] g).answer? f = some a ∧ ∀ j < i, (next^[j] g).answer? f = none := by
  induction count generalizing g with
  | zero => simp [findSome?]
  | succ count ih =>
    rw [findSome?]
    cases hanswer : g.answer? f with
    | some b =>
      constructor
      · intro hb
        exact ⟨0, Nat.succ_pos count, hanswer.trans hb, by simp⟩
      · rintro ⟨i, -, hi, hnone⟩
        cases i with
        | zero => exact hanswer.symm.trans hi
        | succ i =>
          have hfirst := hnone 0 (Nat.succ_pos i)
          rw [Function.iterate_zero_apply, hanswer] at hfirst
          cases hfirst
    | none =>
      rw [ih]
      constructor
      · rintro ⟨i, hlt, hi, hnone⟩
        refine ⟨i + 1, Nat.succ_lt_succ hlt, hi, fun j hj => ?_⟩
        cases j with
        | zero => exact hanswer
        | succ j => exact hnone j (Nat.lt_of_succ_lt_succ hj)
      · rintro ⟨i, hlt, hi, hnone⟩
        cases i with
        | zero =>
          rw [Function.iterate_zero_apply, hanswer] at hi
          cases hi
        | succ i =>
          exact ⟨i, Nat.lt_of_succ_lt_succ hlt, hi, fun j hj => hnone (j + 1) (Nat.succ_lt_succ hj)⟩

/-- What any number of draws finds is found by as many as there are states. -/
theorem findSome?_stateCount (h : g.findSome? f count = some a) :
    g.findSome? f stateCount = some a := by
  obtain ⟨i, -, hi, hnone⟩ := findSome?_eq_some_iff.mp h
  refine findSome?_eq_some_iff.mpr ⟨i, ?_, hi, hnone⟩
  by_contra hlate
  obtain ⟨j, hlt, heq⟩ := exists_iterate_eq g (Nat.le_of_not_lt hlate)
  have hearlier := hnone j hlt
  rw [heq, hi] at hearlier
  cases hearlier

theorem exists_of_findSome? (h : g.findSome? f count = some a) : ∃ nonce, f nonce = some a := by
  obtain ⟨i, -, hi, -⟩ := findSome?_eq_some_iff.mp h
  obtain ⟨nonce, -, hnonce⟩ := Option.bind_eq_some_iff.mp hi
  exact ⟨nonce, hnonce⟩

end Curve.Nonce.Source

end CertRegistry
