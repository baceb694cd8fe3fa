import CertRegistry.Text.Blank
import Mathlib.Data.List.TakeWhile

/-!
# Texts between blanks

What is left of a text without the blanks at its ends, told by what stands where.
-/

namespace CertRegistry.Text

section Ends

variable {p : Char → Bool} {front back : List Char}

theorem dropEndWhile_append (hback : ∀ c ∈ back, p c = true)
    (hlast : ∀ c, front.getLast? = some c → p c = false) :
    dropEndWhile p (front ++ back) = front := by
  rw [dropEndWhile, List.reverse_append, List.dropWhile_append_of_pos (by simpa using hback)]
  rcases List.eq_nil_or_concat front with rfl | ⟨init, last, rfl⟩
  · rfl
  · rw [List.concat_eq_append, List.reverse_append, List.reverse_singleton, List.singleton_append,
      List.dropWhile_cons_of_neg (by simp [hlast last (by simp)])]
    simp

theorem dropEndWhile_eq_self (hlast : ∀ c, front.getLast? = some c → p c = false) :
    dropEndWhile p front = front := by
  have h : dropEndWhile p (front ++ []) = front := dropEndWhile_append (by simp) hlast
  rwa [List.append_nil] at h

theorem exists_dropEndWhile (p : Char → Bool) (cs : List Char) :
    ∃ back, cs = dropEndWhile p cs ++ back ∧ ∀ c ∈ back, p c = true := by
  refine ⟨(cs.reverse.takeWhile p).reverse, ?_, fun c hc => ?_⟩
  · rw [dropEndWhile, ← List.reverse_append, List.takeWhile_append_dropWhile, List.reverse_reverse]
  · exact List.mem_takeWhile_imp (List.mem_reverse.mp hc)

theorem head?_dropWhile (p : Char → Bool) (cs : List Char) :
    ∀ c, (cs.dropWhile p).head? = some c → p c = false := by
  intro c hc
  simpa [hc] using List.head?_dropWhile_not p cs

theorem getLast?_dropEndWhile (p : Char → Bool) (cs : List Char) :
    ∀ c, (dropEndWhile p cs).getLast? = some c → p c = false := by
  intro c hc
  rw [dropEndWhile, List.getLast?_reverse] at hc
  exact head?_dropWhile p _ c hc

end Ends

/-- Whether a text is another one with blanks around it. -/
structure IsInside (inner s : String) : Prop where
  between : ∃ front back, s.toList = front ++ inner.toList ++ back ∧
    (∀ c ∈ front, isBlank c = true) ∧ ∀ c ∈ back, isBlank c = true
  head : ∀ c, inner.toList.head? = some c → isBlank c = false
  last : ∀ c, inner.toList.getLast? = some c → isBlank c = false

theorem trim_eq_iff {s inner : String} : trim s = inner ↔ IsInside inner s := by
  constructor
  · rintro rfl
    obtain ⟨back, hsplit, hback⟩ := exists_dropEndWhile isBlank (s.toList.dropWhile isBlank)
    constructor
    · refine ⟨s.toList.takeWhile isBlank, back, ?_, fun c hc => List.mem_takeWhile_imp hc, hback⟩
      rw [trim, String.toList_ofList, List.append_assoc, ← hsplit, List.takeWhile_append_dropWhile]
    · intro c hc
      rw [trim, String.toList_ofList] at hc
      refine head?_dropWhile isBlank s.toList c ?_
      rw [hsplit, List.head?_append, hc]
      rfl
    · intro c hc
      rw [trim, String.toList_ofList] at hc
      exact getLast?_dropEndWhile isBlank _ c hc
  · rintro ⟨⟨front, back, hsplit, hfront, hback⟩, hhead, hlast⟩
    have hdrop : s.toList.dropWhile isBlank = (inner.toList ++ back).dropWhile isBlank := by
      rw [hsplit, List.append_assoc, List.dropWhile_append_of_pos hfront]
    have hinner : dropEndWhile isBlank ((inner.toList ++ back).dropWhile isBlank) =
        inner.toList := by
      cases hcs : inner.toList with
      | nil =>
        rw [List.nil_append, List.dropWhile_eq_nil_iff.mpr hback]
        rfl
      | cons c cs =>
        have hc : isBlank c = false := hhead c (by rw [hcs]; rfl)
        rw [List.cons_append, List.dropWhile_cons_of_neg (by simp [hc]), ← List.cons_append]
        exact dropEndWhile_append hback (hcs ▸ hlast)
    rw [trim, hdrop, hinner, String.ofList_toList]

end CertRegistry.Text
