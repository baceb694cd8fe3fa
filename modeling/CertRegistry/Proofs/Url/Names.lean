import CertRegistry.Url.Host

/-!
# Names of hosts in ASCII

Characters of ASCII are none that are written from right to left, so labels in ASCII can always be
read in their order, and the large tables of the directions of writing need not be looked at.
-/

namespace CertRegistry

theorem Text.Runs.contains_eq_false {runs : Runs} {c : Char} (h : ∀ run ∈ runs, 0x80 ≤ run.1)
    (hc : c.toNat < 0x80) : runs.contains c = false := by
  rw [Bool.eq_false_iff, ne_eq, contains_iff]
  rintro ⟨run, hrun, hfirst, -⟩
  have := h run hrun
  omega

theorem Text.Direction.of_of_lt {c : Char} (h : c.toNat < 0x80) :
    of c ≠ .rightToLeft ∧ of c ≠ .arabicDigit := by
  have hright : rightToLeftRuns.contains c = false := Runs.contains_eq_false (by decide) h
  have harabic : arabicDigitRuns.contains c = false := Runs.contains_eq_false (by decide) h
  simp only [of, hright, harabic, Bool.false_eq_true, if_false]
  constructor <;> repeat' split
  all_goals simp

namespace Url

theorem Label.areReadable_of_isAscii {labels : List Label}
    (h : ∀ label ∈ labels, Text.isAscii label.text = true) : areReadable labels = true := by
  have hnone : labels.any (·.runsLeft) = false := by
    rw [List.any_eq_false]
    intro label hlabel
    rw [Bool.not_eq_true, runsLeft, List.any_eq_false]
    intro c hc
    have hlt := of_decide_eq_true (List.all_eq_true.mp (h label hlabel) c hc)
    obtain ⟨hright, harabic⟩ := Text.Direction.of_of_lt hlt
    simp [hright, harabic]
  rw [areReadable, hnone]
  rfl

/-- The stages in which a domain name is read. -/
theorem Domain.toAscii?_eq_some {cs normal : List Char} {text : String} {labels : List Label}
    (htext : Bytes.text? (Percent.decode (Bytes.ofText (String.ofList cs))) = some text)
    (hnormal : normalize? text.toList = some normal)
    (hlabels : (normal.splitOn '.').mapM label? = some labels)
    (hreadable : Label.areReadable labels = true) :
    toAscii? cs = some (['.'].intercalate (labels.map (·.written))) := by
  unfold toAscii?
  simp only [htext, hnormal, hlabels, hreadable, bind, Option.bind, if_true]
  rfl

/-- A name that looks like a number is an address. -/
theorem Host.ofWeb_eq_ipv4 {cs domain : List Char} {address : Nat} (hopen : cs.head? ≠ some '[')
    (hdomain : Domain.toAscii? cs = some domain) (hne : domain ≠ [])
    (hnumeric : Ipv4.isNumeric domain = true) (hparse : Ipv4.parse? domain = some address) :
    ofWeb cs = .ok (.ipv4 address) := by
  unfold ofWeb
  split
  · exact absurd rfl hopen
  · rw [hdomain]
    cases domain with
    | nil => exact absurd rfl hne
    | cons c rest => simp only [hnumeric, hparse, if_true]

/-- A name that looks like no number stays a name. -/
theorem Host.ofWeb_eq_name {cs domain : List Char} (hopen : cs.head? ≠ some '[')
    (hdomain : Domain.toAscii? cs = some domain) (hne : domain ≠ [])
    (hnumeric : Ipv4.isNumeric domain = false) : ofWeb cs = .ok (.name domain) := by
  unfold ofWeb
  split
  · exact absurd rfl hopen
  · rw [hdomain]
    cases domain with
    | nil => exact absurd rfl hne
    | cons c rest => simp only [hnumeric, Bool.false_eq_true, if_false]

end Url

end CertRegistry
