/-!
# Runs of characters

A set of characters is kept as the first and last code points of the runs that it consists of.
-/

namespace CertRegistry.Text

abbrev Runs := Array (Nat × Nat)

namespace Runs

/-- Whether a character lies in one of the runs. -/
def contains (runs : Runs) (c : Char) : Bool :=
  runs.any fun (first, last) => first ≤ c.toNat && c.toNat ≤ last

theorem contains_iff {runs : Runs} {c : Char} :
    runs.contains c = true ↔ ∃ run ∈ runs, run.1 ≤ c.toNat ∧ c.toNat ≤ run.2 := by
  simp only [contains, Array.any_eq_true', Bool.and_eq_true, decide_eq_true_eq]

end Runs

end CertRegistry.Text
