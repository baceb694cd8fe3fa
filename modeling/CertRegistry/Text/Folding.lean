import CertRegistry.Text.Folding.Capitals
import CertRegistry.Text.Folding.Forms
import CertRegistry.Text.Folding.Ideographs

/-!
# Folding

What a character is taken for when texts are compared without regard to case and form.
-/

namespace CertRegistry.Text

/-- The first one of each run of forms, and what those in the run stand for. -/
def formRows : Array (Nat × Array (List Char)) :=
  ((singleRows ++ ideographRows).map fun (first, images) =>
      (first, (images.toList.map fun c => [c]).toArray)) ++
    compoundRows.map fun (first, images) => (first, (images.toList.splitOn ' ').toArray)

/-- What a form stands for. -/
def form? (c : Char) : Option (List Char) :=
  let n := c.toNat
  match shiftedRuns.find? fun (first, last, _) => first ≤ n && n ≤ last with
  | some (first, _, image) => some [Char.ofNat (image + (n - first))]
  | none =>
    formRows.findSome? fun (first, images) => if first ≤ n then images[n - first]? else none

/-- What a character stands for: a small letter, or a few characters without a special form. -/
def fold (c : Char) : List Char :=
  match smallLetter? c with
  | some d => [d]
  | none => if c.toNat < 0x80 then [c] else (form? c).getD [c]

/-- Whether a character stands for a blank, or for text with a blank. -/
def standsForBlank (c : Char) : Bool := blankRuns.contains c

end CertRegistry.Text
