import CertRegistry.Text.CombiningClass
import CertRegistry.Text.Composition
import CertRegistry.Text.Direction
import CertRegistry.Text.Joining
import CertRegistry.Url.Punycode

/-!
# Labels

A label is a part of a domain name between dots. One with characters beyond ASCII is written in
Punycode behind `xn--`. Marks, joiners and the direction of writing are restricted, so that a name
can be told from others when it is read.
-/

namespace CertRegistry.Url

/-- A label: the characters that it is compared by, and how it is sent. -/
structure Label where
  text : List Char
  written : List Char
  deriving DecidableEq, Repr

namespace Label

/-- The character that keeps letters apart which would join. -/
def nonJoiner : Char := '\u200c'

/-- The character that makes letters join. -/
def joiner : Char := '\u200d'

/-- Whether a joiner may stand at a place: behind a mark that takes the vowel from a letter, or, if
it keeps letters apart, where they would join. The text before it is given backwards. -/
def mayJoin (c : Char) (before after : List Char) : Bool :=
  before.head?.any (Text.combiningClass · = Text.viramaClass) ||
    (c = nonJoiner && Text.isJoined before after)

/-- Whether all joiners stand where they may. The text before the rest of the label is given
backwards. -/
def joinersFit (before : List Char) : List Char → Bool
  | [] => true
  | c :: rest =>
    ((c ≠ nonJoiner && c ≠ joiner) || mayJoin c before rest) && joinersFit (c :: before) rest

/-- Whether a label can be told from others: it does not start with a mark, which would attach to
the dot before it, and joiners in it have an effect. -/
def isDistinct (cs : List Char) : Bool := !cs.head?.any Text.isMark && joinersFit [] cs

/-- The most characters of a label that is written in Punycode, and the most that stand for one. -/
def longestText : Nat := 1000
def longestPunycode : Nat := 2000

/-- The label that is compared by a text. -/
def ofText? (cs : List Char) : Option Label :=
  if Text.isAscii cs then some ⟨cs, cs⟩
  else if isDistinct cs && cs.length ≤ longestText then
    some ⟨cs, ['x', 'n', '-', '-'] ++ Punycode.encode cs⟩
  else none

/-- The label that is written in Punycode. Text that needs none cannot be written that way. -/
def ofPunycode? (cs : List Char) : Option Label := do
  let text ← if cs.length ≤ longestPunycode then Punycode.decode? cs else none
  if Text.isAscii text || !isDistinct text then none
  else return ⟨text, ['x', 'n', '-', '-'] ++ cs⟩

/-- The direction of the first letter, which is that of the label. -/
def direction? (label : Label) : Option Text.Direction := (label.text.map .of).head?

/-- The directions of the characters that a label can end with. -/
def endings : Text.Direction → List Text.Direction
  | .leftToRight => [.leftToRight, .europeanDigit]
  | .rightToLeft => [.rightToLeft, .arabicDigit, .europeanDigit]
  | _ => []

/-- Whether a label keeps its place beside others that are written from right to left: it starts
with a letter, ends, marks apart, with a letter or a digit, and does not mix directions or kinds of
digits. -/
def keepsPlace (label : Label) : Bool :=
  let directions := label.text.map Text.Direction.of
  match directions with
  | [] => true
  | first :: _ =>
    let last? := (directions.reverse.dropWhile (· = .mark)).head?
    last?.any (endings first).contains &&
      if first = .leftToRight then !directions.any (· ∈ [.rightToLeft, .arabicDigit])
      else
        !directions.contains .leftToRight &&
          !(directions.contains .arabicDigit && directions.contains .europeanDigit)

/-- Whether a label has characters that are written from right to left. -/
def runsLeft (label : Label) : Bool :=
  label.text.any fun c => Text.Direction.of c ∈ [.rightToLeft, .arabicDigit]

/-- Whether the labels of a name can be read in their order. -/
def areReadable (labels : List Label) : Bool :=
  !labels.any (·.runsLeft) || labels.all (·.keepsPlace)

end Label

end CertRegistry.Url
