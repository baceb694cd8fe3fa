import CertRegistry.Log.Level
import CertRegistry.Log.Pattern
import CertRegistry.Text.Alphanumeric
import CertRegistry.Text.Blank

/-!
# Directives

A directive sets the most detailed level that passes, for the targets that begin with a given text
or for all of them. In brackets it may name a span and, in braces, a field with or without a value;
without a level it lets everything pass.

Blanks at either end do not matter for where the parts of a directive are found, but blanks before
it count when the parts are cut out of the text, each of which then begins too early.
-/

namespace CertRegistry.Log

/-- What a directive asks of a field. -/
structure Field where
  name : String
  /-- Whether the field has to have a certain value. -/
  hasValue : Bool := false
  deriving DecidableEq, Repr

namespace Field

/-- Whether a text is a number without its sign. -/
def isNumeral (cs : List Char) : Bool :=
  let digits (cs : List Char) : Bool := cs ≠ [] && cs.all Char.isDigit
  let isExponent (cs : List Char) : Bool := match cs with
    | [] => true
    | '+' :: rest | '-' :: rest => digits rest
    | rest => digits rest
  let (whole, rest) := cs.span Char.isDigit
  let (part, rest) := match rest with
    | '.' :: rest => rest.span Char.isDigit
    | rest => ([], rest)
  (whole ≠ [] || part ≠ []) && match rest with
    | 'e' :: rest | 'E' :: rest => rest ≠ [] && isExponent rest
    | rest => rest = []

/-- The words for what is no finite number. -/
def numberWords : List String := ["inf", "infinity", "nan"]

/-- Whether a field can have a value like this: a number or a pattern. Only a number may have a plus
sign before it. -/
def isValue (cs : List Char) : Bool :=
  match cs with
  | '+' :: rest =>
    isNumeral rest || numberWords.contains (String.ofList (rest.map Char.toLower))
  | _ => Pattern.isPattern cs

/-- Reads a field. What follows a second equals sign does not matter. -/
def parse? (text : String) : Option Field :=
  match text.toList.splitOn '=' with
  | [] | [[]] => none
  | [name] => some { name := String.ofList name }
  | name :: value :: _ =>
    if isValue value then some { name := String.ofList name, hasValue := true } else none

end Field

structure Directive where
  /-- What the targets begin with, if not all targets are meant. -/
  target : Option String := none
  /-- Whether the directive is for what happens within a named span only. -/
  withinSpan : Bool := false
  field : Option Field := none
  /-- The rank of the most detailed level that passes; zero lets nothing pass. -/
  bound : Nat := Level.trace.rank
  deriving DecidableEq, Repr

namespace Directive

/-- Whether a directive may begin with this character, a bracket apart. -/
def startsTarget (c : Char) : Bool := c = '-' || c = ':' || c = '_' || Text.isAlphanumeric c

/-- A directive that is one word: a level for all targets, or else a target. -/
def ofWord (word : String) : Directive :=
  match bound? word with
  | some bound => { bound }
  | none => { target := some word }

/-- A place in a text: the count of the characters before it. -/
abbrev Place := Nat

/-- The places of the parts of a directive. -/
structure Parts where
  /-- The end of the target. -/
  target : Option Place := none
  withinSpan : Bool := false
  /-- The start and the end of the field. -/
  field : Option (Place × Place) := none
  /-- The start of the level. -/
  level : Option Place := none
  deriving DecidableEq, Repr

/-- The field and the closing bracket that begin at a place, and what follows them. -/
def Parts.ofField? (start : Place) (cs : List Char) : Option ((Place × Place) × List Char) :=
  match cs.span (· ≠ '\x7d') with
  | (field, _ :: ']' :: rest) => some ((start, start + field.length), rest)
  | _ => none

/-- The parts of a directive from after the bracket that opens at a place. -/
def Parts.ofSpan? (size : Nat) (target : Option Place) (cs : List Char) : Option Parts := do
  let place (rest : List Char) : Place := size - rest.length
  let (name, rest) := cs.span fun c => c ≠ ']' && c ≠ '\x7b'
  let (withinSpan, field, rest) ← match rest with
    | ']' :: rest => some (true, none, rest)
    | '\x7b' :: rest =>
      (ofField? (place rest) rest).map fun (field, rest) => (name ≠ [], some field, rest)
    | _ => none
  match rest with
  | [] => return { target, withinSpan, field }
  | '=' :: rest => return { target, withinSpan, field, level := some (place rest) }
  | _ => none

/-- The parts of a directive without blanks at its ends, unless it is one word. -/
def Parts.of? (cs : List Char) : Option Parts :=
  match cs.span fun c => c ≠ '=' && c ≠ '[' with
  | ([], '[' :: rest) => ofSpan? cs.length none rest
  | (c :: target, rest) =>
    let stop := (c :: target).length
    if ¬ startsTarget c then none
    else
      match rest with
      | '[' :: rest => ofSpan? cs.length (some stop) rest
      | _ => some { target := some stop, level := some (stop + 1) }
  | _ => none

/-- The directive with these parts of a text. No level means that everything passes. -/
def ofParts? (text : List Char) (parts : Parts) : Option Directive := do
  let cut (start stop : Place) : String := String.ofList ((text.take stop).drop start)
  let field ← match parts.field with
    | some (start, stop) => (Field.parse? (cut start stop)).map some
    | none => some none
  let bound ← match parts.level.map (cut · text.length) with
    | some "" | none => some Level.trace.rank
    | some level => bound? level
  return { target := parts.target.map (cut 0), withinSpan := parts.withinSpan, field, bound }

/-- Reads a directive. -/
def parse? (text : String) : Option Directive :=
  let cs := Text.dropEndWhile Text.isBlank (text.toList.dropWhile Text.isBlank)
  if cs.head?.any startsTarget ∧ '=' ∉ cs ∧ '[' ∉ cs then some (ofWord text)
  else (Parts.of? cs).bind (ofParts? text.toList)

/-- Whether the directive is about messages as such, and not only about those within some span or
with some value. -/
def isPlain (d : Directive) : Bool := !d.withinSpan && !d.field.any (·.hasValue)

/-- Whether the directive is about a target at all times. A message that only might be sent is taken
to have every field. -/
def appliesTo (d : Directive) (target : String) : Bool :=
  d.isPlain && match d.target with
    | some start => start.toList.isPrefixOf target.toList
    | none => true

/-- How exactly a directive names its targets. -/
def length (d : Directive) : Nat :=
  match d.target with
  | some start => start.length + 1
  | none => 0

/-- Whether another directive for the same target is as exact: it has a target as long, and if they
are equally long, a field whose name does not come before. -/
def isAtMost (d e : Directive) : Bool :=
  d.length < e.length || (d.length = e.length && match d.field, e.field with
    | none, _ => true
    | some _, none => false
    | some f, some g => f.name ≤ g.name)

end Directive

end CertRegistry.Log
