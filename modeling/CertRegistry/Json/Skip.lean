import CertRegistry.Json.Number
import CertRegistry.Json.Text

/-!
# Skipping JSON values

A value that nobody asked for is only checked for its shape. Lists and objects may nest to any
depth; those still open are kept in a list, innermost first.
-/

namespace CertRegistry.Json

/-- A list or an object that has been opened. -/
inductive Frame where
  | list
  | object
  deriving DecidableEq, Repr

namespace Frame

def closing : Frame → Char
  | list => ']'
  | object => '\x7d'

def ended : Frame → Complaint
  | list => .endOfList
  | object => .endOfObject

def expectedComma : Frame → Complaint
  | list => .expectedListCommaOrEnd
  | object => .expectedObjectCommaOrEnd

def ofOpening? (c : Char) : Option Frame :=
  if c = '[' then some list else if c = '\x7b' then some object else none

end Frame

/-- What comes after a value or an opening sign: another value, or the end. -/
inductive Continuation where
  | value (frames : List Frame) (cur : Cursor)
  | done (cur : Cursor)

/-- Skips the key of a member and its colon. -/
def skipKey (cur : Cursor) : Except Fault Cursor := do
  let cur := cur.skipBlanks
  match cur.rest with
  | [] => cur.failAhead .endOfObject
  | c :: _ =>
    if c ≠ '"' then cur.failAhead .keyNotText
    else
      let cur ← skipText (cur.pass c)
      let cur := cur.skipBlanks
      match cur.rest with
      | [] => cur.failAhead .endOfObject
      | c :: _ => if c = ':' then return cur.pass c else cur.failAhead .expectedColon

/-- Goes on to the next value in the innermost frame. -/
def enter (frame : Frame) (outer : List Frame) (cur : Cursor) : Except Fault Continuation :=
  match frame with
  | .list => .ok (.value (.list :: outer) cur)
  | .object => (.value (.object :: outer) ·) <$> skipKey cur

/-- Closes what ends here; `comma` says that a value came before, so that a comma may follow. -/
def closeFrames : List Frame → Bool → Cursor → Except Fault Continuation
  | [], _, cur => .ok (.done cur)
  | frame :: outer, comma, cur =>
    let cur := cur.skipBlanks
    match cur.rest with
    | [] => cur.failAhead frame.ended
    | c :: _ =>
      if c = ',' ∧ comma then enter frame outer (cur.pass c)
      else if c = frame.closing then closeFrames outer true (cur.pass c)
      else if comma then cur.failAhead frame.expectedComma
      else enter frame outer cur

/-- Skips a value that is neither list nor object. -/
def skipScalar (c : Char) (cur : Cursor) : Except Fault Cursor :=
  match c with
  | 'n' => readLetters ['u', 'l', 'l'] (cur.pass c)
  | 't' => readLetters ['r', 'u', 'e'] (cur.pass c)
  | 'f' => readLetters ['a', 'l', 's', 'e'] (cur.pass c)
  | '"' => skipText (cur.pass c)
  | '-' => skipNumber (cur.pass c)
  | _ => if c.isDigit then skipNumber cur else cur.failAhead .expectedValue

/-- Skips the rest of what is open. Each value takes a character, so as many values as there are
characters are enough. -/
def skipOpen : Nat → List Frame → Cursor → Except Fault Cursor
  | 0, _, cur => cur.failAhead .endOfValue
  | count + 1, frames, cur => do
    let cur := cur.skipBlanks
    match cur.rest with
    | [] => cur.failAhead .endOfValue
    | c :: _ =>
      let next ← match Frame.ofOpening? c with
        | some frame => closeFrames (frame :: frames) false (cur.pass c)
        | none => do
          let cur ← skipScalar c cur
          closeFrames frames true cur
      match next with
      | .value frames cur => skipOpen count frames cur
      | .done cur => return cur

/-- Skips a value. -/
def skipValue (cur : Cursor) : Except Fault Cursor := skipOpen (cur.rest.length + 1) [] cur

end CertRegistry.Json
