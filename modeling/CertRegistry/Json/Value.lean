import CertRegistry.Json.Number
import CertRegistry.Json.Text

/-!
# JSON values

Values of any shape, and the reading of lists and objects in general. The members of an object
are kept in the order of their keys, one for each key; of several with the same key the last
one counts.
-/

namespace CertRegistry.Json

inductive Value where
  | null
  | bool (b : Bool)
  | number (n : Number)
  | text (s : String)
  | list (items : List Value)
  | object (members : List (String × Value))

/-- Sets the member with a key, keeping the keys in order. -/
def putMember {α : Type} (key : String) (value : α) : List (String × α) → List (String × α)
  | [] => [(key, value)]
  | (k, v) :: rest =>
    if key = k then (key, value) :: rest
    else if key < k then (key, value) :: (k, v) :: rest
    else (k, v) :: putMember key value rest

namespace Value

/-- The object with these members, given in any order. -/
def record (members : List (String × Value)) : Value :=
  object (members.foldl (fun ms m => putMember m.1 m.2 ms) [])

/-- The member of an object with a key. -/
def member? (v : Value) (key : String) : Option Value :=
  match v with
  | object members => (members.find? (·.1 = key)).map (·.2)
  | _ => none

end Value

/-- How deep lists and objects may nest. -/
def maxDepth : Nat := 128

/-- Goes on past an opening sign, one level deeper. -/
def openNested (depth : Nat) (c : Char) (cur : Cursor) : Except Fault (Nat × Cursor) :=
  if depth ≤ 1 then cur.failAhead .tooDeep else .ok (depth - 1, cur.pass c)

/-- Goes on to the next item of a list, if there is one; `first` says that none came before. -/
def nextItem? (first : Bool) (cur : Cursor) : Except Fault (Option Cursor) :=
  let cur := cur.skipBlanks
  match cur.rest with
  | [] => cur.failAhead .endOfList
  | c :: _ =>
    if c = ']' then .ok none
    else if first then .ok (some cur)
    else if c = ',' then
      let cur := (cur.pass c).skipBlanks
      match cur.rest with
      | [] => cur.failAhead .endOfValue
      | c :: _ => if c = ']' then cur.failAhead .trailingComma else .ok (some cur)
    else cur.failAhead .expectedListCommaOrEnd

/-- Goes on past the end of a list. -/
def closeList (cur : Cursor) : Except Fault Cursor :=
  let cur := cur.skipBlanks
  match cur.rest with
  | [] => cur.failAhead .endOfList
  | c :: _ =>
    if c = ']' then .ok (cur.pass c)
    else if c = ',' then
      let cur := (cur.pass c).skipBlanks
      if cur.rest.head? = some ']' then cur.failAhead .trailingComma
      else cur.failAhead .trailingCharacters
    else cur.failAhead .trailingCharacters

/-- The items of a list from here to its end. Each takes a character, so as many as there are
characters are enough. -/
def readItems {α : Type} (item : Cursor → Except Fault (α × Cursor)) :
    Nat → Bool → Cursor → Except Fault (List α × Cursor)
  | 0, _, cur => cur.failAhead .endOfList
  | count + 1, first, cur => do
    match ← nextItem? first cur with
    | none =>
      let cur ← closeList cur
      return ([], cur)
    | some cur =>
      let (a, cur) ← item cur
      let (as, cur) ← readItems item count false cur
      return (a :: as, cur)

/-- The key of the next member of an object, if there is one. -/
def nextKey? (first : Bool) (cur : Cursor) : Except Fault (Option (String × Cursor)) :=
  let cur := cur.skipBlanks
  match cur.rest with
  | [] => cur.failAhead .endOfObject
  | c :: _ =>
    if c = '\x7d' then .ok none
    else if c = ',' ∧ ¬ first then
      let cur := (cur.pass c).skipBlanks
      match cur.rest with
      | [] => cur.failAhead .endOfValue
      | c :: _ =>
        if c = '"' then some <$> readText (cur.pass c)
        else if c = '\x7d' then cur.failAhead .trailingComma
        else cur.failAhead .keyNotText
    else if ¬ first then cur.failAhead .expectedObjectCommaOrEnd
    else if c = '"' then some <$> readText (cur.pass c)
    else cur.failAhead .keyNotText

/-- Goes on past the colon after a key. -/
def passColon (cur : Cursor) : Except Fault Cursor :=
  let cur := cur.skipBlanks
  match cur.rest with
  | [] => cur.failAhead .endOfObject
  | c :: _ => if c = ':' then .ok (cur.pass c) else cur.failAhead .expectedColon

/-- The members of an object from here to its end, added to those before. -/
def readMembers {α : Type} (value : Cursor → Except Fault (α × Cursor)) :
    Nat → Bool → List (String × α) → Cursor → Except Fault (List (String × α) × Cursor)
  | 0, _, _, cur => cur.failAhead .endOfObject
  | count + 1, first, members, cur => do
    match ← nextKey? first cur with
    | none => return (members, cur.skipBlanks.pass '\x7d')
    | some (key, cur) =>
      let cur ← passColon cur
      let (v, cur) ← value cur
      readMembers value count false (putMember key v members) cur

/-- Reads a value that is neither list nor object and starts with `c`. -/
def readScalar (c : Char) (cur : Cursor) : Except Fault (Value × Cursor) :=
  match c with
  | 'n' => (Value.null, ·) <$> readLetters ['u', 'l', 'l'] (cur.pass c)
  | 't' => (Value.bool true, ·) <$> readLetters ['r', 'u', 'e'] (cur.pass c)
  | 'f' => (Value.bool false, ·) <$> readLetters ['a', 'l', 's', 'e'] (cur.pass c)
  | '"' => (fun p => (Value.text p.1, p.2)) <$> readText (cur.pass c)
  | '-' => (fun p => (Value.number p.1, p.2)) <$> readNumber true (cur.pass c)
  | _ =>
    if c.isDigit then (fun p => (Value.number p.1, p.2)) <$> readNumber false cur
    else cur.failAhead .expectedValue

/-- Reads a value of any shape. -/
def readValue : Nat → Cursor → Except Fault (Value × Cursor)
  | 0, cur => cur.failAhead .tooDeep
  | depth + 1, cur => do
    let cur := cur.skipBlanks
    match cur.rest with
    | [] => cur.failAhead .endOfValue
    | c :: _ =>
      if c = '[' then
        let (_, cur) ← openNested (depth + 1) c cur
        let (items, cur) ← readItems (readValue depth) (cur.rest.length + 1) true cur
        return (.list items, cur)
      else if c = '\x7b' then
        let (_, cur) ← openNested (depth + 1) c cur
        let (members, cur) ← readMembers (readValue depth) (cur.rest.length + 1) true [] cur
        return (.object members, cur)
      else readScalar c cur

end CertRegistry.Json
