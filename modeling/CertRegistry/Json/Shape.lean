import CertRegistry.Json.Skip
import CertRegistry.Json.Value
import CertRegistry.Text.Quoted

/-!
# Values of a known shape

Readers for texts, options, lists, choices among names, and records. A record is an object with
members in any order, of which unknown ones are skipped, or a list of its members in their
order. A value of another kind is named in the complaint.
-/

namespace CertRegistry.Json

/-- Reads a value at a cursor; the number bounds how deep it may nest. -/
abbrev Reader (α : Type) := Nat → Cursor → Except Fault (α × Cursor)

/-- A value in the words of a complaint. -/
def Value.described : Value → String
  | null => "null"
  | bool b => "boolean " ++ accented (toString b)
  | number (.fraction x) => "floating point " ++ accented (fractionText x)
  | number n => "integer " ++ accented n.text
  | text s => "string " ++ Text.quote s
  | list _ => "sequence"
  | object _ => "map"

/-- Complains about the value that starts with `c`, where something else was expected. -/
def mismatch {α : Type} (expected : String) (c : Char) (cur : Cursor) :
    Except Fault (α × Cursor) := do
  if c = '[' then cur.fail (.wrongType "sequence" expected)
  else if c = '\x7b' then cur.fail (.wrongType "map" expected)
  else
    let (v, cur) ← readScalar c cur
    cur.fail (.wrongType v.described expected)

/-- Reads a value that is told by its first character. -/
def dispatch {α : Type} (read : Char → Cursor → Except Fault (α × Cursor)) (cur : Cursor) :
    Except Fault (α × Cursor) :=
  let cur := cur.skipBlanks
  match cur.rest with
  | [] => cur.failAhead .endOfValue
  | c :: _ => read c cur

namespace Reader

def text : Reader String := fun _ => dispatch fun c cur =>
  if c = '"' then readText (cur.pass c) else mismatch "a string" c cur

/-- Null, or a value. -/
def option {α : Type} (read : Reader α) : Reader (Option α) := fun depth cur =>
  let cur := cur.skipBlanks
  if cur.rest.head? = some 'n' then (none, ·) <$> readLetters ['u', 'l', 'l'] (cur.pass 'n')
  else (fun p => (some p.1, p.2)) <$> read depth cur

def list {α : Type} (read : Reader α) : Reader (List α) := fun depth => dispatch fun c cur =>
  if c = '[' then do
    let (depth, cur) ← openNested depth c cur
    readItems (read depth) (cur.rest.length + 1) true cur
  else mismatch "a sequence" c cur

def value : Reader Value := fun depth => readValue depth

/-- One of several names, of which the quote before it has been read. -/
def readName {α : Type} (known : List (String × α)) (cur : Cursor) :
    Except Fault (α × Cursor) := do
  let (found, cur) ← readText cur
  match known.lookup found with
  | some a => return (a, cur)
  | none => cur.fail (.unknownVariant found (known.map (·.1)))

/-- The only key of an object, which is one of several names. -/
def readKey {α : Type} (known : List (String × α)) (cur : Cursor) :
    Except Fault (α × Cursor) :=
  let cur := cur.skipBlanks
  match cur.rest with
  | [] => cur.failAhead .endOfObject
  | c :: _ =>
    if c = '"' then readName known (cur.pass c)
    else cur.failAhead (if c = '\x7d' then .expectedValue else .keyNotText)

/-- Goes on past null. -/
def passNull : Cursor → Except Fault (Unit × Cursor) := dispatch fun c cur =>
  if c = 'n' then ((), ·) <$> readLetters ['u', 'l', 'l'] (cur.pass c) else mismatch "unit" c cur

/-- A choice: a name, or an object with the name as its key and null as the value. -/
def choice {α : Type} (known : List (String × α)) : Reader α := fun depth =>
  dispatch fun c cur => do
    if c = '"' then readName known (cur.pass c)
    else if c = '\x7b' then
      let (_, cur) ← openNested depth c cur
      let (a, cur) ← readKey known cur
      let cur ← passColon cur
      let (_, cur) ← passNull cur
      let cur := cur.skipBlanks
      match cur.rest with
      | [] => cur.fail .endOfObject
      | c :: _ => if c = '\x7d' then return (a, cur.pass c) else cur.fail .expectedValue
    else cur.failAhead .expectedValue

end Reader

/-- A member of the record `α`. -/
structure Member (α : Type) where
  name : String
  /-- Whether the record has to have it. -/
  mandatory : Bool
  /-- Reads the value into the record. -/
  read : Nat → α → Cursor → Except Fault (α × Cursor)

namespace Member

variable {α β : Type}

def required (name : String) (read : Reader β) (set : α → β → α) : Member α :=
  { name, mandatory := true
    read := fun depth a cur => (fun p => (set a p.1, p.2)) <$> read depth cur }

def optional (name : String) (read : Reader β) (set : α → β → α) : Member α :=
  { required name read set with mandatory := false }

end Member

/-- The shape of the record `α`. -/
structure Record (α : Type) where
  name : String
  blank : α
  members : List (Member α)

namespace Record

variable {α : Type} (R : Record α)

def title : String := "struct " ++ R.name

/-- The record and its size in the words of a complaint. -/
def sizedTitle : String :=
  R.title ++ " with " ++ toString R.members.length ++
    if R.members.length = 1 then " element" else " elements"

/-- Complains about an object as a whole, past its closing sign if that comes next. -/
def failObject {β : Type} (complaint : Complaint) (cur : Cursor) : Except Fault β :=
  let cur := cur.skipBlanks
  if cur.rest.head? = some '\x7d' then (cur.pass '\x7d').fail complaint else cur.fail complaint

/-- Reads members into the record; `seen` holds the names of those read before. -/
def readNamed (depth : Nat) : Nat → Bool → List String → α → Cursor → Except Fault (α × Cursor)
  | 0, _, _, _, cur => cur.failAhead .endOfObject
  | count + 1, first, seen, a, cur => do
    match ← nextKey? first cur with
    | none =>
      match R.members.find? fun m => m.mandatory && !seen.contains m.name with
      | some m => failObject (.missingField m.name) cur
      | none => return (a, cur.skipBlanks.pass '\x7d')
    | some (key, cur) =>
      match R.members.find? (·.name = key) with
      | some m =>
        if seen.contains key then failObject (.duplicateField key) cur
        else
          let cur ← passColon cur
          let (a, cur) ← m.read depth a cur
          readNamed depth count false (key :: seen) a cur
      | none =>
        let cur ← passColon cur
        let cur ← skipValue cur
        readNamed depth count false seen a cur

/-- Reads the members of a list into the record; `index` counts those before. -/
def readListed (depth : Nat) : List (Member α) → Nat → α → Cursor → Except Fault (α × Cursor)
  | [], _, a, cur => (a, ·) <$> closeList cur
  | m :: more, index, a, cur => do
    match ← nextItem? (index = 0) cur with
    | some cur =>
      let (a, cur) ← m.read depth a cur
      readListed depth more (index + 1) a cur
    | none =>
      match (m :: more).findIdx? (·.mandatory) with
      | some i => (cur.skipBlanks.pass ']').fail (.wrongLength (index + i) R.sizedTitle)
      | none => (a, ·) <$> closeList cur

def reader : Reader α := fun depth => dispatch fun c cur => do
  if c = '\x7b' then
    let (depth, cur) ← openNested depth c cur
    R.readNamed depth (cur.rest.length + 1) true [] R.blank cur
  else if c = '[' then
    let (depth, cur) ← openNested depth c cur
    R.readListed depth R.members 0 R.blank cur
  else mismatch R.title c cur

end Record

/-- The value that a whole text holds. -/
def Reader.parse {α : Type} (read : Reader α) (text : String) : Except Fault α := do
  let (a, cur) ← read maxDepth (Cursor.start text)
  let cur := cur.skipBlanks
  if cur.rest = [] then return a else cur.failAhead .trailingCharacters

end CertRegistry.Json
