import CertRegistry.Toml.Number

/-!
# Values and tables of TOML

The values that can be assigned to keys, and the rules by which keys come into tables. A table
remembers how it came about: whoever wrote it down as a whole may not add to it later, and a
table that keys with dots brought about is no table that a header may define.
-/

namespace CertRegistry.Toml

/-- How a table came about. -/
inductive Origin where
  /-- It was written down between braces. -/
  | braces
  /-- A header named it. -/
  | header
  /-- A longer header led through it. -/
  | passage
  /-- A key with dots led through it. -/
  | dots
  deriving DecidableEq, Repr

inductive Item where
  | text (s : String)
  | integer (n : Int)
  | bool (b : Bool)
  | real
  | moment
  | list (items : List Item)
  | table (origin : Origin) (entries : List (String × Item))
  /-- The tables that headers in double brackets added up. -/
  | tables (all : List (List (String × Item)))

/-- The entries of a table. -/
abbrev Entries := List (String × Item)

namespace Entries

def item? (entries : Entries) (key : String) : Option Item :=
  (List.find? (·.1 = key) entries).map (·.2)

/-- Sets the item of a key. -/
def put (entries : Entries) (key : String) (item : Item) : Entries :=
  if entries.any (·.1 = key) then
    entries.map fun e => if e.1 = key then (key, item) else e
  else entries ++ [(key, item)]

/-- Whether a path may lead through a table: none leads through braces, and one with dots not
through a table that a header named. -/
def mayPass (dotted : Bool) : Origin → Bool
  | .braces => false
  | .header => !dotted
  | .passage | .dots => true

/-- Changes the table that a path leads to; tables that are missing are brought about. The
change is told how the table came about. -/
def change (dotted : Bool) (f : Origin → Entries → Option Entries) :
    List String → Origin → Entries → Option Entries
  | [], origin, entries => f origin entries
  | key :: path, _, entries =>
    match entries.item? key with
    | none => do
      let origin := if dotted then Origin.dots else .passage
      return entries.put key (.table origin (← change dotted f path origin []))
    | some (.table origin inner) =>
      if mayPass dotted origin then do
        return entries.put key (.table origin (← change dotted f path origin inner))
      else none
    | some (.tables all) => do
      let last ← all.getLast?
      return entries.put key (.tables (all.dropLast ++ [← change dotted f path .header last]))
    | some _ => none

/-- Assigns an item to the key that a path with dots ends in. The key has to be new. -/
def assign (origin : Origin) (entries : Entries) (path : List String) (item : Item) :
    Option Entries := do
  let key ← path.getLast?
  change true (fun found inner =>
    if (found = .dots ↔ path.length = 1) ∨ (inner.item? key).isSome then none
    else some (inner.put key item)) path.dropLast origin entries

end Entries

/-- The characters of a key without quotes. -/
def isKeyChar (c : Char) : Bool := c.isAlphanum || c = '_' || c = '-'

/-- A key without dots and what follows it. -/
def simpleKey? (cs : List Char) : Option (String × List Char) :=
  match cs with
  | '"' :: rest => (basic? rest).map fun (key, rest) => (String.ofList key, rest)
  | '\'' :: rest => (literal? rest).map fun (key, rest) => (String.ofList key, rest)
  | _ =>
    match cs.span isKeyChar with
    | ([], _) => none
    | (key, rest) => some (String.ofList key, rest)

/-- A key of at most so many parts with dots between them, and what follows it. -/
def key? : Nat → List Char → Option (List String × List Char)
  | 0, _ => none
  | count + 1, cs => do
    let (key, rest) ← simpleKey? (skipBlanks cs)
    match skipBlanks rest with
    | '.' :: rest =>
      let (path, rest) ← key? count rest
      return (key :: path, rest)
    | rest => return ([key], rest)

/-- How many parts a key may have, and how deep values may nest. -/
def maxDepth : Nat := 79

def isTokenChar (c : Char) : Bool := c.isAlphanum || c ∈ ['_', '+', '-', '.', ':']

/-- The value that a token spells. -/
def tokenValue? (token : List Char) : Option Item :=
  if token = "true".toList then some (.bool true)
  else if token = "false".toList then some (.bool false)
  else if isMoment token then some .moment
  else
    match integer? token with
    | some n => some (.integer n)
    | none => if isReal token then some .real else none

/-- The value without brackets that starts here, and what follows it. A blank may stand between
a date and a time. -/
def scalar? (cs : List Char) : Option (Item × List Char) :=
  match cs with
  | '"' :: _ | '\'' :: _ => (text? cs).map fun (s, rest) => (.text s, rest)
  | _ =>
    let (token, rest) := cs.span isTokenChar
    match passDate? token, rest with
    | some [], ' ' :: c :: more =>
      if c.isDigit then
        let (time, rest) := (c :: more).span isTokenChar
        if isZonedTime time then some (.moment, rest) else none
      else some (.moment, rest)
    | _, _ => (tokenValue? token).map (·, rest)

/-- The items of a list up to its end. Each takes a character, so as many as there are
characters are enough. -/
def items? (value : List Char → Option (Item × List Char)) :
    Nat → List Char → Option (List Item × List Char)
  | 0, _ => none
  | count + 1, cs => do
    match ← skipAll? cs with
    | ']' :: rest => return ([], rest)
    | cs =>
      let (item, rest) ← value cs
      match ← skipAll? rest with
      | ']' :: rest => return ([item], rest)
      | ',' :: rest =>
        let (items, rest) ← items? value count rest
        return (item :: items, rest)
      | _ => none

/-- The assignment that starts here: a key, an equals sign and a value. -/
def assignment? (value : List Char → Option (Item × List Char)) (cs : List Char) :
    Option ((List String × Item) × List Char) := do
  let (path, rest) ← key? maxDepth cs
  match rest with
  | '=' :: rest =>
    let (item, rest) ← value (skipBlanks rest)
    return ((path, item), rest)
  | _ => none

/-- The assignments between braces after those before, up to the closing brace. -/
def braces? (value : List Char → Option (Item × List Char)) :
    Nat → Entries → List Char → Option (Entries × List Char)
  | 0, _, _ => none
  | count + 1, entries, cs => do
    let ((path, item), rest) ← assignment? value cs
    let entries ← entries.assign .braces path item
    match skipBlanks rest with
    | ',' :: rest => braces? value count entries rest
    | '}' :: rest => return (entries, rest)
    | _ => none

/-- The value that starts here, with brackets nested at most so deep, and what follows it. -/
def value? : Nat → List Char → Option (Item × List Char)
  | 0, cs => scalar? cs
  | depth + 1, cs =>
    match cs with
    | '[' :: rest => (items? (value? depth) (rest.length + 1) rest).map fun (items, rest) =>
      (.list items, rest)
    | '{' :: rest =>
      match skipBlanks rest with
      | '}' :: rest => some (.table .braces [], rest)
      | cs => (braces? (value? depth) (cs.length + 1) [] cs).map fun (entries, rest) =>
        (.table .braces entries, rest)
    | _ => scalar? cs

end CertRegistry.Toml
