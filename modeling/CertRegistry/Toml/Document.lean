import CertRegistry.Toml.Value

/-!
# TOML documents

A document assigns values to keys, at first in the table of the document itself and after a
header in the table that the header names.
-/

namespace CertRegistry.Toml

inductive Statement where
  | assign (path : List String) (item : Item)
  | header (path : List String)
  /-- A header in double brackets, which adds a table to a list of them. -/
  | listHeader (path : List String)

/-- The header that starts here, after its first bracket. -/
def header? (cs : List Char) : Option (Statement × List Char) :=
  match cs with
  | '[' :: cs => do
    let (path, rest) ← key? maxDepth cs
    match rest with
    | ']' :: ']' :: rest => return (.listHeader path, rest)
    | _ => none
  | _ => do
    let (path, rest) ← key? maxDepth cs
    match rest with
    | ']' :: rest => return (.header path, rest)
    | _ => none

/-- The statements of a text, of which there are at most so many lines. -/
def statements? : Nat → List Char → Option (List Statement)
  | 0, _ => some []
  | count + 1, cs => do
    match ← skipAll? cs with
    | [] => return []
    | '[' :: rest =>
      let (statement, rest) ← header? rest
      return statement :: (← statements? count (← passLineEnd? rest))
    | cs =>
      let ((path, item), rest) ← assignment? (value? maxDepth) cs
      return .assign path item :: (← statements? count (← passLineEnd? rest))

/-- A document of which some statements have been carried out: its table without the one that
is being filled, and that one. -/
structure Draft where
  root : Entries := []
  /-- Where the table belongs that is being filled; nothing for that of the document. -/
  path : List String := []
  /-- Whether it is one of a list of tables. -/
  listed : Bool := false
  current : Entries := []

namespace Draft

/-- Puts the table that is being filled into its place. -/
def close? (draft : Draft) : Option Entries :=
  match draft.path.getLast? with
  | none => some draft.current
  | some key =>
    Entries.change false (fun _ parent =>
      if draft.listed then
        match parent.item? key with
        | some (.tables all) => some (parent.put key (.tables (all ++ [draft.current])))
        | none => some (parent.put key (.tables [draft.current]))
        | some _ => none
      else some (parent.put key (.table .header draft.current)))
      draft.path.dropLast .header draft.root

/-- What is there already of the table with a key in the table that a path leads to. -/
def openedAt? (key : String) : List String → Entries → Option Entries
  | [], entries =>
    match entries.item? key with
    | none => some []
    | some (.table .passage inner) => some inner
    | some _ => none
  | step :: steps, entries =>
    match entries.item? step with
    | none => some []
    | some (.table origin inner) =>
      if Entries.mayPass false origin then openedAt? key steps inner else none
    | some (.tables all) => all.getLast?.bind (openedAt? key steps)
    | some _ => none

/-- What is there already of the table that a header names: nothing, or what longer headers
brought about. -/
def opened? (path : List String) (root : Entries) : Option Entries := do
  openedAt? (← path.getLast?) path.dropLast root

/-- Carries out a statement. -/
def run? (draft : Draft) : Statement → Option Draft
  | .assign path item => do
    return { draft with current := ← draft.current.assign .header path item }
  | .header path => do
    let root ← draft.close?
    return { root, path, current := ← opened? path root }
  | .listHeader path => do
    let root ← draft.close?
    return { root, path, listed := true }

end Draft

/-- The table of a document. A mark of the octet order in front is no part of it. -/
def parse? (text : String) : Option Entries := do
  let cs := match text.toList with
    | c :: rest => if c.toNat = 0xFEFF then rest else c :: rest
    | [] => []
  let statements ← statements? (cs.length + 1) cs
  (← statements.foldlM Draft.run? {}).close?

end CertRegistry.Toml
