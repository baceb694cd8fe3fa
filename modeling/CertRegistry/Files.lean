import CertRegistry.Text.Stored

/-!
# Files

A tree of directories and files, and what the paths in it lead to. A path is followed name by name
from the root, or from the current directory; the first name that leads nowhere decides what is
wrong with it.
-/

namespace CertRegistry

/-- The names on the way from the root to a place in a tree. -/
abbrev Location := List String

inductive FileTree.Entry where
  | directory
  | file (content : Bytes)
  deriving DecidableEq, Repr

structure FileTree where
  /-- What is at each place, the root apart. -/
  entries : List (Location × FileTree.Entry)
  /-- The directory where paths start that do not start at the root. -/
  current : Location := []
  deriving DecidableEq, Repr

namespace FileTree

/-- The most octets of a name. -/
def longestName : Nat := 255

/-- One more than the most octets of a path. -/
def pathSize : Nat := 4096

def entry? (tree : FileTree) (location : Location) : Option Entry :=
  if location = [] then some .directory else tree.entries.lookup location

/-- Whether a name stays at a directory, or goes back to the one around it. -/
def isStep (name : String) : Bool := name ∈ ["", ".", ".."]

/-- Where a name leads from a directory. -/
def enter (tree : FileTree) (location : Location) (name : String) : Except ReadFault Location :=
  if tree.entry? location ≠ some .directory then .error .notDirectory
  else if name = ".." then .ok location.dropLast
  else if isStep name then .ok location
  else if longestName < name.utf8ByteSize then .error .longName
  else .ok (location ++ [name])

/-- Follows names from one place to another, of which each but the last one has to exist. -/
def follow (tree : FileTree) (location : Location) : List String → Except ReadFault Location
  | [] => .ok location
  | name :: rest => do
    if (tree.entry? location).isNone then throw .missing
    follow tree (← tree.enter location name) rest

/-- Where a path starts, and the names in it. -/
def start (tree : FileTree) (path : String) : Except ReadFault (Location × List String) :=
  if pathSize ≤ path.utf8ByteSize then .error .longName
  else
    match path.toList.splitOn '/' with
    | [] :: names => .ok (if names = [] then tree.current else [], names.map String.ofList)
    | names => .ok (tree.current, names.map String.ofList)

/-- What a path leads to. -/
def read (tree : FileTree) (path : String) : FileContent := do
  let (location, names) ← tree.start path
  match tree.entry? (← tree.follow location names) with
  | some (.file content) => return content
  | some .directory => throw .isDirectory
  | none => throw .missing

/-- Where a file can be written: at a path that leads to a file or, in a directory, to nothing. A
path that ends like one of a directory can only be that of a directory. -/
def place (tree : FileTree) (path : String) : Except ReadFault Location := do
  let (location, names) ← tree.start path
  let written := names.reverse.dropWhile (· = "")
  let around ← tree.follow location (written.drop 1).reverse
  match written.head? with
  | some name =>
    let location ← tree.follow around [name]
    if isStep name ∨ names.getLast? = some "" ∨ tree.entry? location = some .directory then
      throw .isDirectory
    else return location
  | none => throw .isDirectory

/-- Why no file can be written at a path. -/
def unwritable? (tree : FileTree) (path : String) : Option ReadFault :=
  match tree.place path with
  | .ok _ => none
  | .error fault => some fault

end FileTree

end CertRegistry
