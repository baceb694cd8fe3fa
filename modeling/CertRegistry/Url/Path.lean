import CertRegistry.Url.Percent

/-!
# Paths

A path is a list of segments. A segment of one dot stands for nothing, one of two dots takes
back the segment before; either dot may be escaped. A path never climbs above its root.
-/

namespace CertRegistry.Url.Path

/-- What a segment does to the path. -/
inductive Segment where
  | stay
  | back
  | enter (name : List Char)
  deriving DecidableEq, Repr

/-- The dots that a segment consists of, if it has nothing else. -/
def dots? : List Char → Option Nat
  | [] => some 0
  | '.' :: rest => (dots? rest).map (· + 1)
  | '%' :: '2' :: 'e' :: rest | '%' :: '2' :: 'E' :: rest => (dots? rest).map (· + 1)
  | _ => none

def Segment.of (name : List Char) : Segment :=
  match dots? name with
  | some 1 => stay
  | some 2 => back
  | _ => enter name

/-- Two characters that name a drive. -/
def isDrive : List Char → Bool
  | [letter, mark] => letter.isAlpha && (mark = ':' || mark = '|')
  | _ => false

/-- Whether a segment is one that is never left: a drive, even if a backslash follows it. -/
def isKept (name : List Char) : Bool :=
  isDrive (name.take 2) && (name.length = 2 || name[2]? = some '\\')

/-- Goes to the segment before the last one; a drive is never left. The path is given backwards. -/
def leave : List (List Char) → List (List Char)
  | last :: before => if isKept last then last :: before else before
  | [] => []

/-- Goes into a segment from a path that is given backwards. Where there are drives, one at the root
is written with a colon. -/
def enter (hasDrives : Bool) (path : List (List Char)) (name : List Char) : List (List Char) :=
  if hasDrives ∧ path = [] ∧ isDrive name then [name.take 1 ++ [':']] else name :: path

/-- Follows segments from the end of a path, which is given backwards. Where the last segment names
nothing, the path ends in an empty one. -/
def follow (hasDrives : Bool) (path : List (List Char)) : List (List Char) → List (List Char)
  | [] => path
  | name :: rest =>
    let atEnd := if rest = [] then [[]] else []
    match Segment.of name with
    | .stay => follow hasDrives (atEnd ++ path) rest
    | .back => follow hasDrives (atEnd ++ leave path) rest
    | .enter name => follow hasDrives (enter hasDrives path name) rest

/-- The path that the text between two slashes, with dots in it, leads to. -/
def resolve (hasDrives : Bool) (segments : List (List Char)) : List (List Char) :=
  (follow hasDrives [] segments).reverse

/-- Whether a path starts with a drive. -/
def isOnDrive (path : List (List Char)) : Bool := path.head?.any isDrive

/-- The segments as text, with a slash before each. -/
def toText (segments : List (List Char)) : List Char := segments.flatMap ('/' :: ·)

end CertRegistry.Url.Path
