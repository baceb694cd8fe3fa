/-!
# Lines of a TOML text

Blanks, line ends and comments. Lines end in a line feed, with or without a carriage return
before it, and controls other than tabs are allowed nowhere.
-/

namespace CertRegistry.Toml

/-- A control that cannot stand in a comment or between quotes. -/
def isControl (c : Char) : Bool := (c.toNat < 0x20 && c ≠ '\t') || c.toNat == 0x7f

def isBlank (c : Char) : Bool := c = ' ' || c = '\t'

def skipBlanks (cs : List Char) : List Char := cs.dropWhile isBlank

/-- Goes on past a line end. -/
def passNewline? : List Char → Option (List Char)
  | '\n' :: rest => some rest
  | '\r' :: '\n' :: rest => some rest
  | _ => none

/-- Goes on past a comment, if there is one. -/
def skipComment (cs : List Char) : List Char :=
  match cs with
  | '#' :: rest => rest.dropWhile (!isControl ·)
  | _ => cs

/-- Goes on past the end of a line, before which a comment may stand. -/
def passLineEnd? (cs : List Char) : Option (List Char) :=
  match skipComment (skipBlanks cs) with
  | [] => some []
  | rest => passNewline? rest

/-- Goes on past blanks, comments and line ends, at most so many of them. -/
def skipSpace : Nat → List Char → Option (List Char)
  | 0, cs => some cs
  | count + 1, cs =>
    let rest := skipBlanks cs
    match rest with
    | '#' :: _ =>
      match skipComment rest with
      | [] => some []
      | rest => passNewline? rest >>= skipSpace count
    | _ =>
      match passNewline? rest with
      | some rest => skipSpace count rest
      | none => some rest

/-- Goes on past all blanks, comments and line ends. -/
def skipAll? (cs : List Char) : Option (List Char) := skipSpace cs.length cs

end CertRegistry.Toml
