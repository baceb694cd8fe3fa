import CertRegistry.Json.Fault

/-!
# Places in a JSON text

A cursor is what is left of a text together with the place where that begins. Faults are reported
either here, or just past the next octet when that octet is to blame.
-/

namespace CertRegistry.Json

structure Cursor where
  rest : List Char
  line : Nat := 1
  column : Nat := 0
  deriving DecidableEq, Repr

namespace Cursor

def start (text : String) : Cursor := { rest := text.toList }

/-- The cursor after its first character, which is `c`. -/
def pass (cur : Cursor) (c : Char) : Cursor :=
  if c = '\n' then { rest := cur.rest.tail, line := cur.line + 1, column := 0 }
  else { rest := cur.rest.tail, line := cur.line, column := cur.column + c.utf8Size }

/-- The cursor after as many characters as `octets` octets make up, and after the part of one more
that they reach into. -/
def passOctets (cur : Cursor) (octets : Nat) : Cursor :=
  go octets cur.rest cur.line cur.column
where
  go : Nat → List Char → Nat → Nat → Cursor
    | octets, c :: rest, line, column =>
      if octets < c.utf8Size then { rest := c :: rest, line, column := column + octets }
      else if c = '\n' then go (octets - 1) rest (line + 1) 0
      else go (octets - c.utf8Size) rest line (column + c.utf8Size)
    | _, [], line, column => { rest := [], line, column }

/-- Whether fewer than `octets` octets are left. -/
def shorterThan (cur : Cursor) (octets : Nat) : Bool :=
  (cur.rest.take octets).foldl (fun n c => n + c.utf8Size) 0 < octets

/-- The cursor at the first character that is no blank. -/
def skipBlanks (cur : Cursor) : Cursor := go cur.rest cur.line cur.column
where
  go : List Char → Nat → Nat → Cursor
    | c :: rest, line, column =>
      if c = '\n' then go rest (line + 1) 0
      else if c = ' ' ∨ c = '\t' ∨ c = '\r' then go rest line (column + 1)
      else { rest := c :: rest, line, column }
    | [], line, column => { rest := [], line, column }

/-- Complains about what has been read so far. -/
def fail {α : Type} (cur : Cursor) (complaint : Complaint) : Except Fault α :=
  .error { complaint, line := cur.line, column := cur.column }

/-- Complains about the next octet. -/
def failAhead {α : Type} (cur : Cursor) (complaint : Complaint) : Except Fault α :=
  (cur.passOctets 1).fail complaint

end Cursor

/-- Reads the rest of a keyword. -/
def readLetters : List Char → Cursor → Except Fault Cursor
  | [], cur => .ok cur
  | expected :: more, cur =>
    match cur.rest with
    | [] => cur.fail .endOfValue
    | c :: _ => if c = expected then readLetters more (cur.pass c) else cur.failAhead .expectedIdent

/-- The digits at the front. -/
def takeDigits (cur : Cursor) : List Nat × Cursor :=
  let digits := cur.rest.takeWhile Char.isDigit
  (digits.map fun c => c.toNat - 48, { cur with
    rest := cur.rest.dropWhile Char.isDigit, column := cur.column + digits.length })

end CertRegistry.Json
