import CertRegistry.Text.Alphanumeric
import CertRegistry.Text.Digits

/-!
# Patterns

Which texts are patterns for the values of fields: regular expressions over characters, without a
table of the classes and cases of letters. A part that asks for such a table, or that could match
octets that are no text, makes a text unusable as a pattern.

Closing braces end the values of fields, so that no count of repetitions and no code in braces is
ever complete.
-/

namespace CertRegistry.Log.Pattern

/-- How a part of a pattern is meant. -/
structure Mode where
  /-- Whether capital and small letters match each other. -/
  ignoresCase : Bool := false
  /-- Whether classes and places are about characters of all scripts. -/
  isUnicode : Bool := true
  deriving DecidableEq, Repr

/-- Whether characters can be given as they are, for which their cases may have to be known. -/
def Mode.hasCases (mode : Mode) : Bool := !(mode.ignoresCase && mode.isUnicode)

/-- What stands for something by itself. -/
inductive Atom where
  | literal (c : Char)
  /-- Characters of a kind. -/
  | kind
  /-- A place between characters. -/
  | place
  deriving DecidableEq, Repr

/-- The controls that a letter after a backslash stands for. -/
def controls : List (Char × Char) :=
  [('a', '\x07'), ('f', '\x0c'), ('n', '\n'), ('r', '\r'), ('t', '\t'), ('v', '\x0b')]

/-- Reads a character that is given by its code, in so many digits. -/
def readCode? (digits : Nat) (cs : List Char) : Option (Char × List Char) :=
  if cs.length < digits then none
  else (Text.codePoint? (cs.take digits)).map (·, cs.drop digits)

/-- Reads what follows a backslash. -/
def readEscape? (mode : Mode) : List Char → Option (Atom × List Char)
  | [] => none
  | 'x' :: rest => do
    let (c, rest) ← readCode? 2 rest
    if mode.isUnicode ∨ c.toNat < 0x80 then return (.literal c, rest) else none
  | 'u' :: rest => (readCode? 4 rest).map fun (c, rest) => (.literal c, rest)
  | 'U' :: rest => (readCode? 8 rest).map fun (c, rest) => (.literal c, rest)
  | c :: rest =>
    if c ∈ ['A', 'z'] then some (.place, rest)
    else if c ∈ ['b', 'B', '<', '>'] then if mode.isUnicode then none else some (.place, rest)
    else if c ∈ ['d', 's', 'w'] then if mode.isUnicode then none else some (.kind, rest)
    else
      match controls.lookup c with
      | some control => some (.literal control, rest)
      | none => if c.toNat < 0x80 ∧ ¬ c.isAlphanum then some (.literal c, rest) else none

/-- Reads an atom of a set. -/
def readMember? (mode : Mode) : List Char → Option (Atom × List Char)
  | [] => none
  | '\\' :: rest => (readEscape? mode rest).filter (·.1 ≠ .place)
  | c :: rest => if mode.isUnicode ∨ c.toNat < 0x80 then some (.literal c, rest) else none

/-- Goes on past an atom of a set, or past two with a hyphen between them, of which the first one
must not come after the second one. -/
def afterRange? (mode : Mode) (cs : List Char) : Option (List Char) := do
  let (low, rest) ← readMember? mode cs
  match rest with
  | '-' :: c :: after =>
    if c = ']' ∨ c = '-' then return rest
    else
      match low, ← readMember? mode (c :: after) with
      | .literal low, (.literal high, rest) => if low ≤ high then return rest else none
      | _, _ => none
  | _ => return rest

/-- The names of kinds of ASCII characters, which stand between colons. -/
def kindNames : List String :=
  ["alnum", "alpha", "ascii", "blank", "cntrl", "digit", "graph", "lower", "print", "punct",
    "space", "upper", "word", "xdigit"]

/-- Goes on past the name of a kind, of which the opening bracket has been read. -/
def afterKind? (mode : Mode) : List Char → Option (List Char)
  | ':' :: rest =>
    let (negated, rest) := match rest with
      | '^' :: rest => (true, rest)
      | _ => (false, rest)
    match rest.span (· ≠ ':') with
    | (name, ':' :: ']' :: rest) =>
      if String.ofList name ∈ kindNames ∧ (mode.isUnicode ∨ ¬ negated) then some rest else none
    | _ => none
  | _ => none

/-- Goes on past the start of a set, in which hyphens, or else a closing bracket, stand for
themselves. -/
def afterSetStart? (mode : Mode) (cs : List Char) : Option (List Char) :=
  let start (cs : List Char) : List Char := match cs with
    | ']' :: rest => rest
    | _ => cs.dropWhile (· = '-')
  match cs with
  | '^' :: rest => if mode.isUnicode then some (start rest) else none
  | _ => some (start cs)

/-- Goes on past a set, in which so many other sets have been opened. The first number bounds the
parts that are read. -/
def afterSet? (mode : Mode) : Nat → Nat → List Char → Option (List Char)
  | 0, _, _ => none
  | count + 1, depth, cs =>
    match cs with
    | [] => none
    | ']' :: rest => if depth = 0 then some rest else afterSet? mode count (depth - 1) rest
    | '[' :: rest =>
      match afterKind? mode rest with
      | some rest => afterSet? mode count depth rest
      | none => (afterSetStart? mode rest).bind (afterSet? mode count (depth + 1))
    | '&' :: '&' :: rest | '-' :: '-' :: rest | '~' :: '~' :: rest =>
      afterSet? mode count depth rest
    | _ => (afterRange? mode cs).bind (afterSet? mode count depth)

/-- Where the reading of a pattern stands. -/
structure Progress where
  mode : Mode := {}
  /-- The modes outside of the groups that are open, innermost first. -/
  outside : List Mode := []
  /-- The names of groups. -/
  names : List (List Char) := []
  /-- Whether what was read last can be repeated. -/
  repeatable : Bool := false

/-- Whether a group can have this name. -/
def isName : List Char → Bool
  | [] => false
  | c :: rest =>
    let inName (c : Char) : Bool := Text.isAlphanumeric c || c ∈ ['_', '.', '[', ']']
    (c = '_' || (Text.isAlphanumeric c && !c.isDigit)) && rest.all inName

/-- Goes into a group with a name. -/
def enterNamed? (p : Progress) (cs : List Char) : Option (Progress × List Char) :=
  match cs.span (· ≠ '>') with
  | (name, _ :: rest) =>
    if isName name ∧ name ∉ p.names then
      some ({ p with outside := p.mode :: p.outside, names := name :: p.names
                     repeatable := false }, rest)
    else none
  | _ => none

/-- Sets what the letters before a hyphen stand for, and resets what those after it stand for. -/
def Mode.change (mode : Mode) (letters : List Char) : Mode :=
  let (on, off) := letters.span (· ≠ '-')
  { ignoresCase := (mode.ignoresCase || on.contains 'i') && !off.contains 'i'
    isUnicode := (mode.isUnicode || on.contains 'u') && !off.contains 'u' }

/-- Changes the mode for the rest of a group, or goes into a group with another mode. -/
def changeMode? (p : Progress) (cs : List Char) : Option (Progress × List Char) :=
  match cs.span (· ∉ [':', ')']) with
  | (letters, mark :: rest) =>
    if ¬ letters.all (· ∈ ['i', 'm', 's', 'U', 'u', 'R', 'x', '-']) ∨ ¬ letters.Nodup ∨
        letters.getLast? = some '-' then none
    else
      let mode := p.mode.change letters
      if mark = ':' then
        some ({ p with mode, outside := p.mode :: p.outside, repeatable := false }, rest)
      else if letters = [] then none
      else some ({ p with mode, repeatable := false }, rest)
  | _ => none

/-- Goes into a group, of which the opening parenthesis has been read. Groups that look ahead or
back are unknown. -/
def enter? (p : Progress) (cs : List Char) : Option (Progress × List Char) :=
  match cs with
  | '?' :: 'P' :: '<' :: rest => enterNamed? p rest
  | '?' :: '<' :: rest => enterNamed? p rest
  | '?' :: rest => changeMode? p rest
  | _ => some ({ p with outside := p.mode :: p.outside, repeatable := false }, cs)

/-- Goes out of the innermost group. -/
def leave? (p : Progress) : Option Progress :=
  match p.outside with
  | mode :: outside => some { p with mode, outside, repeatable := true }
  | [] => none

/-- Goes on past the next part of a pattern. -/
def step? (p : Progress) (c : Char) (rest : List Char) : Option (Progress × List Char) :=
  let pass (b : Bool) (rest : List Char) : Option (Progress × List Char) :=
    if b then some ({ p with repeatable := true }, rest) else none
  match c with
  | '?' | '*' | '+' => pass p.repeatable rest
  | '{' => none
  | '|' => some ({ p with repeatable := false }, rest)
  | '(' => enter? p rest
  | ')' => (leave? p).map (·, rest)
  | '[' => ((afterSetStart? p.mode rest).bind (afterSet? p.mode (rest.length + 1) 0)).bind
      (pass p.mode.hasCases)
  | '\\' => (readEscape? p.mode rest).bind fun (atom, rest) =>
      pass (p.mode.hasCases || atom = .kind || atom = .place) rest
  | '.' => pass p.mode.isUnicode rest
  | '^' | '$' => pass true rest
  | _ => pass p.mode.hasCases rest

/-- Whether a pattern goes on and ends as it should. Each part takes a character, so as many parts
as there are characters are enough. -/
def goesOn : Nat → Progress → List Char → Bool
  | _, p, [] => p.outside.isEmpty
  | 0, _, _ => false
  | count + 1, p, c :: rest =>
    match step? p c rest with
    | some (p, rest) => goesOn count p rest
    | none => false

/-- Whether a text is a pattern. -/
def isPattern (cs : List Char) : Bool := goesOn cs.length {} cs

end CertRegistry.Log.Pattern
