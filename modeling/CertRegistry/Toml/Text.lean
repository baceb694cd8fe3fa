import CertRegistry.Text.Digits
import CertRegistry.Toml.Line

/-!
# Texts in TOML

A text stands between double quotes, with escapes, or between single quotes, without; three
quotes of a kind enclose a text of several lines. A backslash at the end of a line of such a
text joins the next line to it.
-/

namespace CertRegistry.Toml

/-- What a letter after a backslash stands for. -/
def escaped? : Char → Option Char
  | 'b' => some '\x08'
  | 't' => some '\t'
  | 'n' => some '\n'
  | 'f' => some '\x0c'
  | 'r' => some '\r'
  | '"' => some '"'
  | '\\' => some '\\'
  | _ => none

/-- The text up to the closing double quote and what follows it. -/
def basic? : List Char → Option (List Char × List Char)
  | '"' :: rest => some ([], rest)
  | '\\' :: 'u' :: a :: b :: c :: d :: rest => do
    let x ← Text.codePoint? [a, b, c, d]
    let (cs, rest) ← basic? rest
    return (x :: cs, rest)
  | '\\' :: 'U' :: a :: b :: c :: d :: e :: f :: g :: h :: rest => do
    let x ← Text.codePoint? [a, b, c, d, e, f, g, h]
    let (cs, rest) ← basic? rest
    return (x :: cs, rest)
  | '\\' :: c :: rest => do
    let x ← escaped? c
    let (cs, rest) ← basic? rest
    return (x :: cs, rest)
  | c :: rest =>
    if isControl c ∨ c = '\\' then none
    else do
      let (cs, rest) ← basic? rest
      return (c :: cs, rest)
  | [] => none

/-- The text up to the closing single quote and what follows it. -/
def literal? : List Char → Option (List Char × List Char)
  | '\'' :: rest => some ([], rest)
  | c :: rest =>
    if isControl c then none
    else do
      let (cs, rest) ← literal? rest
      return (c :: cs, rest)
  | [] => none

/-- What follows the three quotes that close a text: up to two more belong to the text. -/
def closing (quote : Char) (rest : List Char) : List Char × List Char :=
  match rest with
  | a :: b :: more =>
    if a = quote then if b = quote then ([a, b], more) else ([a], b :: more) else ([], rest)
  | [a] => if a = quote then ([a], []) else ([], rest)
  | [] => ([], [])

/-- The text of several lines up to the closing double quotes; `joining` says that blanks and
line ends are being left out. -/
def basicLines? : Bool → List Char → Option (List Char × List Char)
  | _, '"' :: '"' :: '"' :: rest => some (closing '"' rest)
  | _, '\\' :: 'u' :: a :: b :: c :: d :: rest => do
    let x ← Text.codePoint? [a, b, c, d]
    let (cs, rest) ← basicLines? false rest
    return (x :: cs, rest)
  | _, '\\' :: 'U' :: a :: b :: c :: d :: e :: f :: g :: h :: rest => do
    let x ← Text.codePoint? [a, b, c, d, e, f, g, h]
    let (cs, rest) ← basicLines? false rest
    return (x :: cs, rest)
  | _, '\\' :: c :: rest =>
    if (passNewline? (skipBlanks (c :: rest))).isSome then basicLines? true (c :: rest)
    else do
      let x ← escaped? c
      let (cs, rest) ← basicLines? false rest
      return (x :: cs, rest)
  | joining, '\r' :: '\n' :: rest => do
    let (cs, rest) ← basicLines? joining rest
    return (if joining then cs else '\n' :: cs, rest)
  | joining, '\n' :: rest => do
    let (cs, rest) ← basicLines? joining rest
    return (if joining then cs else '\n' :: cs, rest)
  | joining, c :: rest =>
    if joining ∧ isBlank c then basicLines? true rest
    else if isControl c ∨ c = '\\' then none
    else do
      let (cs, rest) ← basicLines? false rest
      return (c :: cs, rest)
  | _, [] => none

/-- The text of several lines up to the closing single quotes. -/
def literalLines? : List Char → Option (List Char × List Char)
  | '\'' :: '\'' :: '\'' :: rest => some (closing '\'' rest)
  | '\r' :: '\n' :: rest => do
    let (cs, rest) ← literalLines? rest
    return ('\n' :: cs, rest)
  | c :: rest =>
    if isControl c ∧ c ≠ '\n' then none
    else do
      let (cs, rest) ← literalLines? rest
      return (c :: cs, rest)
  | [] => none

/-- A line end right after the opening quotes is no part of the text. -/
def afterOpening (cs : List Char) : List Char := (passNewline? cs).getD cs

/-- The text that starts here and what follows it. -/
def text? (cs : List Char) : Option (String × List Char) := do
  let (text, rest) ← match cs with
    | '"' :: '"' :: '"' :: rest => basicLines? false (afterOpening rest)
    | '"' :: rest => basic? rest
    | '\'' :: '\'' :: '\'' :: rest => literalLines? (afterOpening rest)
    | '\'' :: rest => literal? rest
    | _ => none
  return (String.ofList text, rest)

end CertRegistry.Toml
