import CertRegistry.Text.Printable

/-!
# Quoted text for diagnostics

Texts and characters as diagnostics show them: in quotes, with the common controls, the quote in
use and the backslash escaped by a letter, and other characters without a sign written by their
code.
-/

namespace CertRegistry.Text

/-- A code point in lowercase hexadecimal, without leading zeros. -/
def codeDigits (c : Char) : List Char := Nat.toDigits 16 c.toNat

/-- A character as it stands between quotes of the given kind. -/
def escapeIn (quote c : Char) : List Char :=
  if c = '\x00' then ['\\', '0']
  else if c = '\t' then ['\\', 't']
  else if c = '\n' then ['\\', 'n']
  else if c = '\r' then ['\\', 'r']
  else if c = '\\' ∨ c = quote then ['\\', c]
  else if isPrintable c then [c]
  else ['\\', 'u', '{'] ++ codeDigits c ++ ['}']

/-- The text in double quotes. -/
def quote (s : String) : String :=
  String.ofList ('"' :: s.toList.flatMap (escapeIn '"') ++ ['"'])

/-- The character in single quotes. -/
def quoteChar (c : Char) : String :=
  String.ofList ('\'' :: escapeIn '\'' c ++ ['\''])

end CertRegistry.Text
