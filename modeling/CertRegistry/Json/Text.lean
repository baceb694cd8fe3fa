import CertRegistry.Json.Cursor
import CertRegistry.Text.Digits

/-!
# Texts in JSON

Reading what stands between two quotes, with escapes by letter and by code, of which those above
the first 65536 characters come in pairs.
-/

namespace CertRegistry.Json

/-- Four hexadecimal digits. -/
def readHexCode (cur : Cursor) : Except Fault (Nat × Cursor) :=
  match cur.rest.take 4 |>.mapM Text.hexDigit? with
  | some [a, b, c, d] => .ok (((a * 16 + b) * 16 + c) * 16 + d, cur.passOctets 4)
  | _ =>
    let ahead := cur.passOctets 4
    if cur.shorterThan 4 then ahead.fail .endOfText else ahead.fail .invalidEscape

/-- Goes on past the next character if that is `expected`. -/
def readInCodePair (expected : Char) (cur : Cursor) : Except Fault Cursor :=
  match cur.rest with
  | [] => cur.fail .endOfText
  | c :: _ => if c = expected then .ok (cur.pass c) else cur.failAhead .endOfHexEscape

/-- The character whose code, or pair of codes, follows. -/
def readCode (cur : Cursor) : Except Fault (Char × Cursor) := do
  let (high, cur) ← readHexCode cur
  if 0xDC00 ≤ high ∧ high ≤ 0xDFFF then cur.fail .loneSurrogate
  else if high < 0xD800 ∨ 0xDBFF < high then return (Char.ofNat high, cur)
  else
    let cur ← readInCodePair '\\' cur
    let cur ← readInCodePair 'u' cur
    let (low, cur) ← readHexCode cur
    if 0xDC00 ≤ low ∧ low ≤ 0xDFFF then
      return (Char.ofNat (0x10000 + (high - 0xD800) * 0x400 + (low - 0xDC00)), cur)
    else cur.fail .loneSurrogate

/-- The character that a letter after a backslash stands for. -/
def escapedChar? : Char → Option Char
  | '"' => some '"'
  | '\\' => some '\\'
  | '/' => some '/'
  | 'b' => some '\x08'
  | 'f' => some '\x0c'
  | 'n' => some '\n'
  | 'r' => some '\r'
  | 't' => some '\t'
  | _ => none

/-- The character that the escape after a backslash stands for. -/
def readEscape (cur : Cursor) : Except Fault (Char × Cursor) :=
  match cur.rest with
  | [] => cur.fail .endOfText
  | c :: _ =>
    if c = 'u' then readCode (cur.pass c)
    else
      match escapedChar? c with
      | some d => .ok (d, cur.pass c)
      | none => cur.failAhead .invalidEscape

/-- Reads up to the closing quote; `seen` holds the characters before, the last one first. Each
step takes a character, so as many steps as there are characters are enough. -/
def readTextFrom : Nat → List Char → Cursor → Except Fault (String × Cursor)
  | 0, _, cur => cur.fail .endOfText
  | count + 1, seen, cur =>
    match cur.rest with
    | [] => cur.fail .endOfText
    | c :: _ =>
      if c = '"' then .ok (String.ofList seen.reverse, cur.pass c)
      else if c = '\\' then
        match readEscape (cur.pass c) with
        | .ok (d, cur) => readTextFrom count (d :: seen) cur
        | .error fault => .error fault
      else if c.toNat < 0x20 then cur.failAhead .controlCharacter
      else readTextFrom count (c :: seen) (cur.pass c)

/-- The text up to the closing quote. -/
def readText (cur : Cursor) : Except Fault (String × Cursor) :=
  readTextFrom cur.rest.length [] cur

/-- Skips the escape after a backslash. Codes need not make up characters. -/
def skipEscape (cur : Cursor) : Except Fault Cursor :=
  match cur.rest with
  | [] => cur.fail .endOfText
  | c :: _ =>
    if c = 'u' then (·.2) <$> readHexCode (cur.pass c)
    else if (escapedChar? c).isSome then .ok (cur.pass c)
    else cur.failAhead .invalidEscape

def skipTextFrom : Nat → Cursor → Except Fault Cursor
  | 0, cur => cur.fail .endOfText
  | count + 1, cur =>
    match cur.rest with
    | [] => cur.fail .endOfText
    | c :: _ =>
      if c = '"' then .ok (cur.pass c)
      else if c = '\\' then
        match skipEscape (cur.pass c) with
        | .ok cur => skipTextFrom count cur
        | .error fault => .error fault
      else if c.toNat < 0x20 then cur.fail .controlCharacter
      else skipTextFrom count (cur.pass c)

/-- Skips up to the closing quote. -/
def skipText (cur : Cursor) : Except Fault Cursor := skipTextFrom cur.rest.length cur

end CertRegistry.Json
