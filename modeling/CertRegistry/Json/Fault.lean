/-!
# Faults of JSON texts

What can be wrong with a text that should hold a certain value, where, and how that is put into
words.
-/

namespace CertRegistry.Json

inductive Complaint where
  | endOfValue
  | endOfList
  | endOfObject
  | endOfText
  | expectedColon
  | expectedListCommaOrEnd
  | expectedObjectCommaOrEnd
  | expectedValue
  | expectedIdent
  | invalidEscape
  | invalidNumber
  | numberOutOfRange
  | loneSurrogate
  | endOfHexEscape
  | controlCharacter
  | keyNotText
  | trailingComma
  | trailingCharacters
  | tooDeep
  | missingField (name : String)
  | duplicateField (name : String)
  | unknownVariant (name : String) (known : List String)
  /-- What was found and what was expected, both in words. -/
  | wrongType (found expected : String)
  | wrongLength (found : Nat) (expected : String)
  deriving DecidableEq, Repr

/-- A complaint and the place up to which the text was read: the number of the line and the
count of octets in it. -/
structure Fault where
  complaint : Complaint
  line : Nat
  column : Nat
  deriving DecidableEq, Repr

/-- A name between grave accents. -/
def accented (name : String) : String := "\x60" ++ name ++ "\x60"

def Complaint.message : Complaint → String
  | endOfValue => "EOF while parsing a value"
  | endOfList => "EOF while parsing a list"
  | endOfObject => "EOF while parsing an object"
  | endOfText => "EOF while parsing a string"
  | expectedColon => "expected \x60:\x60"
  | expectedListCommaOrEnd => "expected \x60,\x60 or \x60]\x60"
  | expectedObjectCommaOrEnd => "expected \x60,\x60 or \x60\x7d\x60"
  | expectedValue => "expected value"
  | expectedIdent => "expected ident"
  | invalidEscape => "invalid escape"
  | invalidNumber => "invalid number"
  | numberOutOfRange => "number out of range"
  | loneSurrogate => "lone leading surrogate in hex escape"
  | endOfHexEscape => "unexpected end of hex escape"
  | controlCharacter => "control character (\\u0000-\\u001F) found while parsing a string"
  | keyNotText => "key must be a string"
  | trailingComma => "trailing comma"
  | trailingCharacters => "trailing characters"
  | tooDeep => "recursion limit exceeded"
  | missingField name => "missing field " ++ accented name
  | duplicateField name => "duplicate field " ++ accented name
  | unknownVariant name known =>
    "unknown variant " ++ accented name ++ ", expected one of " ++
      String.intercalate ", " (known.map accented)
  | wrongType found expected => "invalid type: " ++ found ++ ", expected " ++ expected
  | wrongLength found expected =>
    "invalid length " ++ toString found ++ ", expected " ++ expected

def Fault.message (fault : Fault) : String :=
  fault.complaint.message ++ " at line " ++ toString fault.line ++ " column " ++
    toString fault.column

end CertRegistry.Json
