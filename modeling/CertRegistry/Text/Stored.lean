import CertRegistry.Bytes

/-!
# Stored texts

Texts that come from files and from variables of the environment, as octets that need not be
UTF-8.
-/

namespace CertRegistry

/-- Why a file yields no text. -/
inductive ReadFault where
  | missing
  | notUtf8
  | isDirectory
  | notDirectory
  | longName
  | denied
  deriving DecidableEq, Repr

namespace ReadFault

def message : ReadFault → String
  | missing => "No such file or directory (os error 2)"
  | notUtf8 => "stream did not contain valid UTF-8"
  | isDirectory => "Is a directory (os error 21)"
  | notDirectory => "Not a directory (os error 20)"
  | longName => "File name too long (os error 36)"
  | denied => "Permission denied (os error 13)"

end ReadFault

/-- What a path leads to. -/
abbrev FileContent := Except ReadFault Bytes

/-- The text of a file. -/
def FileContent.text (content : FileContent) : Except ReadFault String :=
  match content with
  | .error fault => .error fault
  | .ok octets =>
    match Bytes.text? octets with
    | some text => .ok text
    | none => .error .notUtf8

end CertRegistry
