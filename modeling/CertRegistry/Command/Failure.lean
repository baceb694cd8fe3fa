import CertRegistry.Config
import CertRegistry.Rest.Fault
import CertRegistry.Signer

/-!
# Failures of commands

What can go wrong when a command is carried out, and how it is put for diagnostics: causes by
their names, with what belongs to them in braces or parentheses and texts in quotes.
-/

namespace CertRegistry

/-- A name with what belongs to it in parentheses. -/
def withPayload (name payload : String) : String := name ++ "(" ++ payload ++ ")"

/-- A name with named parts in braces. -/
def withParts (name : String) (parts : List (String × String)) : String :=
  name ++ " \x7b " ++ String.intercalate ", " (parts.map fun (n, v) => n ++ ": " ++ v) ++ " \x7d"

def listText (items : List String) : String := "[" ++ String.intercalate ", " items ++ "]"

namespace ReadFault

/-- The number and the name of a fault of the system, and what it says. -/
def description : ReadFault → String
  | notUtf8 => withParts "Error"
      [("kind", "InvalidData"), ("message", Text.quote "stream did not contain valid UTF-8")]
  | missing => system 2 "NotFound" "No such file or directory"
  | isDirectory => system 21 "IsADirectory" "Is a directory"
  | notDirectory => system 20 "NotADirectory" "Not a directory"
  | longName => system 36 "InvalidFilename" "File name too long"
  | denied => system 13 "PermissionDenied" "Permission denied"
where
  system (code : Nat) (kind message : String) : String :=
    withParts "Os" [("code", toString code), ("kind", kind), ("message", Text.quote message)]

end ReadFault

namespace Config

def Problem.description : Problem → String
  | badUrl endpoint problem =>
    withPayload "InvalidUrl" (Text.quote (Endpoint.complaint endpoint problem))
  | zero setting => withPayload "Zero" (Text.quote setting)
  | empty setting => withPayload "Empty" (Text.quote setting)

def Fault.description : Fault → String
  | unreadable fault => withPayload "Io" fault.description
  | malformed => "Parse"
  | invalid problems => withPayload "Validation" (listText (problems.map (·.description)))

end Config

def KeyError.description (e : KeyError) : String :=
  withPayload (match e with
    | privateKeyNotHex _ | privateKeyMalformed => "InvalidPrivateKey"
    | publicKeyNotHex _ | publicKeyMalformed => "InvalidPublicKey"
    | signatureNotHex _ | signatureMalformed => "InvalidSignature"
    | variableUnset | fileUnreadable .. => "KeyUnavailable") (Text.quote e.detail)

namespace Rest.Fault

/-- The fault, if it is one between the client and the node. -/
def plain (fault : Rest.Fault) : String :=
  match fault with
  | transport fault => withPayload "Http" (Text.quote fault.message)
  | refused status message =>
    withParts "Status" [("code", toString status), ("message", Text.quote message)]
  | badEndpoint endpoint problem => withParts "InvalidUrl"
      [("url", Text.quote endpoint), ("reason", Text.quote problem.reason)]
  | badJson fault body =>
    withPayload "Decode" (Text.quote (fault.message ++ ": " ++ body))
  | badBase64 fault =>
    withPayload "Decode" (Text.quote ("invalid base64 state data: " ++ fault.message))
  | unavailable url tries =>
    withParts "Unavailable" [("url", Text.quote url), ("attempts", toString tries)]
  | stillPending batchId seconds =>
    withParts "Timeout" [("batch_id", Text.quote batchId), ("secs", toString seconds)]
  | badRecord fault => withPayload "Decode" (withParts "DecodeError"
      [("description", Text.quote fault.cause.message),
        ("stack", listText (fault.path.map fun (message, field) =>
          "(" ++ Text.quote message ++ ", " ++ Text.quote field ++ ")"))])
  | noStatus batchId => withPayload "MissingStatus" (Text.quote batchId)
  | waitTooLong | moreToRead => Text.quote fault.message

/-- Whether a fault comes from the registry and not from the exchange with the node. -/
def isOfRegistry : Rest.Fault → Bool
  | badRecord _ | noStatus _ => true
  | _ => false

/-- The fault as a client of the registry meets it. -/
def ofRegistry (fault : Rest.Fault) : String :=
  if fault.isOfRegistry then fault.plain else withPayload "Sawtooth" fault.plain

end Rest.Fault

inductive Failure where
  | config (fault : Config.Fault)
  | key (fault : KeyError)
  /-- A fault in an exchange with the node alone. -/
  | node (fault : Rest.Fault)
  /-- A fault in the use of the registry. -/
  | registry (fault : Rest.Fault)
  | noAgent (publicKey : String)
  | unwritable (fault : ReadFault)
  deriving DecidableEq

def Failure.description : Failure → String
  | config fault => fault.description
  | key fault => fault.description
  | node fault => fault.plain
  | registry fault => fault.ofRegistry
  | noAgent publicKey => Text.quote ("No agent exists: " ++ publicKey)
  | unwritable fault => fault.description

end CertRegistry
