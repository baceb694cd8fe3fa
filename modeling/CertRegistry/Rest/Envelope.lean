import CertRegistry.Json.Shape

/-!
# The bodies of answers

Data comes in an envelope that may tell where the list goes on; refusals come with a title and a
message.
-/

namespace CertRegistry.Rest

open Json

structure Paging where
  next : Option String := none
  deriving DecidableEq, Repr

structure Envelope (α : Type) where
  data : α
  link : Option String := none
  paging : Option Paging := none

/-- What is stored under an address, as it is sent. -/
structure EncodedEntry where
  address : String := ""
  data : String := ""
  deriving DecidableEq, Repr

structure Receipt where
  link : String := ""
  deriving DecidableEq, Repr

structure Refusal where
  title : Option String := none
  message : Option String := none
  deriving DecidableEq, Repr

structure RefusalEnvelope where
  error : Refusal := {}
  deriving DecidableEq, Repr

def Paging.shape : Record Paging where
  name := "Paging"
  blank := {}
  members := [.optional "next" (.option .text) fun p v => { p with next := v }]

def Envelope.shape {α : Type} (blank : α) (data : Reader α) : Record (Envelope α) where
  name := "DataEnvelope"
  blank := { data := blank }
  members := [
    .required "data" data fun e v => { e with data := v },
    .optional "link" (.option .text) fun e v => { e with link := v },
    .optional "paging" (.option Paging.shape.reader) fun e v => { e with paging := v }]

/-- Where a list goes on, if it does. -/
def Envelope.next? {α : Type} (envelope : Envelope α) : Option String :=
  (envelope.paging.bind (·.next)).filter (· ≠ "")

def EncodedEntry.shape : Record EncodedEntry where
  name := "RawStateEntry"
  blank := {}
  members := [
    .required "address" .text fun e v => { e with address := v },
    .required "data" .text fun e v => { e with data := v }]

def Receipt.shape : Record Receipt where
  name := "SubmitResponse"
  blank := {}
  members := [.required "link" .text fun r v => { r with link := v }]

def Refusal.shape : Record Refusal where
  name := "ErrorBody"
  blank := {}
  members := [
    .optional "title" (.option .text) fun r v => { r with title := v },
    .optional "message" (.option .text) fun r v => { r with message := v }]

def RefusalEnvelope.shape : Record RefusalEnvelope where
  name := "ErrorEnvelope"
  blank := {}
  members := [.required "error" Refusal.shape.reader fun e v => { e with error := v }]

/-- What a refusal says: its message, or else its title, or else the whole body. -/
def refusalText (body : String) : String :=
  match RefusalEnvelope.shape.reader.parse body with
  | .ok envelope => ((envelope.error.message).or envelope.error.title).getD body
  | .error _ => body

end CertRegistry.Rest
