import CertRegistry.Json.Printer
import CertRegistry.Json.Shape

/-!
# The status of a batch

What a node says about a batch: whether it has been decided on, and which of its transactions were
refused.
-/

namespace CertRegistry

inductive StatusKind where
  | committed
  | invalid
  | pending
  | unknown
  deriving DecidableEq, Repr

namespace StatusKind

def name : StatusKind → String
  | committed => "COMMITTED"
  | invalid => "INVALID"
  | pending => "PENDING"
  | unknown => "UNKNOWN"

def all : List StatusKind := [committed, invalid, pending, unknown]

/-- Whether the node has decided on the batch. -/
def isFinal : StatusKind → Bool
  | committed | invalid => true
  | pending | unknown => false

def reader : Json.Reader StatusKind := .choice (all.map fun kind => (kind.name, kind))

end StatusKind

/-- A transaction that the node refused. -/
structure InvalidTransaction where
  id : String := ""
  message : String := ""
  extendedData : Option String := none
  deriving DecidableEq, Repr

structure BatchStatus where
  id : String := ""
  status : StatusKind := .unknown
  invalidTransactions : List InvalidTransaction := []
  deriving DecidableEq, Repr

open Json

def InvalidTransaction.shape : Record InvalidTransaction where
  name := "InvalidTransaction"
  blank := {}
  members := [
    .required "id" .text fun t v => { t with id := v },
    .optional "message" .text fun t v => { t with message := v },
    .optional "extended_data" (.option .text) fun t v => { t with extendedData := v }]

def InvalidTransaction.toJson (t : InvalidTransaction) : Value :=
  .record ([("id", .text t.id), ("message", .text t.message)] ++
    match t.extendedData with
    | some data => [("extended_data", .text data)]
    | none => [])

namespace BatchStatus

/-- The message of the first refused transaction. -/
def firstMessage? (s : BatchStatus) : Option String :=
  s.invalidTransactions.head?.map (·.message)

def shape : Record BatchStatus where
  name := "BatchStatus"
  blank := {}
  members := [
    .required "id" .text fun s v => { s with id := v },
    .required "status" StatusKind.reader fun s v => { s with status := v },
    .optional "invalid_transactions" (.list InvalidTransaction.shape.reader)
      fun s v => { s with invalidTransactions := v }]

def toJson (s : BatchStatus) : Value :=
  .record [("id", .text s.id), ("status", .text s.status.name),
    ("invalid_transactions", .list (s.invalidTransactions.map (·.toJson)))]

end BatchStatus

end CertRegistry
