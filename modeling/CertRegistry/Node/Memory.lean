import CertRegistry.Bytes.Base64
import CertRegistry.Json.Printer
import CertRegistry.Ledger.Envelope
import CertRegistry.Node.Status
import CertRegistry.Registry.Action
import CertRegistry.Registry.Address
import CertRegistry.Rest.Message

/-!
# A node in memory

A node that takes every batch at once and keeps its state in memory. It applies the rules of
the registry: an agent has a name, and no two agents have the same public key. Signatures are
not checked.
-/

namespace CertRegistry

/-- The state of a node in memory. -/
structure Ledger where
  /-- What is stored, in the order of the addresses. -/
  state : List (String × Bytes) := []
  /-- The statuses of the batches that came in, the last one first. -/
  statuses : List BatchStatus := []
  /-- The number of batches that came in. -/
  height : Nat := 0
  deriving DecidableEq, Repr

namespace Ledger

/-- Sets what is stored under an address. -/
def put (address : String) (data : Bytes) : List (String × Bytes) → List (String × Bytes)
  | [] => [(address, data)]
  | (a, d) :: rest =>
    if address = a then (address, data) :: rest
    else if address < a then (address, data) :: (a, d) :: rest
    else (a, d) :: put address data rest

/-- Why a transaction is not applied. -/
inductive Objection where
  | badHeader
  | badAction (rejection : Action.Rejection)
  | noName
  | agentExists (publicKey : String)
  deriving DecidableEq

def Objection.message : Objection → String
  | badHeader => "Invalid transaction header"
  | badAction rejection => rejection.message
  | noName => "Name was not provided"
  | agentExists publicKey => "Agent already exists: " ++ publicKey

/-- The agents under an address; what cannot be read counts as none. -/
def agentsAt (state : List (String × Bytes)) (address : String) : List Agent :=
  match state.lookup address with
  | some data => ((AgentContainer.schema.decode data).toOption.getD {}).entries
  | none => []

/-- The state after an agent is added under the address of its key. -/
def addAgent (state : List (String × Bytes)) (agent : Agent) :
    Except Objection (List (String × Bytes)) :=
  let address := Address.ofAgent agent.publicKey
  let agents := agentsAt state address
  if agents.any (·.publicKey = agent.publicKey) then .error (.agentExists agent.publicKey)
  else .ok (put address (AgentContainer.schema.encode { entries := agents ++ [agent] }) state)

/-- The state after a transaction. -/
def apply (state : List (String × Bytes)) (transaction : Transaction) :
    Except Objection (List (String × Bytes)) :=
  match TransactionHeader.schema.decode transaction.header with
  | .error _ => .error .badHeader
  | .ok header =>
    match Action.decode transaction.payload with
    | .error rejection => .error (.badAction rejection)
    | .ok (.createAgent none _) => .error .noName
    | .ok (.createAgent (some name) timestamp) =>
      addAgent state { publicKey := header.signerPublicKey, name, timestamp }

/-- The state after transactions up to the first that is not applied, and that one with the
reason. -/
def applyAll (state : List (String × Bytes)) :
    List Transaction → List (String × Bytes) × Option (Transaction × Objection)
  | [] => (state, none)
  | transaction :: rest =>
    match apply state transaction with
    | .ok state => applyAll state rest
    | .error objection => (state, some (transaction, objection))

/-- The ledger after a batch. What was applied before an objection stays. -/
def submit (ledger : Ledger) (batch : Batch) : Ledger :=
  let (state, failed) := applyAll ledger.state batch.transactions
  let status : BatchStatus := match failed with
    | none => { id := batch.headerSignature, status := .committed }
    | some (transaction, objection) =>
      { id := batch.headerSignature, status := .invalid
        invalidTransactions := [
          { id := transaction.headerSignature, message := objection.message
            extendedData := some "" }] }
  { state, statuses := status :: ledger.statuses, height := ledger.height + 1 }

/-- The status of a batch: the last one that was recorded. -/
def statusOf (ledger : Ledger) (id : String) : BatchStatus :=
  (ledger.statuses.find? (·.id = id)).getD { id, status := .unknown }

open Json

/-- An answer that refuses a request. -/
def refusal (code : Nat) (title : String) : Nat × Value :=
  (code, .record [("error",
    .record [("code", .number (.natural code)), ("title", .text title), ("message", .text title)])])

def takeBatches (ledger : Ledger) (body : Bytes) : (Nat × Value) × Ledger :=
  match BatchList.schema.decode body with
  | .error _ => (refusal 400 "Submitted Batches Invalid", ledger)
  | .ok list =>
    let ids := list.batches.map (·.headerSignature)
    ((202, .record [("link", .text ("/batch_statuses?id=" ++ String.intercalate "," ids))]),
      list.batches.foldl submit ledger)

/-- The parameters of a query. -/
def parameters (query : List Char) : List (String × String) :=
  (query.splitOn '&').filterMap fun part =>
    match part.span (· ≠ '=') with
    | (name, _ :: value) => some (String.ofList name, String.ofList value)
    | (_, []) => none

/-- The last parameter with a name. -/
def parameter? (query : List Char) (name : String) : Option String :=
  (parameters query).reverse.lookup name

def showStatuses (ledger : Ledger) (query : List Char) : Nat × Value :=
  match (parameter? query "id").filter (· ≠ "") with
  | none => refusal 400 "Missing Id Query"
  | some ids =>
    let asked := (ids.toList.splitOn ',').map String.ofList
    (200, .record [("data", .list (asked.map fun id => (ledger.statusOf id).toJson))])

def showBlocks (ledger : Ledger) : Nat × Value :=
  let height := toString ledger.height
  let block := Value.record [("header_signature", .text ("block" ++ height)),
    ("header", .record [("block_num", .text height)])]
  (200, .record [("data", .list [block]), ("link", .text "/blocks")])

def listState (ledger : Ledger) (query : List Char) : Nat × Value :=
  let start := ((parameter? query "address").getD "").toList
  let entries := ledger.state.filter fun (address, _) => start.isPrefixOf address.toList
  (200, .record [("data", .list (entries.map fun (address, data) =>
    .record [("address", .text address), ("data", .text (Base64.encode data))])),
    ("paging", .record [])])

def showState (ledger : Ledger) (address : String) : Nat × Value :=
  match ledger.state.lookup address with
  | some data => (200, .record [("data", .text (Base64.encode data))])
  | none => refusal 404 "State Not Found"

/-- The address that a path below the state leads to. -/
def stateAddress? (path : List Char) : Option String :=
  let start := "/state/".toList
  if start.isPrefixOf path then some (String.ofList (path.drop start.length)) else none

/-- What the node answers to a request, and the ledger after it. -/
def handle (ledger : Ledger) (request : Rest.Request) : (Nat × Value) × Ledger :=
  let query := request.url.query.getD []
  match request.method, String.ofList request.url.path with
  | .get, "/blocks" => (ledger.showBlocks, ledger)
  | .post, "/batches" => ledger.takeBatches request.body
  | .get, "/batch_statuses" => (ledger.showStatuses query, ledger)
  | .get, "/state" => (ledger.listState query, ledger)
  | .get, _ =>
    match stateAddress? request.url.path with
    | some address => (ledger.showState address, ledger)
    | none => (refusal 404 "Not Found", ledger)
  | _, _ => (refusal 404 "Not Found", ledger)

/-- The node that keeps a ledger. It answers at once. -/
def node : Rest.Node Ledger where
  reply ledger request :=
    let ((status, body), ledger) := ledger.handle request
    (.answer 0 { status, body := { octets := some (Bytes.ofText body.compact) } }, ledger)

end Ledger

end CertRegistry
