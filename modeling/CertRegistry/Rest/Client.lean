import CertRegistry.Ledger.Envelope
import CertRegistry.Node.Block
import CertRegistry.Node.Status
import CertRegistry.Rest.Session

/-!
# A client of a node

What a client can ask of a node: to take batches, to tell what became of them, and to show its
state and its blocks.
-/

namespace CertRegistry.Rest

/-- A client of the node at a base address, with the time limit of its requests in seconds. -/
structure Client where
  base : String
  timeoutSeconds : Nat
  deriving DecidableEq, Repr

/-- What is stored under an address. -/
structure StateEntry where
  address : String
  data : Bytes
  deriving DecidableEq, Repr

namespace Client

def ofEndpoint (endpoint : String) (timeoutSeconds : Nat) : Except Fault Client :=
  match Endpoint.base endpoint with
  | .ok base => .ok { base, timeoutSeconds }
  | .error problem => .error (.badEndpoint endpoint problem)

/-- The client for diagnostics. -/
def description (client : Client) : String :=
  "RestClient \x7b base_url: " ++ Text.quote client.base ++ ", timeout_secs: " ++
    toString client.timeoutSeconds ++ " \x7d"

/-- The time limits of a request that the node may hold back for so many seconds. -/
def limits (client : Client) (wait : Nat) (deadline : Option Deadline) : Limits :=
  { seconds := client.timeoutSeconds + wait, deadline }

variable {σ : Type} (node : Node σ) (client : Client)

/-- Makes a request for data in an envelope. -/
def requestData {α : Type} (limits : Limits) (resource : Resource) (blank : α)
    (reader : Json.Reader α) (url : String) : Talk σ (Envelope α) :=
  Talk.request node limits resource (Envelope.shape blank reader).reader { url }

/-- Submits batches. The answer is where to ask what became of them. -/
def sendBatches (batches : BatchList) : Talk σ String := do
  let receipt ← Talk.request node (client.limits 0 none) .batches Receipt.shape.reader
    { method := .post, url := client.base ++ "/batches", body := BatchList.schema.encode batches }
  Talk.count .batchesSubmitted batches.batches.length
  return receipt.link

/-- The address under which to ask for the statuses of batches. Ids are put there as they are. -/
def statusesUrl (ids : List String) (wait : Option Nat) : String :=
  client.base ++ "/batch_statuses?id=" ++ String.intercalate "," ids ++
    match wait with
    | some seconds => "&wait=" ++ toString seconds
    | none => ""

/-- Asks what became of batches; the node may wait for so many seconds until that is decided. -/
def statuses (ids : List String) (wait : Option Nat) (deadline : Option Deadline := none) :
    Talk σ (List BatchStatus) := do
  if UInt64.size ≤ client.timeoutSeconds + wait.getD 0 then throw .waitTooLong
  let envelope ← requestData node (client.limits (wait.getD 0) deadline) .batchStatuses []
    (.list BatchStatus.shape.reader) (client.statusesUrl ids wait)
  for status in envelope.data do
    Talk.count (.status status.status) 1
  return envelope.data

def decodeData (data : String) : Except Fault Bytes :=
  match Base64.decode data with
  | .ok octets => .ok octets
  | .error fault => .error (.badBase64 fault)

def decodeEntry (entry : EncodedEntry) : Except Fault StateEntry := do
  return { address := entry.address, data := ← decodeData entry.data }

/-- Reads the page of the state at an address and those that it leads to, as many as the first
argument says at most. -/
def statePages : Nat → String → Talk σ (List StateEntry)
  | 0, _ => throw .moreToRead
  | pages + 1, url => do
    let page ← requestData node (client.limits 0 none) .state []
      (.list EncodedEntry.shape.reader) url
    let entries ← ofExcept (page.data.mapM decodeEntry)
    match page.next? with
    | none => return entries
    | some next => return entries ++ (← statePages pages next)

/-- The address of the part of the state that a prefix names, or of all of it. -/
def stateUrl (subtree : Option String) : String :=
  client.base ++ "/state" ++ match subtree with
    | some start => "?address=" ++ start
    | none => ""

/-- Reads a part of the state, or all of it, in as many pages at most. -/
def listState (pages : Nat) (subtree : Option String) : Talk σ (List StateEntry) :=
  client.statePages node pages (client.stateUrl subtree)

/-- Reads what is stored under an address, if anything is. -/
def readState (address : String) : Talk σ (Option Bytes) := do
  let limits := client.limits 0 none
  let startedAt := (← get).clock
  let result ← Talk.send node limits
    { url := client.base ++ "/state/" ++ address, counted := some .state }
  match result with
  | .ok { status := 404, .. } =>
    Talk.count (.requests .state true) 1
    return none
  | _ =>
    let answer ← Talk.accept limits .state startedAt result
    let envelope ← Talk.decode (Envelope.shape "" .text).reader limits startedAt answer
    return some (← ofExcept (decodeData envelope.data))

def listBlocks : Talk σ (List Block) := do
  let envelope ← requestData node (client.limits 0 none) .blocks []
    (.list Block.shape.reader) (client.base ++ "/blocks")
  return envelope.data

/-- The status of the answer to a request that only shows whether the node is there. -/
def probe (url : String) : Talk σ (Option Nat) := do
  match ← Talk.send node (client.limits 0 none) { url } with
  | .ok answer => return some answer.status
  | .error _ => return none

/-- Whether the node shows its blocks. -/
def isAvailable : Talk σ Bool := do
  return (← client.probe node (client.base ++ "/blocks")) == some 200

/-- Tries from the attempt `attempt` on, `left` times in all, with a delay after each but the
last. -/
def attemptProbe (url : String) (status : Nat) (step : Duration) : Nat → Nat → Talk σ Bool
  | 0, _ => return false
  | left + 1, attempt => do
    if (← client.probe node url) = some status then return true
    if left ≠ 0 then Talk.sleep (linearBackoff (UInt32.ofNat attempt) step).toMillis
    attemptProbe url status step left (attempt + 1)

/-- Waits until an address answers with a status, for so many attempts. -/
def waitForStatus (url : String) (status : Nat) (tries : UInt32) (step : Duration) :
    Talk σ Unit := do
  if ← client.attemptProbe node url status step tries.toNat 1 then return
  else throw (.unavailable url tries.toNat)

/-- Waits until the node at an endpoint shows its blocks. -/
def waitForNode (endpoint : String) (tries : UInt32) (step : Duration) : Talk σ Unit := do
  match Endpoint.base endpoint with
  | .ok base => client.waitForStatus node (base ++ "/blocks") 200 tries step
  | .error problem => throw (.badEndpoint endpoint problem)

end Client

end CertRegistry.Rest
