import CertRegistry.Config
import CertRegistry.Registry.Action
import CertRegistry.Rest.Client
import CertRegistry.Rest.Redirect

/-!
# A client of the registry

Agents are created by batches of one transaction and read from the state. Nonces come from
outside.
-/

namespace CertRegistry

open Rest

structure RegistryClient where
  rest : Rest.Client
  family : Family
  /-- How many seconds the node may wait before it tells the status of a batch. -/
  statusWaitSeconds : Nat
  deriving DecidableEq, Repr

namespace RegistryClient

def ofConfig (config : Config) : Except Rest.Fault RegistryClient := do
  let rest ← Client.ofEndpoint config.node.url config.node.timeoutSeconds
  return { rest, family := config.family, statusWaitSeconds := config.polling.statusWaitSeconds }

variable {σ : Type} (node : Node σ) (client : RegistryClient)

/-- The batch that asks for an action. -/
def batch (signer : Signer) (nonce : Bytes) (action : Action) (inputs outputs : List String) :
    Batch :=
  Batch.ofOrder client.family signer nonce { payload := action.encode, inputs, outputs }

/-- Submits a batch for an action and asks what became of it. -/
def submit (signer : Signer) (nonce : Bytes) (action : Action) (inputs outputs : List String) :
    Talk σ (List BatchStatus) := do
  let batch := client.batch signer nonce action inputs outputs
  let _ ← client.rest.sendBatches node { batches := [batch] }
  client.rest.statuses node [batch.headerSignature] (some client.statusWaitSeconds)

/-- Registers the signer as an agent. The only address that this touches is that of the agent. -/
def createAgent (signer : Signer) (nonce : Bytes) (name : Option String) (timestamp : UInt64) :
    Talk σ (List BatchStatus) :=
  let address := Address.ofAgent signer.publicKeyHex
  client.submit node signer nonce (.createAgent name timestamp) [address] [address]

/-- How many milliseconds there are for a request of a registration, wherever it leads. -/
def patience (request : Request) : Nat :=
  match request.method with
  | .post => 1000 * (client.rest.limits 0 none).seconds
  | .get => 1000 * (client.rest.limits client.statusWaitSeconds none).seconds

/-- What a client that registers finds at a server. -/
def nodeAt (server : Server σ) : Node σ := server.following client.patience

/-- The time between two polls, in milliseconds. -/
def pollInterval : Nat := 500

/-- Polls from the one numbered `poll` on, `left` of them at most, until the node has decided on a
batch. Polls are due at fixed times after `start`; one that is late is made at once. -/
def pollFrom (batchId : String) (wait : Nat) (deadline : Deadline) (start : Nat) :
    Nat → Nat → Talk σ BatchStatus
  | 0, _ => do
    Talk.sleepUntil deadline.time
    throw deadline.fault
  | left + 1, poll => do
    Talk.sleepUntil (start + pollInterval * poll)
    let statuses ← client.rest.statuses node [batchId] (some wait) (some deadline)
    match statuses.find? (·.id = batchId) with
    | none => throw (.noStatus batchId)
    | some status =>
      if status.status.isFinal then return status
      else pollFrom batchId wait deadline start left (poll + 1)

/-- Waits until the node has decided on a batch, but no longer than so many seconds. No poll is
due later than that. -/
def waitForCommit (batchId : String) (seconds : Nat) : Talk σ BatchStatus := do
  let start := (← get).clock
  let deadline : Deadline :=
    { time := start + 1000 * seconds, fault := .stillPending batchId seconds }
  client.pollFrom node batchId (min client.statusWaitSeconds seconds) deadline start
    (1000 * seconds / pollInterval + 1) 0

/-- The agents in entries of the state. -/
def agentsOf (entries : List StateEntry) : Except Rest.Fault (List Agent) := do
  let containers ← entries.mapM fun entry =>
    match AgentContainer.schema.decode entry.data with
    | .ok container => .ok container
    | .error fault => .error (.badRecord fault)
  return containers.flatMap (·.entries)

/-- The agent with a public key, if there is one, from as many pages of the state at most. -/
def fetchAgent (pages : Nat) (publicKey : String) : Talk σ (Option Agent) := do
  let entries ← client.rest.listState node pages (some (Address.ofAgent publicKey))
  let agents ← ofExcept (agentsOf entries)
  return agents.find? (·.publicKey = publicKey)

/-- All agents, from as many pages of the state at most. -/
def listAgents (pages : Nat) : Talk σ (List Agent) := do
  let entries ← client.rest.listState node pages (some (Address.typePrefix .agent))
  ofExcept (agentsOf entries)

end RegistryClient

end CertRegistry
