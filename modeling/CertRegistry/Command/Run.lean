import CertRegistry.Command.Failure
import CertRegistry.Command.Help
import CertRegistry.Json.Printer
import CertRegistry.Registry.Client

/-!
# Carrying out commands

A command is carried out in surroundings that say what files and variables hold and what time
it is, and against a node. What it prints and writes is its outcome.
-/

namespace CertRegistry

/-- What a command finds around it. -/
structure Surroundings where
  file : String → FileContent
  /-- Why a file cannot be written, if it cannot. -/
  unwritable? : String → Option ReadFault
  urlVariable : Option Bytes := none
  keyVariable : Option Bytes := none
  /-- The current time in seconds. -/
  now : UInt64
  /-- A key that nobody knows. -/
  freshKey : Signer
  /-- Octets that were never used before. -/
  freshNonce : Bytes
  /-- How many pages of a list to read at most. -/
  pages : Nat

structure Outcome where
  exitCode : Nat
  stdout : String := ""
  stderr : String := ""
  /-- The file that was written and its content. -/
  written : Option (String × String) := none
  deriving DecidableEq, Repr

namespace Outcome

def printed (value : Json.Value) : Outcome := { exitCode := 0, stdout := value.pretty ++ "\n" }

/-- The outcome of a command that failed. A wait that no duration can express ends the program. -/
def ofFailure (failure : Failure) : Outcome :=
  match failure with
  | .node .waitTooLong | .registry .waitTooLong =>
    { exitCode := 101, stderr := Rest.Fault.waitTooLong.message ++ "\n" }
  | _ => { exitCode := 1, stderr := "Error: " ++ failure.description ++ "\n" }

def ofUsage : Usage → Outcome
  | .help topic => { exitCode := 0, stdout := topic.page }
  | .wrong => { exitCode := 2, stderr := Topic.all.page }

end Outcome

/-- An agent as it is printed. -/
def Agent.toJson (agent : Agent) : Json.Value :=
  .record [("public_key", .text agent.publicKey), ("name", .text agent.name),
    ("organization_id", .text agent.organizationId),
    ("timestamp", .number (.natural agent.timestamp.toNat))]

/-- Statuses as they are printed. -/
def BatchStatus.listJson (statuses : List BatchStatus) : Json.Value :=
  .list (statuses.map (·.toJson))

namespace Invocation

/-- The configuration in effect: the file or the defaults, then the variable of the
environment, then the command line. It is checked after each of them. -/
def configuration (invocation : Invocation) (around : Surroundings) :
    Except Config.Fault Config := do
  let config ← match invocation.config with
    | some path => Config.load (around.file path)
    | none => pure {}
  let config ← config.override around.urlVariable
  match invocation.url with
  | some url => (config.withUrl url).check
  | none => return config

end Invocation

namespace Command

variable {σ : Type}

/-- The outcome of a conversation with a node. -/
def converse {α : Type} (toFailure : Rest.Fault → Failure) (talk : Rest.Talk σ α) (start : σ) :
    Except Failure α :=
  match (talk.run.run { node := start }).1 with
  | .ok a => .ok a
  | .error fault => .error (toFailure fault)

/-- The key to sign with: that in a file, or else that in the environment. -/
def signer (around : Surroundings) (keyFile : Option String) : Except Failure Signer :=
  match keyFile with
  | some path => (Signer.ofFile path (around.file path)).mapError Failure.key
  | none => (Signer.ofVariable around.keyVariable).mapError Failure.key

/-- Prints a new key or writes its private half to a file. -/
def generate (around : Surroundings) (output : Option String) : Except Failure Outcome :=
  let key := around.freshKey
  let publicHalf := ("public_key", Json.Value.text key.publicKeyHex)
  match output with
  | none => .ok (.printed
      (.record [publicHalf, ("private_key", .text key.privateKeyHex)]))
  | some path =>
    match around.unwritable? path with
    | some fault => .error (.unwritable fault)
    | none => .ok
        { Outcome.printed (.record [publicHalf]) with
          written := some (path, key.privateKeyHex ++ "\n") }

/-- Carries out a command with a configuration. -/
def run (node : Rest.Node σ) (start : σ) (around : Surroundings) (config : Config) :
    Command → Except Failure Outcome
  | .keygen output => generate around output
  | .wait tries => do
    let client ← (RegistryClient.ofConfig config).mapError Failure.registry
    let tries := UInt32.ofNat (tries.getD config.polling.tries)
    let step := Duration.ofMillis config.polling.backoffMillis
    let () ← converse .node (client.rest.waitForNode node config.node.url tries step) start
    return .printed (.record [("available", .bool true)])
  | .createAgent name timestamp keyFile => do
    let signer ← signer around keyFile
    let client ← (RegistryClient.ofConfig config).mapError Failure.registry
    let statuses ← converse .registry (client.createAgent node signer around.freshNonce (some name)
      (timestamp.getD around.now)) start
    return .printed (BatchStatus.listJson statuses)
  | .agent publicKey => do
    let client ← (RegistryClient.ofConfig config).mapError Failure.registry
    match ← converse .registry (client.fetchAgent node around.pages publicKey) start with
    | some found => return .printed found.toJson
    | none => throw (.noAgent publicKey)
  | .agents => do
    let client ← (RegistryClient.ofConfig config).mapError Failure.registry
    let agents ← converse .registry (client.listAgents node around.pages) start
    return .printed (.list (agents.map (·.toJson)))
  | .status batchIds => do
    let client ← (RegistryClient.ofConfig config).mapError Failure.registry
    let statuses ← converse .node
      (client.rest.statuses node batchIds (some config.polling.statusWaitSeconds)) start
    return .printed (BatchStatus.listJson statuses)

end Command

/-- The outcome of a command line. -/
def Outcome.ofArguments {σ : Type} (node : Rest.Node σ) (start : σ) (around : Surroundings)
    (arguments : List String) : Outcome :=
  match Invocation.parse arguments with
  | .error usage => .ofUsage usage
  | .ok invocation =>
    match invocation.configuration around with
    | .error fault => .ofFailure (.config fault)
    | .ok config =>
      match invocation.command.run node start around config with
      | .ok outcome => outcome
      | .error failure => .ofFailure failure

end CertRegistry
