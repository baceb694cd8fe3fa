import CertRegistry.Wire.Schema

/-!
# The records of the registry

Agents as they are stored under an address of the ledger, and the payload that asks for a change.
-/

namespace CertRegistry

open Wire

/-- A person or system that acts for an organization, known by a public key. -/
structure Agent where
  publicKey : String := ""
  name : String := ""
  organizationId : String := ""
  timestamp : UInt64 := 0
  deriving DecidableEq, Repr

/-- The agents that share an address. -/
structure AgentContainer where
  entries : List Agent := []
  deriving DecidableEq, Repr

structure CreateAgentAction where
  name : String := ""
  timestamp : UInt64 := 0
  deriving DecidableEq, Repr

/-- A request for a change: the number of an action and what that action needs. -/
structure RegistryPayload where
  action : Int32 := 0
  createAgent : Option CreateAgentAction := none
  deriving DecidableEq

def Agent.schema : Schema Agent where
  name := "Agent"
  blank := {}
  fields := [
    .single 1 "public_key" .text (·.publicKey) fun m v => { m with publicKey := v },
    .single 2 "name" .text (·.name) fun m v => { m with name := v },
    .single 3 "organization_id" .text (·.organizationId)
      fun m v => { m with organizationId := v },
    .single 4 "timestamp" .uint64 (·.timestamp) fun m v => { m with timestamp := v }]

def AgentContainer.schema : Schema AgentContainer where
  name := "AgentContainer"
  blank := {}
  fields := [
    .repeated 1 "entries" Agent.schema.codec (·.entries) fun m v => { m with entries := v }]

def CreateAgentAction.schema : Schema CreateAgentAction where
  name := "CreateAgentAction"
  blank := {}
  fields := [
    .single 1 "name" .text (·.name) fun m v => { m with name := v },
    .single 2 "timestamp" .uint64 (·.timestamp) fun m v => { m with timestamp := v }]

def RegistryPayload.schema : Schema RegistryPayload where
  name := "CertificateRegistryPayload"
  blank := {}
  fields := [
    .single 1 "action" .int32 (·.action) fun m v => { m with action := v },
    .optional 2 "create_agent" CreateAgentAction.schema.codec (·.createAgent)
      fun m v => { m with createAgent := v }]

end CertRegistry
