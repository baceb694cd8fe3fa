import CertRegistry.Proofs.Wire.Records
import CertRegistry.Proofs.Wire.Widening
import CertRegistry.Registry.Client
import Mathlib.Data.List.Forall2

/-!
# Records that grow on the wire

All nine record types are read on where octets of the same type follow, and read alike when a
writer knows more fields than this reader.
-/

namespace CertRegistry

open Wire Wire.Codec Wire.Field

/-! ## Which values hold -/

def Agent.merge (ps : List Part) (before after : Agent) : Agent where
  publicKey := latest 1 ps before.publicKey after.publicKey
  name := latest 2 ps before.name after.name
  organizationId := latest 3 ps before.organizationId after.organizationId
  timestamp := latest 4 ps before.timestamp after.timestamp

def AgentContainer.merge (_ : List Part) (before after : AgentContainer) : AgentContainer where
  entries := before.entries ++ after.entries

def CreateAgentAction.merge (ps : List Part) (before after : CreateAgentAction) :
    CreateAgentAction where
  name := latest 1 ps before.name after.name
  timestamp := latest 2 ps before.timestamp after.timestamp

def RegistryPayload.merge (ps : List Part) (before after : RegistryPayload) : RegistryPayload where
  action := latest 1 ps before.action after.action
  createAgent := latestWithin CreateAgentAction.merge 2 ps before.createAgent after.createAgent

def TransactionHeader.merge (ps : List Part) (before after : TransactionHeader) :
    TransactionHeader where
  batcherPublicKey := latest 1 ps before.batcherPublicKey after.batcherPublicKey
  dependencies := before.dependencies ++ after.dependencies
  familyName := latest 3 ps before.familyName after.familyName
  familyVersion := latest 4 ps before.familyVersion after.familyVersion
  inputs := before.inputs ++ after.inputs
  nonce := latest 6 ps before.nonce after.nonce
  outputs := before.outputs ++ after.outputs
  payloadSha512 := latest 9 ps before.payloadSha512 after.payloadSha512
  signerPublicKey := latest 10 ps before.signerPublicKey after.signerPublicKey

def Transaction.merge (ps : List Part) (before after : Transaction) : Transaction where
  header := latest 1 ps before.header after.header
  headerSignature := latest 2 ps before.headerSignature after.headerSignature
  payload := latest 3 ps before.payload after.payload

def BatchHeader.merge (ps : List Part) (before after : BatchHeader) : BatchHeader where
  signerPublicKey := latest 1 ps before.signerPublicKey after.signerPublicKey
  transactionIds := before.transactionIds ++ after.transactionIds

def Batch.merge (ps : List Part) (before after : Batch) : Batch where
  header := latest 1 ps before.header after.header
  headerSignature := latest 2 ps before.headerSignature after.headerSignature
  transactions := before.transactions ++ after.transactions
  trace := latest 4 ps before.trace after.trace

def BatchList.merge (_ : List Part) (before after : BatchList) : BatchList where
  batches := before.batches ++ after.batches

/-! ## Each field keeps to its own octets -/

theorem Agent.isLocal_schema : Agent.schema.IsLocal := by
  simp only [Schema.IsLocal, Agent.schema, List.forall_mem_cons]
  exact ⟨isLocal_text, isLocal_text, isLocal_text, isLocal_uint64, List.forall_mem_nil _⟩

theorem AgentContainer.isLocal_schema : AgentContainer.schema.IsLocal := by
  simp only [Schema.IsLocal, AgentContainer.schema, List.forall_mem_cons]
  exact ⟨Schema.isLocal_codec Agent.lawful_schema Agent.isLocal_schema, List.forall_mem_nil _⟩

theorem CreateAgentAction.isLocal_schema : CreateAgentAction.schema.IsLocal := by
  simp only [Schema.IsLocal, CreateAgentAction.schema, List.forall_mem_cons]
  exact ⟨isLocal_text, isLocal_uint64, List.forall_mem_nil _⟩

theorem RegistryPayload.isLocal_schema : RegistryPayload.schema.IsLocal := by
  simp only [Schema.IsLocal, RegistryPayload.schema, List.forall_mem_cons]
  exact ⟨isLocal_int32,
    Schema.isLocal_codec CreateAgentAction.lawful_schema CreateAgentAction.isLocal_schema,
    List.forall_mem_nil _⟩

theorem TransactionHeader.isLocal_schema : TransactionHeader.schema.IsLocal := by
  simp only [Schema.IsLocal, TransactionHeader.schema, List.forall_mem_cons]
  exact ⟨isLocal_text, isLocal_text, isLocal_text, isLocal_text, isLocal_text, isLocal_text,
    isLocal_text, isLocal_text, isLocal_text, List.forall_mem_nil _⟩

theorem Transaction.isLocal_schema : Transaction.schema.IsLocal := by
  simp only [Schema.IsLocal, Transaction.schema, List.forall_mem_cons]
  exact ⟨isLocal_octets, isLocal_text, isLocal_octets, List.forall_mem_nil _⟩

theorem BatchHeader.isLocal_schema : BatchHeader.schema.IsLocal := by
  simp only [Schema.IsLocal, BatchHeader.schema, List.forall_mem_cons]
  exact ⟨isLocal_text, isLocal_text, List.forall_mem_nil _⟩

theorem Batch.isLocal_schema : Batch.schema.IsLocal := by
  simp only [Schema.IsLocal, Batch.schema, List.forall_mem_cons]
  exact ⟨isLocal_octets, isLocal_text,
    Schema.isLocal_codec Transaction.lawful_schema Transaction.isLocal_schema, isLocal_bool,
    List.forall_mem_nil _⟩

theorem BatchList.isLocal_schema : BatchList.schema.IsLocal := by
  simp only [Schema.IsLocal, BatchList.schema, List.forall_mem_cons]
  exact ⟨Schema.isLocal_codec Batch.lawful_schema Batch.isLocal_schema, List.forall_mem_nil _⟩

/-! ## Records are joined field by field -/

theorem Agent.merges : Agent.schema.Merges Schema.maxDepth Agent.merge := by
  refine Schema.merges_of_fields Agent.lawful_schema
    (by simp [Schema.IsApart, Agent.schema, single]) ?_
  simp only [Agent.schema, List.forall_mem_cons]
  refine ⟨isMerged_single ?_ fun _ _ _ => rfl, isMerged_single ?_ fun _ _ _ => rfl,
    isMerged_single ?_ fun _ _ _ => rfl, isMerged_single ?_ fun _ _ _ => rfl,
    List.forall_mem_nil _⟩
  all_goals exact fun _ _ => rfl

theorem AgentContainer.merges :
    AgentContainer.schema.Merges Schema.maxDepth AgentContainer.merge := by
  refine Schema.merges_of_fields AgentContainer.lawful_schema
    (by simp [Schema.IsApart, AgentContainer.schema]) ?_
  simp only [AgentContainer.schema, List.forall_mem_cons]
  exact ⟨isMerged_repeated fun _ _ _ => rfl, List.forall_mem_nil _⟩

theorem CreateAgentAction.merges (depth : Nat) :
    CreateAgentAction.schema.Merges depth CreateAgentAction.merge := by
  refine Schema.merges_of_fields CreateAgentAction.lawful_schema
    (by simp [Schema.IsApart, CreateAgentAction.schema, single]) ?_
  simp only [CreateAgentAction.schema, List.forall_mem_cons]
  refine ⟨isMerged_single ?_ fun _ _ _ => rfl, isMerged_single ?_ fun _ _ _ => rfl,
    List.forall_mem_nil _⟩
  all_goals exact fun _ _ => rfl

theorem RegistryPayload.merges :
    RegistryPayload.schema.Merges Schema.maxDepth RegistryPayload.merge := by
  refine Schema.merges_of_fields RegistryPayload.lawful_schema
    (by simp [Schema.IsApart, RegistryPayload.schema, single, Field.optional]) ?_
  simp only [RegistryPayload.schema, List.forall_mem_cons]
  exact ⟨isMerged_single (fun _ _ => rfl) fun _ _ _ => rfl,
    isMerged_optional CreateAgentAction.lawful_schema CreateAgentAction.isLocal_schema
      (CreateAgentAction.merges 99) (by decide) (by decide) fun _ _ _ => rfl,
    List.forall_mem_nil _⟩

theorem TransactionHeader.merges :
    TransactionHeader.schema.Merges Schema.maxDepth TransactionHeader.merge := by
  refine Schema.merges_of_fields TransactionHeader.lawful_schema
    (by simp [Schema.IsApart, TransactionHeader.schema, single, repeated]) ?_
  simp only [TransactionHeader.schema, List.forall_mem_cons]
  refine ⟨isMerged_single ?_ fun _ _ _ => rfl, isMerged_repeated fun _ _ _ => rfl,
    isMerged_single ?_ fun _ _ _ => rfl, isMerged_single ?_ fun _ _ _ => rfl,
    isMerged_repeated fun _ _ _ => rfl, isMerged_single ?_ fun _ _ _ => rfl,
    isMerged_repeated fun _ _ _ => rfl, isMerged_single ?_ fun _ _ _ => rfl,
    isMerged_single ?_ fun _ _ _ => rfl, List.forall_mem_nil _⟩
  all_goals exact fun _ _ => rfl

theorem Transaction.merges : Transaction.schema.Merges Schema.maxDepth Transaction.merge := by
  refine Schema.merges_of_fields Transaction.lawful_schema
    (by simp [Schema.IsApart, Transaction.schema, single]) ?_
  simp only [Transaction.schema, List.forall_mem_cons]
  refine ⟨isMerged_single ?_ fun _ _ _ => rfl, isMerged_single ?_ fun _ _ _ => rfl,
    isMerged_single ?_ fun _ _ _ => rfl, List.forall_mem_nil _⟩
  all_goals exact fun _ _ => rfl

theorem BatchHeader.merges : BatchHeader.schema.Merges Schema.maxDepth BatchHeader.merge := by
  refine Schema.merges_of_fields BatchHeader.lawful_schema
    (by simp [Schema.IsApart, BatchHeader.schema, single, repeated]) ?_
  simp only [BatchHeader.schema, List.forall_mem_cons]
  exact ⟨isMerged_single (fun _ _ => rfl) fun _ _ _ => rfl, isMerged_repeated fun _ _ _ => rfl,
    List.forall_mem_nil _⟩

theorem Batch.merges : Batch.schema.Merges Schema.maxDepth Batch.merge := by
  refine Schema.merges_of_fields Batch.lawful_schema
    (by simp [Schema.IsApart, Batch.schema, single, repeated]) ?_
  simp only [Batch.schema, List.forall_mem_cons]
  refine ⟨isMerged_single ?_ fun _ _ _ => rfl, isMerged_single ?_ fun _ _ _ => rfl,
    isMerged_repeated fun _ _ _ => rfl, isMerged_single ?_ fun _ _ _ => rfl,
    List.forall_mem_nil _⟩
  all_goals exact fun _ _ => rfl

theorem BatchList.merges : BatchList.schema.Merges Schema.maxDepth BatchList.merge := by
  refine Schema.merges_of_fields BatchList.lawful_schema
    (by simp [Schema.IsApart, BatchList.schema]) ?_
  simp only [BatchList.schema, List.forall_mem_cons]
  exact ⟨isMerged_repeated fun _ _ _ => rfl, List.forall_mem_nil _⟩

/-! ## Writers that know more fields -/

/-- Octets with more fields in a payload or in what it says of an agent. -/
def RegistryPayload.Widens : Bytes → Bytes → Prop :=
  RegistryPayload.schema.Widens Schema.maxDepth fun tag bs bs' =>
    tag = 2 ∧ CreateAgentAction.schema.WidensFlat (Schema.maxDepth - 1) bs bs'

/-- Octets with more fields in a container or in its agents. -/
def AgentContainer.Widens : Bytes → Bytes → Prop :=
  AgentContainer.schema.Widens Schema.maxDepth fun tag bs bs' =>
    tag = 1 ∧ Agent.schema.WidensFlat (Schema.maxDepth - 1) bs bs'

theorem RegistryPayload.decode_of_widens {bs bs' : Bytes} (h : RegistryPayload.Widens bs bs')
    (m : RegistryPayload) :
    RegistryPayload.schema.decode bs' = .ok m ↔ RegistryPayload.schema.decode bs = .ok m := by
  rw [Schema.decode_iff_reads RegistryPayload.lawful_schema,
    Schema.decode_iff_reads RegistryPayload.lawful_schema]
  refine Schema.reads_of_widens RegistryPayload.isLocal_schema (by decide) (Nat.le_refl _) ?_ h
  intro q q' hq hq' hkey htype hinner m m'
  refine Schema.take_congr hkey ?_
  simp only [RegistryPayload.schema, List.forall_mem_cons]
  refine ⟨fun htag => ?_, fun _ => ?_, List.forall_mem_nil _⟩
  · exact absurd (htag.trans hinner.1) (by decide)
  · exact Slot.take_congr_of_widensFlat CreateAgentAction.lawful_schema
      CreateAgentAction.isLocal_schema (by decide) (by decide) hq hq' hkey htype hinner.2

theorem AgentContainer.decode_of_widens {bs bs' : Bytes} (h : AgentContainer.Widens bs bs')
    (m : AgentContainer) :
    AgentContainer.schema.decode bs' = .ok m ↔ AgentContainer.schema.decode bs = .ok m := by
  rw [Schema.decode_iff_reads AgentContainer.lawful_schema,
    Schema.decode_iff_reads AgentContainer.lawful_schema]
  refine Schema.reads_of_widens AgentContainer.isLocal_schema (by decide) (Nat.le_refl _) ?_ h
  intro q q' hq hq' hkey htype hinner m m'
  refine Schema.take_congr hkey ?_
  simp only [AgentContainer.schema, List.forall_mem_cons]
  refine ⟨fun _ => ?_, List.forall_mem_nil _⟩
  exact Slot.take_congr_of_widensFlat Agent.lawful_schema Agent.isLocal_schema (by decide)
    (by decide) hq hq' hkey htype hinner.2

/-- A payload with more fields asks for the same action. -/
theorem Action.decode_of_widens {bs bs' : Bytes} (h : RegistryPayload.Widens bs bs')
    {payload : RegistryPayload} (hbs : RegistryPayload.schema.decode bs = .ok payload) :
    Action.decode bs' = Action.decode bs := by
  rw [Action.decode, Action.decode, hbs, (RegistryPayload.decode_of_widens h payload).mpr hbs]

namespace RegistryClient

/-- The container in an entry of the state. -/
def readContainer (entry : Rest.StateEntry) : Except Rest.Fault AgentContainer :=
  match AgentContainer.schema.decode entry.data with
  | .ok container => .ok container
  | .error fault => .error (.badRecord fault)

theorem readContainer_eq_ok {entry : Rest.StateEntry} {container : AgentContainer} :
    readContainer entry = .ok container ↔
      AgentContainer.schema.decode entry.data = .ok container := by
  cases h : AgentContainer.schema.decode entry.data <;> simp [readContainer, h]

theorem agentsOf_eq (entries : List Rest.StateEntry) :
    agentsOf entries = (do
      let containers ← entries.mapM readContainer
      return containers.flatMap (·.entries)) := rfl

/-- Entries with more fields hold the same agents. -/
theorem agentsOf_of_widens {entries entries' : List Rest.StateEntry}
    (h : List.Forall₂ (fun e e' => AgentContainer.Widens e.data e'.data) entries entries')
    (agents : List Agent) :
    agentsOf entries' = .ok agents ↔ agentsOf entries = .ok agents := by
  have hread : ∀ {e e' : Rest.StateEntry}, AgentContainer.Widens e.data e'.data →
      ∀ container, readContainer e' = .ok container ↔ readContainer e = .ok container := by
    intro e e' hwider container
    simp only [readContainer_eq_ok, AgentContainer.decode_of_widens hwider]
  have hreads : ∀ containers, entries'.mapM readContainer = .ok containers ↔
      entries.mapM readContainer = .ok containers := by
    induction h with
    | nil => exact fun _ => Iff.rfl
    | cons hfirst _ ih =>
      intro containers
      simp only [List.mapM_cons, bind_eq_ok, hread hfirst, ih]
  simp only [agentsOf_eq, bind_eq_ok, hreads]

end RegistryClient

/-- Octets of any of the nine record types add to those before them field by field, and fields of
other tags say nothing. So payloads and records of writers that know more fields, also within what
they say of agents, look the same to a client. -/
theorem all_records_cumulate :
    (Agent.schema.Cumulates Agent.merge ∧ AgentContainer.schema.Cumulates AgentContainer.merge ∧
      CreateAgentAction.schema.Cumulates CreateAgentAction.merge ∧
      RegistryPayload.schema.Cumulates RegistryPayload.merge ∧
      TransactionHeader.schema.Cumulates TransactionHeader.merge ∧
      Transaction.schema.Cumulates Transaction.merge ∧
      BatchHeader.schema.Cumulates BatchHeader.merge ∧ Batch.schema.Cumulates Batch.merge ∧
      BatchList.schema.Cumulates BatchList.merge) ∧
    (∀ bs bs' payload, RegistryPayload.Widens bs bs' →
      RegistryPayload.schema.decode bs = .ok payload → Action.decode bs' = Action.decode bs) ∧
    ∀ entries entries' : List Rest.StateEntry,
      List.Forall₂ (fun e e' => AgentContainer.Widens e.data e'.data) entries entries' →
      ∀ agents, RegistryClient.agentsOf entries' = .ok agents ↔
        RegistryClient.agentsOf entries = .ok agents := by
  refine ⟨⟨?_, ?_, ?_, ?_, ?_, ?_, ?_, ?_, ?_⟩, fun _ _ _ h => Action.decode_of_widens h,
    fun _ _ => RegistryClient.agentsOf_of_widens⟩
  · exact Schema.cumulates_of_merges Agent.lawful_schema Agent.isLocal_schema Agent.merges
  · exact Schema.cumulates_of_merges AgentContainer.lawful_schema AgentContainer.isLocal_schema
      AgentContainer.merges
  · exact Schema.cumulates_of_merges CreateAgentAction.lawful_schema
      CreateAgentAction.isLocal_schema (CreateAgentAction.merges _)
  · exact Schema.cumulates_of_merges RegistryPayload.lawful_schema RegistryPayload.isLocal_schema
      RegistryPayload.merges
  · exact Schema.cumulates_of_merges TransactionHeader.lawful_schema
      TransactionHeader.isLocal_schema TransactionHeader.merges
  · exact Schema.cumulates_of_merges Transaction.lawful_schema Transaction.isLocal_schema
      Transaction.merges
  · exact Schema.cumulates_of_merges BatchHeader.lawful_schema BatchHeader.isLocal_schema
      BatchHeader.merges
  · exact Schema.cumulates_of_merges Batch.lawful_schema Batch.isLocal_schema Batch.merges
  · exact Schema.cumulates_of_merges BatchList.lawful_schema BatchList.isLocal_schema
      BatchList.merges

/-- A blank number on the wire holds, a name that is not there again stays, and a group in between
says nothing. -/
theorem all_records_cumulate_payloads :
    RegistryPayload.schema.decode
      ([8, 1, 18, 7, 10, 3, 65, 100, 97, 16, 5] ++ [123, 8, 1, 124] ++ [18, 2, 16, 9, 8, 0]) =
      .ok { action := 0, createAgent := some { name := "Ada", timestamp := 9 } } := by
  obtain ⟨⟨-, -, -, hpayload, -⟩, -⟩ := all_records_cumulate
  have hgroup : Part.IsWhole Schema.maxDepth ⟨⟨15, .startGroup⟩, [123], [8, 1, 124]⟩ := by
    refine ⟨by rfl, ?_⟩
    have hinner : Part.IsWhole 99 ⟨⟨1, .varint⟩, [8], [1]⟩ := ⟨rfl, Spells.varint rfl⟩
    exact @Spells.group 99 15 [⟨⟨1, .varint⟩, [8], [1]⟩] [124]
      (fun p hp => List.mem_singleton.mp hp ▸ hinner.head)
      (fun p hp => List.mem_singleton.mp hp ▸ hinner.value) rfl
  refine (hpayload.insert ⟨_, rfl⟩ hgroup (by decide) _).mpr ?_
  obtain ⟨ps, hps, hmerged⟩ := hpayload.append
    (show RegistryPayload.schema.decode [8, 1, 18, 7, 10, 3, 65, 100, 97, 16, 5] = _ from rfl)
    (show RegistryPayload.schema.decode [18, 2, 16, 9, 8, 0] = _ from rfl)
  rw [hmerged]
  cases hps
  rfl

end CertRegistry
