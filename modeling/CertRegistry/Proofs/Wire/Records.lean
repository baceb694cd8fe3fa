import CertRegistry.Ledger.Envelope
import CertRegistry.Proofs.Wire.Codecs
import CertRegistry.Registry.Record

/-!
# The records of the registry and the envelopes of the ledger

All nine record types are lawful, so each record is read back from what is written, and no two
records of a type are written alike.
-/

namespace CertRegistry

open Wire Wire.Codec Wire.Field

theorem Agent.lawful_schema : Agent.schema.Lawful 0 where
  fields := by
    simp only [Agent.schema, List.forall_mem_cons]
    refine ⟨lawful_single (by decide) ?_ shrinks_text roundTrips_text,
      lawful_single (by decide) ?_ shrinks_text roundTrips_text,
      lawful_single (by decide) ?_ shrinks_text roundTrips_text,
      lawful_single (by decide) ?_ shrinks_uint64 roundTrips_uint64, List.forall_mem_nil _⟩
    all_goals exact ⟨fun _ _ => rfl, fun _ _ _ => rfl, fun _ => rfl⟩
  apart := by simp [Agent.schema, Field.single]
  blank := by simp [Agent.schema, Field.single, Slot.single, Codec.text, Codec.uint64]
  rebuild _ := rfl

theorem AgentContainer.lawful_schema : AgentContainer.schema.Lawful 1 where
  fields := by
    simp only [AgentContainer.schema, List.forall_mem_cons]
    refine ⟨lawful_repeated (by decide) ?_ (Schema.shrinks_codec Agent.lawful_schema)
      (Schema.roundTrips_codec Agent.lawful_schema), List.forall_mem_nil _⟩
    all_goals exact ⟨fun _ _ => rfl, fun _ _ _ => rfl, fun _ => rfl⟩
  apart := by simp [AgentContainer.schema]
  blank := by simp [AgentContainer.schema, Field.repeated, Slot.repeated]
  rebuild _ := rfl

theorem CreateAgentAction.lawful_schema : CreateAgentAction.schema.Lawful 0 where
  fields := by
    simp only [CreateAgentAction.schema, List.forall_mem_cons]
    refine ⟨lawful_single (by decide) ?_ shrinks_text roundTrips_text,
      lawful_single (by decide) ?_ shrinks_uint64 roundTrips_uint64, List.forall_mem_nil _⟩
    all_goals exact ⟨fun _ _ => rfl, fun _ _ _ => rfl, fun _ => rfl⟩
  apart := by simp [CreateAgentAction.schema, Field.single]
  blank := by simp [CreateAgentAction.schema, Field.single, Slot.single, Codec.text, Codec.uint64]
  rebuild _ := rfl

theorem RegistryPayload.lawful_schema : RegistryPayload.schema.Lawful 1 where
  fields := by
    simp only [RegistryPayload.schema, List.forall_mem_cons]
    refine ⟨(lawful_single (by decide) ?_ shrinks_int32 roundTrips_int32).mono (Nat.zero_le 1),
      lawful_optional (by decide) ?_ (Schema.shrinks_codec CreateAgentAction.lawful_schema)
        (Schema.roundTrips_codec CreateAgentAction.lawful_schema), List.forall_mem_nil _⟩
    all_goals exact ⟨fun _ _ => rfl, fun _ _ _ => rfl, fun _ => rfl⟩
  apart := by simp [RegistryPayload.schema, Field.single, Field.optional]
  blank := by
    simp [RegistryPayload.schema, Field.single, Field.optional, Slot.single, Slot.optional,
      Codec.int32]
  rebuild _ := rfl

theorem TransactionHeader.lawful_schema : TransactionHeader.schema.Lawful 0 where
  fields := by
    simp only [TransactionHeader.schema, List.forall_mem_cons]
    refine ⟨lawful_single (by decide) ?_ shrinks_text roundTrips_text,
      lawful_repeated (by decide) ?_ shrinks_text roundTrips_text,
      lawful_single (by decide) ?_ shrinks_text roundTrips_text,
      lawful_single (by decide) ?_ shrinks_text roundTrips_text,
      lawful_repeated (by decide) ?_ shrinks_text roundTrips_text,
      lawful_single (by decide) ?_ shrinks_text roundTrips_text,
      lawful_repeated (by decide) ?_ shrinks_text roundTrips_text,
      lawful_single (by decide) ?_ shrinks_text roundTrips_text,
      lawful_single (by decide) ?_ shrinks_text roundTrips_text, List.forall_mem_nil _⟩
    all_goals exact ⟨fun _ _ => rfl, fun _ _ _ => rfl, fun _ => rfl⟩
  apart := by simp [TransactionHeader.schema, Field.single, Field.repeated]
  blank := by
    simp [TransactionHeader.schema, Field.single, Field.repeated, Slot.single, Slot.repeated,
      Codec.text]
  rebuild m := by
    cases m
    simp only [TransactionHeader.schema, Field.single, Field.repeated, List.foldl_cons,
      List.foldl_nil]

theorem Transaction.lawful_schema : Transaction.schema.Lawful 0 where
  fields := by
    simp only [Transaction.schema, List.forall_mem_cons]
    refine ⟨lawful_single (by decide) ?_ shrinks_octets roundTrips_octets,
      lawful_single (by decide) ?_ shrinks_text roundTrips_text,
      lawful_single (by decide) ?_ shrinks_octets roundTrips_octets, List.forall_mem_nil _⟩
    all_goals exact ⟨fun _ _ => rfl, fun _ _ _ => rfl, fun _ => rfl⟩
  apart := by simp [Transaction.schema, Field.single]
  blank := by simp [Transaction.schema, Field.single, Slot.single, Codec.text, Codec.octets]
  rebuild _ := rfl

theorem BatchHeader.lawful_schema : BatchHeader.schema.Lawful 0 where
  fields := by
    simp only [BatchHeader.schema, List.forall_mem_cons]
    refine ⟨lawful_single (by decide) ?_ shrinks_text roundTrips_text,
      lawful_repeated (by decide) ?_ shrinks_text roundTrips_text, List.forall_mem_nil _⟩
    all_goals exact ⟨fun _ _ => rfl, fun _ _ _ => rfl, fun _ => rfl⟩
  apart := by simp [BatchHeader.schema, Field.single, Field.repeated]
  blank := by
    simp [BatchHeader.schema, Field.single, Field.repeated, Slot.single, Slot.repeated, Codec.text]
  rebuild _ := rfl

theorem Batch.lawful_schema : Batch.schema.Lawful 1 where
  fields := by
    simp only [Batch.schema, List.forall_mem_cons]
    refine ⟨(lawful_single (by decide) ?_ shrinks_octets roundTrips_octets).mono (Nat.zero_le 1),
      (lawful_single (by decide) ?_ shrinks_text roundTrips_text).mono (Nat.zero_le 1),
      lawful_repeated (by decide) ?_ (Schema.shrinks_codec Transaction.lawful_schema)
        (Schema.roundTrips_codec Transaction.lawful_schema),
      (lawful_single (by decide) ?_ shrinks_bool roundTrips_bool).mono (Nat.zero_le 1),
      List.forall_mem_nil _⟩
    all_goals exact ⟨fun _ _ => rfl, fun _ _ _ => rfl, fun _ => rfl⟩
  apart := by simp [Batch.schema, Field.single, Field.repeated]
  blank := by
    simp [Batch.schema, Field.single, Field.repeated, Slot.single, Slot.repeated, Codec.text,
      Codec.octets, Codec.bool]
  rebuild _ := rfl

theorem BatchList.lawful_schema : BatchList.schema.Lawful 2 where
  fields := by
    simp only [BatchList.schema, List.forall_mem_cons]
    refine ⟨lawful_repeated (by decide) ?_ (Schema.shrinks_codec Batch.lawful_schema)
      (Schema.roundTrips_codec Batch.lawful_schema), List.forall_mem_nil _⟩
    all_goals exact ⟨fun _ _ => rfl, fun _ _ _ => rfl, fun _ => rfl⟩
  apart := by simp [BatchList.schema]
  blank := by simp [BatchList.schema, Field.repeated, Slot.repeated]
  rebuild _ := rfl

/-- Every record of the nine types is read back from its octets, whatever its texts, numbers and
lists, and no two records of a type are written alike. -/
theorem all_records_faithful :
    Agent.schema.Faithful ∧ AgentContainer.schema.Faithful ∧ CreateAgentAction.schema.Faithful ∧
      RegistryPayload.schema.Faithful ∧ TransactionHeader.schema.Faithful ∧
      Transaction.schema.Faithful ∧ BatchHeader.schema.Faithful ∧ Batch.schema.Faithful ∧
      BatchList.schema.Faithful :=
  ⟨Schema.faithful_of_lawful Agent.lawful_schema (by decide),
    Schema.faithful_of_lawful AgentContainer.lawful_schema (by decide),
    Schema.faithful_of_lawful CreateAgentAction.lawful_schema (by decide),
    Schema.faithful_of_lawful RegistryPayload.lawful_schema (by decide),
    Schema.faithful_of_lawful TransactionHeader.lawful_schema (by decide),
    Schema.faithful_of_lawful Transaction.lawful_schema (by decide),
    Schema.faithful_of_lawful BatchHeader.lawful_schema (by decide),
    Schema.faithful_of_lawful Batch.lawful_schema (by decide),
    Schema.faithful_of_lawful BatchList.lawful_schema (by decide)⟩

/-- Actions that nobody knows, details with nothing in them and empty texts in lists are kept. -/
theorem all_records_faithful_blanks :
    RegistryPayload.schema.decode (RegistryPayload.schema.encode
      { action := -7, createAgent := some {} }) = .ok { action := -7, createAgent := some {} } ∧
    TransactionHeader.schema.decode (TransactionHeader.schema.encode
        { inputs := ["", "é", ""], nonce := "n" }) =
      .ok { inputs := ["", "é", ""], nonce := "n" } := by
  obtain ⟨-, -, -, hpayload, hheader, -⟩ := all_records_faithful
  exact ⟨hpayload.decode_encode _ (Schema.fits_of_length_encode (by decide +kernel)),
    hheader.decode_encode _ (Schema.fits_of_length_encode (by decide +kernel))⟩

end CertRegistry
