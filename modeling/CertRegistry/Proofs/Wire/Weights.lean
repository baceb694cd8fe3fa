import CertRegistry.Proofs.Wire.Records
import CertRegistry.Proofs.Wire.Sizes
import CertRegistry.Registry.Action

/-!
# What a request can bring along

The parts of a decoded record are spelled by octets of their own, so together they are no larger
than the octets that were decoded. Weights count the octets of the parts of interest.
-/

namespace CertRegistry

open Wire Wire.Codec

namespace Wire.Field

variable {M α : Type} {tag : Nat} {name : String} {codec : Codec α} {w : α → Nat}
  {weight : M → Nat}

theorem bounded_single [DecidableEq α] {get : M → α} {set : M → α → M} (hw : codec.Bounded w)
    (h : ∀ m v, weight (set m v) + w (get m) ≤ weight m + w v) :
    (single tag name codec get set).Bounded weight :=
  ⟨w, hw, fun m v => h m v⟩

theorem bounded_optional {get : M → Option α} {set : M → Option α → M} (hw : codec.Bounded w)
    (h : ∀ m v, weight (set m (some v)) + w ((get m).getD codec.blank) ≤ weight m + w v) :
    (optional tag name codec get set).Bounded weight :=
  ⟨w, hw, fun m v => h m v⟩

theorem bounded_repeated {get : M → List α} {set : M → List α → M} (hw : codec.Bounded w)
    (h : ∀ m v, weight (set m (get m ++ [v])) + w codec.blank ≤ weight m + w v) :
    (repeated tag name codec get set).Bounded weight :=
  ⟨w, hw, fun m v => h m v⟩

end Wire.Field

/-- The weights of several things together. -/
def totalWeight {α : Type} (weight : α → Nat) : List α → Nat
  | [] => 0
  | a :: as => weight a + totalWeight weight as

theorem totalWeight_append {α : Type} (weight : α → Nat) (as bs : List α) :
    totalWeight weight (as ++ bs) = totalWeight weight as + totalWeight weight bs := by
  induction as with
  | nil => simp [totalWeight]
  | cons a as ih => simp [totalWeight, ih, Nat.add_assoc]

theorem weight_le_totalWeight {α : Type} (weight : α → Nat) {a : α} {as : List α} (h : a ∈ as) :
    weight a ≤ totalWeight weight as := by
  obtain ⟨front, back, rfl⟩ := List.append_of_mem h
  simp only [totalWeight_append, totalWeight]
  omega

def Transaction.weight (t : Transaction) : Nat := t.header.length + t.payload.length

def Batch.weight (b : Batch) : Nat := totalWeight Transaction.weight b.transactions

def BatchList.weight (l : BatchList) : Nat := totalWeight Batch.weight l.batches

def TransactionHeader.weight (h : TransactionHeader) : Nat :=
  (Bytes.ofText h.signerPublicKey).length

def CreateAgentAction.weight (a : CreateAgentAction) : Nat := (Bytes.ofText a.name).length

def RegistryPayload.weight (p : RegistryPayload) : Nat := (p.createAgent.getD {}).weight

theorem Transaction.bounded_schema : Transaction.schema.Bounded weight := by
  simp only [Schema.Bounded, Transaction.schema, List.forall_mem_cons]
  refine ⟨Field.bounded_single bounded_octets ?_, Field.bounded_single shrinks_text.bounded_zero ?_,
    Field.bounded_single bounded_octets ?_, List.forall_mem_nil _⟩
  · intro t v
    simp only [weight]
    omega
  · exact fun _ _ => Nat.le_refl _
  · intro t v
    simp only [weight]
    omega

theorem Batch.bounded_schema : Batch.schema.Bounded weight := by
  simp only [Schema.Bounded, Batch.schema, List.forall_mem_cons]
  refine ⟨Field.bounded_single shrinks_octets.bounded_zero fun _ _ => Nat.le_refl _,
    Field.bounded_single shrinks_text.bounded_zero fun _ _ => Nat.le_refl _,
    Field.bounded_repeated
      (Schema.bounded_codec Transaction.lawful_schema Transaction.bounded_schema) ?_,
    Field.bounded_single shrinks_bool.bounded_zero fun _ _ => Nat.le_refl _, List.forall_mem_nil _⟩
  intro b t
  simp [weight, totalWeight_append, totalWeight, Schema.codec, Transaction.weight,
    Transaction.schema]

theorem BatchList.bounded_schema : BatchList.schema.Bounded weight := by
  simp only [Schema.Bounded, BatchList.schema, List.forall_mem_cons]
  refine ⟨Field.bounded_repeated
    (Schema.bounded_codec Batch.lawful_schema Batch.bounded_schema) ?_, List.forall_mem_nil _⟩
  intro l b
  simp [weight, totalWeight_append, totalWeight, Schema.codec, Batch.weight, Batch.schema]

theorem TransactionHeader.bounded_schema : TransactionHeader.schema.Bounded weight := by
  simp only [Schema.Bounded, TransactionHeader.schema, List.forall_mem_cons]
  refine ⟨Field.bounded_single shrinks_text.bounded_zero fun _ _ => Nat.le_refl _,
    Field.bounded_repeated shrinks_text.bounded_zero fun _ _ => Nat.le_refl _,
    Field.bounded_single shrinks_text.bounded_zero fun _ _ => Nat.le_refl _,
    Field.bounded_single shrinks_text.bounded_zero fun _ _ => Nat.le_refl _,
    Field.bounded_repeated shrinks_text.bounded_zero fun _ _ => Nat.le_refl _,
    Field.bounded_single shrinks_text.bounded_zero fun _ _ => Nat.le_refl _,
    Field.bounded_repeated shrinks_text.bounded_zero fun _ _ => Nat.le_refl _,
    Field.bounded_single shrinks_text.bounded_zero fun _ _ => Nat.le_refl _,
    Field.bounded_single bounded_text ?_, List.forall_mem_nil _⟩
  intro h v
  exact Nat.le_of_eq (Nat.add_comm _ _)

theorem CreateAgentAction.bounded_schema : CreateAgentAction.schema.Bounded weight := by
  simp only [Schema.Bounded, CreateAgentAction.schema, List.forall_mem_cons]
  refine ⟨Field.bounded_single bounded_text ?_,
    Field.bounded_single shrinks_uint64.bounded_zero fun _ _ => Nat.le_refl _,
    List.forall_mem_nil _⟩
  intro a v
  exact Nat.le_of_eq (Nat.add_comm _ _)

theorem RegistryPayload.bounded_schema : RegistryPayload.schema.Bounded weight := by
  simp only [Schema.Bounded, RegistryPayload.schema, List.forall_mem_cons]
  refine ⟨Field.bounded_single shrinks_int32.bounded_zero fun _ _ => Nat.le_refl _,
    Field.bounded_optional
      (Schema.bounded_codec CreateAgentAction.lawful_schema CreateAgentAction.bounded_schema) ?_,
    List.forall_mem_nil _⟩
  intro p v
  exact Nat.le_of_eq (Nat.add_comm _ _)

/-- The headers and payloads of all transactions come out of the body of the request. -/
theorem Transaction.weight_le_of_decode {body : Bytes} {l : BatchList} {b : Batch}
    {t : Transaction} (h : BatchList.schema.decode body = .ok l) (hb : b ∈ l.batches)
    (ht : t ∈ b.transactions) : t.header.length + t.payload.length ≤ body.length :=
  calc t.weight ≤ b.weight := weight_le_totalWeight _ ht
    _ ≤ l.weight := weight_le_totalWeight _ hb
    _ ≤ body.length :=
      Schema.weight_of_decode BatchList.lawful_schema BatchList.bounded_schema rfl h

theorem TransactionHeader.length_key_le_of_decode {bs : Bytes} {h : TransactionHeader}
    (hdecode : TransactionHeader.schema.decode bs = .ok h) :
    (Bytes.ofText h.signerPublicKey).length ≤ bs.length :=
  Schema.weight_of_decode TransactionHeader.lawful_schema TransactionHeader.bounded_schema rfl
    hdecode

/-- A decoded action carries a name only if there is something in it. -/
theorem Action.name_of_decode {bs : Bytes} {name : String} {timestamp : UInt64}
    (h : Action.decode bs = .ok (.createAgent (some name) timestamp)) :
    name ≠ "" ∧ (Bytes.ofText name).length ≤ bs.length := by
  unfold decode at h
  split at h
  · cases h
  · next payload hpayload =>
    have hweight := Schema.weight_of_decode RegistryPayload.lawful_schema
      RegistryPayload.bounded_schema rfl hpayload
    unfold ofPayload at h
    split at h
    · simp only [Except.ok.injEq, createAgent.injEq] at h
      obtain ⟨hname, -⟩ := h
      split at hname
      · cases hname
      · next hne =>
        cases hname
        exact ⟨hne, hweight⟩
    · cases h
    · cases h

end CertRegistry
