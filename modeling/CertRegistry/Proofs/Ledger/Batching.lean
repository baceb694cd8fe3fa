import CertRegistry.Proofs.Ledger.Sizes
import CertRegistry.Proofs.Wire.Records
import Mathlib.Data.List.Forall2

/-!
# Batches that check out

Whoever receives a batch decodes the headers in it and compares them with each other, with the
payloads and with the signatures. A batch that was built from a draft passes this check, and a list
of such batches arrives as it was sent.
-/

namespace CertRegistry

open Wire

/-- What a batch is built from: one signer for all of it, and orders with a nonce each. -/
structure Draft where
  family : Family
  signer : Signer
  orders : List (Vector UInt8 16 × Order)

namespace Draft

def transactions (d : Draft) : List Transaction :=
  d.orders.map fun o => d.family.transaction d.signer o.1.toList o.2

def batch (d : Draft) : Batch := Batch.ofTransactions d.signer d.transactions

end Draft

/-- Whether a transaction is the family's and the signer's, carries an order, and says so itself. -/
structure Transaction.Carries (family : Family) (signer : Signer) (order : Order)
    (t : Transaction) : Prop where
  payload : t.payload = order.payload
  signature : t.headerSignature = signer.sign t.header
  header : ∃ h, TransactionHeader.schema.decode t.header = .ok h ∧
    h.familyName = family.name ∧ h.familyVersion = family.version ∧
    h.inputs = order.inputs ∧ h.outputs = order.outputs ∧ h.dependencies = [] ∧
    h.signerPublicKey = signer.publicKeyHex ∧ h.batcherPublicKey = signer.publicKeyHex ∧
    (h.nonce.length = 32 ∧ ∀ c ∈ h.nonce.toList, Hex.IsDigit c) ∧
    h.payloadSha512 = Hex.encode (sha512 t.payload)

/-- Whether a batch holds the orders of a draft, one transaction for each, under a header that
names these transactions. -/
structure Batch.ChecksOut (d : Draft) (b : Batch) : Prop where
  signature : b.headerSignature = d.signer.sign b.header
  header : ∃ h, BatchHeader.schema.decode b.header = .ok h ∧
    h.signerPublicKey = d.signer.publicKeyHex ∧
    h.transactionIds = b.transactions.map (·.headerSignature)
  transactions : List.Forall₂ (Transaction.Carries d.family d.signer) (d.orders.map (·.2))
    b.transactions

namespace Family

theorem transaction_carries {family : Family} (signer : Signer) (nonce : Vector UInt8 16)
    {order : Order} (h : (family.transaction signer nonce.toList order).header.Storable) :
    (family.transaction signer nonce.toList order).Carries family signer order where
  payload := rfl
  signature := headerSignature_transaction ..
  header := by
    have hfits := Schema.fits_of_length_encode (S := TransactionHeader.schema)
      (m := family.header signer nonce.toList order) (Nat.lt_trans h (by decide))
    refine ⟨_, Schema.decode_encode_of_fits TransactionHeader.lawful_schema (by decide) hfits, rfl,
      rfl, rfl, rfl, rfl, rfl, rfl, ⟨?_, fun c hc => Hex.isDigit_of_mem_encode hc⟩, rfl⟩
    simp [header]

end Family

namespace Draft

/-- Ids have a fixed length, so there may be any number of them. -/
theorem fits_batchHeader (d : Draft) : BatchHeader.schema.Fits
    { signerPublicKey := d.signer.publicKeyHex
      transactionIds := d.transactions.map (·.headerSignature) } := by
  simp only [Schema.Fits, BatchHeader.schema, List.forall_mem_cons]
  refine ⟨Field.fits_single ?_, Field.fits_repeated ?_, List.forall_mem_nil _⟩
  · exact Codec.length_put_text_lt d.signer.length_publicKeyHex_le (by decide)
  · intro id hid
    simp only [transactions, List.map_map, List.mem_map, Function.comp_apply] at hid
    obtain ⟨o, _, rfl⟩ := hid
    rw [Family.headerSignature_transaction]
    exact Codec.length_put_text_lt (Nat.le_of_eq (d.signer.length_sign _)) (by decide)

theorem batch_checksOut (d : Draft) (h : ∀ t ∈ d.transactions, t.header.Storable) :
    d.batch.ChecksOut d where
  signature := rfl
  header := ⟨_, Schema.decode_encode_of_fits BatchHeader.lawful_schema (by decide)
    d.fits_batchHeader, rfl, rfl⟩
  transactions := by
    show List.Forall₂ _ _ d.transactions
    rw [transactions, List.forall₂_map_left_iff, List.forall₂_map_right_iff, List.forall₂_same]
    intro o ho
    exact Family.transaction_carries d.signer o.1 (h _ (List.mem_map_of_mem ho))

end Draft

/-- Every batch that is built from a draft passes the check of a receiver, a single order makes the
batch of the draft with that order, and a list of batches is decoded as it was. -/
theorem batches_check_out :
    (∀ d : Draft, (∀ t ∈ d.transactions, t.header.Storable) → d.batch.ChecksOut d) ∧
    (∀ (family : Family) (signer : Signer) (nonce : Vector UInt8 16) (order : Order),
      Batch.ofOrder family signer nonce.toList order =
        Draft.batch { family, signer, orders := [(nonce, order)] }) ∧
    ∀ drafts : List Draft, (∀ d ∈ drafts, (Batch.schema.encode d.batch).Storable) →
      BatchList.schema.decode (BatchList.schema.encode { batches := drafts.map (·.batch) }) =
        .ok { batches := drafts.map (·.batch) } := by
  refine ⟨fun d h => d.batch_checksOut h, fun _ _ _ _ => rfl, fun drafts h => ?_⟩
  refine Schema.decode_encode_of_fits BatchList.lawful_schema (by decide) ?_
  simp only [Schema.Fits, BatchList.schema, List.forall_mem_cons]
  refine ⟨Field.fits_repeated ?_, List.forall_mem_nil _⟩
  intro b hb
  obtain ⟨d, hd, rfl⟩ := List.mem_map.mp hb
  have hsize : (Batch.schema.encode d.batch).length < 0x8000000000000000 := h d hd
  have hput := Schema.length_put_codec_le (S := Batch.schema) (m := d.batch)
    (Nat.lt_trans hsize (by decide))
  exact Nat.lt_of_le_of_lt hput (Nat.lt_of_lt_of_le (Nat.add_lt_add_left hsize 10) (by decide))

/-- A draft of two orders, the first one without a payload. -/
def Draft.sample : Draft where
  family := { name := "family", version := "" }
  signer := .least
  orders := [(Vector.replicate 16 0xab, { payload := [], inputs := [""], outputs := ["", "é"] }),
    (Vector.replicate 16 0, { payload := [1], inputs := [], outputs := [] })]

/-- The same orders the other way round. -/
def Draft.swapped : Draft := { Draft.sample with orders := Draft.sample.orders.reverse }

/-- The transactions of both drafts are small. -/
theorem Draft.small_sample : ∀ t ∈ Draft.sample.transactions,
    t.header.length ≤ 1000 ∧ t.payload.length ≤ 1 ∧
      (Bytes.ofText t.headerSignature).length = 128 := by
  intro t ht
  obtain ⟨o, ho, rfl⟩ := List.mem_map.mp ht
  have hwidth : ∀ text ∈ o.2.inputs ++ o.2.outputs, (Bytes.ofText text).length ≤ 2 := by
    rcases List.mem_pair.mp ho with rfl | rfl
    · exact List.forall_mem_cons.mpr ⟨by decide, by decide⟩
    · exact List.forall_mem_nil _
  have hcount : o.2.inputs.length + o.2.outputs.length ≤ 3 := by
    rcases List.mem_pair.mp ho with rfl | rfl <;> decide
  have hheader := Draft.sample.family.length_header_le Draft.sample.signer o.1.toList o.2 2
    (by simp) hwidth (by decide)
  refine ⟨?_, ?_, Draft.sample.signer.length_sign _⟩
  · have hsize : Draft.sample.family.size = 6 := by decide
    omega
  · rcases List.mem_pair.mp ho with rfl | rfl <;> decide

theorem Draft.length_encode_le {d : Draft} (hcount : d.transactions.length = 2)
    (hsmall : ∀ t ∈ d.transactions, t ∈ Draft.sample.transactions) :
    (Batch.schema.encode d.batch).length ≤ 3200 := by
  have hbound : ∀ t ∈ d.transactions, (Transaction.schema.encode t).length ≤ 1201 := by
    intro t ht
    obtain ⟨hheader, hpayload, hid⟩ := small_sample t (hsmall t ht)
    have hlength := Transaction.length_encode_le hid
      (Nat.lt_of_le_of_lt (Nat.add_le_add hheader hpayload) (by decide))
    omega
  have hbatch := Batch.length_ofTransactions_le d.signer
    (fun t ht => (small_sample t (hsmall t ht)).2.2) hbound (by rw [hcount]; decide)
  rw [hcount] at hbatch
  exact Nat.le_trans hbatch (by decide)

/-- Each order has its transaction, and the ids are in the order of the transactions. Another batch
has them the other way round. -/
theorem batches_check_out_sample :
    Draft.sample.batch.ChecksOut .sample ∧
    (Draft.sample.batch.transactions.map (·.payload) = [[], [1]] ∧
      Draft.swapped.batch.transactions = Draft.sample.batch.transactions.reverse) ∧
    BatchList.schema.decode
        (BatchList.schema.encode { batches := [Draft.sample.batch, Draft.swapped.batch] }) =
      .ok { batches := [Draft.sample.batch, Draft.swapped.batch] } := by
  refine ⟨batches_check_out.1 _ ?_, ⟨rfl, rfl⟩, batches_check_out.2.2 [.sample, .swapped] ?_⟩
  · intro t ht
    exact Nat.lt_of_le_of_lt (Draft.small_sample t ht).1 (by decide)
  · intro d hd
    refine Nat.lt_of_le_of_lt (Draft.length_encode_le ?_ ?_) (show 3200 < _ by decide)
    · rcases List.mem_pair.mp hd with rfl | rfl <;> rfl
    · rcases List.mem_pair.mp hd with rfl | rfl
      · exact fun t ht => ht
      · exact fun t ht => List.mem_reverse.mp ht

end CertRegistry
