import CertRegistry.Ledger.Batching
import CertRegistry.Proofs.Bytes.Hex
import CertRegistry.Proofs.Wire.Sizes

/-!
# How large the batch of an order is

Signatures, keys and digests have fixed lengths, so what surrounds a payload is small: the octets
of the batch are bounded by those of the payload and of the texts in its header.
-/

namespace CertRegistry

open Wire Wire.Field

/-! ## Keys and signatures -/

theorem Curve.Point.length_toBytes_le (p : Curve.Point) : p.toBytes.length ≤ 33 := by
  cases p with
  | infinity => decide
  | affine x y => simp [toBytes]

/-- The signer with the least secret there is. -/
def Signer.least : Signer where
  secret := 1
  secret_ne_zero := by decide

theorem Signer.length_publicKeyHex_le (signer : Signer) :
    (Bytes.ofText signer.publicKeyHex).length ≤ 66 := by
  have := signer.publicKey.length_toBytes_le
  rw [publicKeyHex, Hex.length_ofText_encode]
  omega

theorem Signer.length_sign (signer : Signer) (message : Bytes) :
    (Bytes.ofText (signer.sign message)).length = 128 := by
  rw [sign, Hex.length_ofText_encode]
  simp [Curve.Signature.toBytes]

/-! ## Transactions and batches -/

variable (family : Family) (signer : Signer) (nonce : Bytes) (order : Order)

/-- The octets of the names of a family. -/
def Family.size (family : Family) : Nat :=
  (Bytes.ofText family.name).length + (Bytes.ofText family.version).length

namespace Family

theorem headerSignature_transaction : (family.transaction signer nonce order).headerSignature =
      signer.sign (family.transaction signer nonce order).header := rfl

theorem length_header_le (width : Nat) (hnonce : nonce.length = 16)
    (hwidth : ∀ text ∈ order.inputs ++ order.outputs, (Bytes.ofText text).length ≤ width)
    (hsize : family.size + width < UInt64.size) :
    (family.transaction signer nonce order).header.length ≤
      500 + family.size + (order.inputs.length + order.outputs.length) * (10 + (10 + width)) := by
  simp only [size] at *
  have hkey := Codec.length_put_text_le_of_le signer.length_publicKeyHex_le (by decide)
  have hname := Codec.length_put_text_le (v := family.name) (by omega)
  have hversion := Codec.length_put_text_le (v := family.version) (by omega)
  have hdigits := Codec.length_put_text_le_of_le (v := Hex.encode nonce)
    (Nat.le_of_eq (Hex.length_ofText_encode nonce)) (by rw [hnonce]; decide)
  have hdigest := Codec.length_put_text_le_of_le (v := payloadDigest order.payload)
    (Nat.le_of_eq (Hex.length_ofText_encode _)) (by rw [length_sha512]; decide)
  have hin : ∀ text ∈ order.inputs, (Codec.text.put text).length ≤ 10 + width := fun text h =>
    Codec.length_put_text_le_of_le (hwidth text (by simp [h])) (by omega)
  have hout : ∀ text ∈ order.outputs, (Codec.text.put text).length ≤ 10 + width := fun text h =>
    Codec.length_put_text_le_of_le (hwidth text (by simp [h])) (by omega)
  have hnone : ∀ text ∈ (family.header signer nonce order).dependencies,
      (Codec.text.put text).length ≤ 0 := by simp [header]
  show (TransactionHeader.schema.encode (family.header signer nonce order)).length ≤ _
  simp only [Schema.encode, TransactionHeader.schema, List.flatMap_cons, List.flatMap_nil,
    List.append_nil, List.length_append]
  refine Nat.le_trans (Nat.add_le_add (length_put_single_le (by decide) hkey) <|
    Nat.add_le_add (length_put_repeated_le (by decide) hnone) <|
    Nat.add_le_add (length_put_single_le (by decide) hname) <|
    Nat.add_le_add (length_put_single_le (by decide) hversion) <|
    Nat.add_le_add (length_put_repeated_le (by decide) hin) <|
    Nat.add_le_add (length_put_single_le (by decide) hdigits) <|
    Nat.add_le_add (length_put_repeated_le (by decide) hout) <|
    Nat.add_le_add (length_put_single_le (by decide) hdigest) <|
    length_put_single_le (by decide) hkey) ?_
  simp only [header, hnonce, length_sha512, List.length_nil, Nat.add_mul]
  omega

end Family

theorem Transaction.length_encode_le {t : Transaction}
    (hsignature : (Bytes.ofText t.headerSignature).length = 128)
    (hsize : t.header.length + t.payload.length < UInt64.size) :
    (Transaction.schema.encode t).length ≤ 200 + t.header.length + t.payload.length := by
  have hheader := Codec.length_put_octets_le (v := t.header) (by omega)
  have hid := Codec.length_put_text_le_of_le (Nat.le_of_eq hsignature) (by decide)
  have hpayload := Codec.length_put_octets_le (v := t.payload) (by omega)
  simp only [Schema.encode, Transaction.schema, List.flatMap_cons, List.flatMap_nil,
    List.append_nil, List.length_append]
  refine Nat.le_trans (Nat.add_le_add (length_put_single_le (by decide) hheader) <|
    Nat.add_le_add (length_put_single_le (by decide) hid) <|
    length_put_single_le (by decide) hpayload) ?_
  omega

namespace Batch

variable {transactions : List Transaction}

theorem length_header_ofTransactions_le
    (hids : ∀ t ∈ transactions, (Bytes.ofText t.headerSignature).length = 128) :
    (ofTransactions signer transactions).header.length ≤ 100 + transactions.length * 150 := by
  have hkey := Codec.length_put_text_le_of_le signer.length_publicKeyHex_le (by decide)
  have hputs : ∀ id ∈ transactions.map (·.headerSignature),
      (Codec.text.put id).length ≤ 10 + 128 := by
    intro id hid
    obtain ⟨t, ht, rfl⟩ := List.mem_map.mp hid
    exact Codec.length_put_text_le_of_le (Nat.le_of_eq (hids t ht)) (by decide)
  show (BatchHeader.schema.encode _).length ≤ _
  simp only [Schema.encode, BatchHeader.schema, List.flatMap_cons, List.flatMap_nil,
    List.append_nil, List.length_append]
  refine Nat.le_trans (Nat.add_le_add (length_put_single_le (by decide) hkey) <|
    length_put_repeated_le (by decide) hputs) ?_
  rw [List.length_map]
  omega

theorem length_ofTransactions_le {bound : Nat}
    (hids : ∀ t ∈ transactions, (Bytes.ofText t.headerSignature).length = 128)
    (hbound : ∀ t ∈ transactions, (Transaction.schema.encode t).length ≤ bound)
    (hsize : 300 + transactions.length * (200 + bound) < UInt64.size) :
    (Batch.schema.encode (ofTransactions signer transactions)).length ≤
      300 + transactions.length * (200 + bound) := by
  rw [Nat.mul_add] at *
  have hheader := length_header_ofTransactions_le signer hids
  have hput := Codec.length_put_octets_le (v := (ofTransactions signer transactions).header)
    (by omega)
  have hid := Codec.length_put_text_le_of_le
    (v := (ofTransactions signer transactions).headerSignature)
    (Nat.le_of_eq (signer.length_sign _)) (by decide)
  have htransactions : ∀ t ∈ (ofTransactions signer transactions).transactions,
      (Transaction.schema.codec.put t).length ≤ 10 + bound := by
    intro t ht
    have hcount : 1 ≤ transactions.length := List.length_pos_of_mem ht
    have hsmall : bound ≤ transactions.length * bound := Nat.le_mul_of_pos_left _ hcount
    have ht' := hbound t ht
    exact Nat.le_trans (Schema.length_put_codec_le (by omega)) (Nat.add_le_add_left ht' 10)
  simp only [Schema.encode, Batch.schema, List.flatMap_cons, List.flatMap_nil,
    List.append_nil, List.length_append]
  refine Nat.le_trans (Nat.add_le_add (length_put_single_le (by decide) hput) <|
    Nat.add_le_add (length_put_single_le (by decide) hid) <|
    Nat.add_le_add (length_put_repeated_le (by decide) htransactions) <|
    length_put_single_le (by decide)
      (show (Codec.bool.put false).length ≤ 1 by decide +kernel)) ?_
  have htotal : transactions.length * (10 + (10 + bound)) =
      transactions.length * 20 + transactions.length * bound := by
    rw [← Nat.add_assoc, Nat.mul_add]
  simp only [ofTransactions] at *
  omega

theorem length_ofOrder_le
    (hsize : (family.transaction signer nonce order).header.length + order.payload.length + 700 <
      UInt64.size) :
    (Batch.schema.encode (Batch.ofOrder family signer nonce order)).length ≤
      700 + (family.transaction signer nonce order).header.length + order.payload.length := by
  have hpayload : (family.transaction signer nonce order).payload = order.payload := rfl
  have hids : ∀ t ∈ [family.transaction signer nonce order],
      (Bytes.ofText t.headerSignature).length = 128 := by
    intro t ht
    rw [List.mem_singleton.mp ht, Family.headerSignature_transaction, signer.length_sign]
  have hbound : ∀ t ∈ [family.transaction signer nonce order],
      (Transaction.schema.encode t).length ≤
        200 + (family.transaction signer nonce order).header.length + order.payload.length := by
    intro t ht
    obtain rfl := List.mem_singleton.mp ht
    have hinner := Transaction.length_encode_le (hids _ ht) (by rw [hpayload]; omega)
    rwa [hpayload] at hinner
  have hbatch := length_ofTransactions_le signer hids hbound
    (by rw [List.length_singleton]; omega)
  rw [List.length_singleton] at hbatch
  exact Nat.le_trans hbatch (by omega)

end Batch

theorem BatchList.length_encode_singleton_le {b : Batch}
    (hsize : (Batch.schema.encode b).length < UInt64.size) :
    (BatchList.schema.encode { batches := [b] }).length ≤
      20 + (Batch.schema.encode b).length := by
  have hbatches : ∀ b' ∈ [b],
      (Batch.schema.codec.put b').length ≤ 10 + (Batch.schema.encode b).length := by
    intro b' hb'
    rw [List.mem_singleton.mp hb']
    exact Schema.length_put_codec_le hsize
  simp only [Schema.encode, BatchList.schema, List.flatMap_cons, List.flatMap_nil, List.append_nil]
  refine Nat.le_trans (length_put_repeated_le (by decide) hbatches) ?_
  simp only [List.length_cons, List.length_nil, Schema.encode]
  omega

end CertRegistry
