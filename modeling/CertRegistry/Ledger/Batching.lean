import CertRegistry.Ledger.Envelope
import CertRegistry.Signer

/-!
# Signed transactions and batches

A signer wraps payloads in transactions of a family and transactions in a batch. The signature
of a header is the id of what the header belongs to. Nonces come from outside, one per
transaction.
-/

namespace CertRegistry

/-- The digest of a payload as its transaction header carries it. -/
def payloadDigest (payload : Bytes) : String := Hex.encode (sha512 payload)

/-- A payload with the state addresses that its transaction reads and writes. -/
structure Order where
  payload : Bytes
  inputs : List String
  outputs : List String
  deriving DecidableEq, Repr

/-- A family of transactions, which the ledger hands to one kind of processor. -/
structure Family where
  name : String
  version : String
  deriving DecidableEq, Repr

namespace Family

/-- The header of a transaction; the signer is also the batcher. -/
def header (family : Family) (signer : Signer) (nonce : Bytes) (order : Order) :
    TransactionHeader where
  batcherPublicKey := signer.publicKeyHex
  familyName := family.name
  familyVersion := family.version
  inputs := order.inputs
  nonce := Hex.encode nonce
  outputs := order.outputs
  payloadSha512 := payloadDigest order.payload
  signerPublicKey := signer.publicKeyHex

def transaction (family : Family) (signer : Signer) (nonce : Bytes) (order : Order) :
    Transaction :=
  let header := TransactionHeader.schema.encode (family.header signer nonce order)
  { header, headerSignature := signer.sign header, payload := order.payload }

end Family

namespace Batch

/-- The batch of transactions that are signed already. -/
def ofTransactions (signer : Signer) (transactions : List Transaction) : Batch :=
  let header := BatchHeader.schema.encode
    { signerPublicKey := signer.publicKeyHex
      transactionIds := transactions.map (·.headerSignature) }
  { header, headerSignature := signer.sign header, transactions }

/-- The batch of a single transaction. -/
def ofOrder (family : Family) (signer : Signer) (nonce : Bytes) (order : Order) : Batch :=
  ofTransactions signer [family.transaction signer nonce order]

end Batch

end CertRegistry
