import CertRegistry.Wire.Schema

/-!
# The envelopes of the ledger

A payload travels in a signed transaction, transactions in a signed batch, and batches in a list.
Headers are kept as the octets that were signed.
-/

namespace CertRegistry

open Wire

structure TransactionHeader where
  batcherPublicKey : String := ""
  dependencies : List String := []
  familyName : String := ""
  familyVersion : String := ""
  inputs : List String := []
  nonce : String := ""
  outputs : List String := []
  payloadSha512 : String := ""
  signerPublicKey : String := ""
  deriving DecidableEq, Repr

structure Transaction where
  header : Bytes := []
  headerSignature : String := ""
  payload : Bytes := []
  deriving DecidableEq, Repr

structure BatchHeader where
  signerPublicKey : String := ""
  transactionIds : List String := []
  deriving DecidableEq, Repr

structure Batch where
  header : Bytes := []
  headerSignature : String := ""
  transactions : List Transaction := []
  trace : Bool := false
  deriving DecidableEq, Repr

structure BatchList where
  batches : List Batch := []
  deriving DecidableEq, Repr

def TransactionHeader.schema : Schema TransactionHeader where
  name := "TransactionHeader"
  blank := {}
  fields := [
    .single 1 "batcher_public_key" .text (·.batcherPublicKey)
      fun m v => { m with batcherPublicKey := v },
    .repeated 2 "dependencies" .text (·.dependencies) fun m v => { m with dependencies := v },
    .single 3 "family_name" .text (·.familyName) fun m v => { m with familyName := v },
    .single 4 "family_version" .text (·.familyVersion) fun m v => { m with familyVersion := v },
    .repeated 5 "inputs" .text (·.inputs) fun m v => { m with inputs := v },
    .single 6 "nonce" .text (·.nonce) fun m v => { m with nonce := v },
    .repeated 7 "outputs" .text (·.outputs) fun m v => { m with outputs := v },
    .single 9 "payload_sha512" .text (·.payloadSha512) fun m v => { m with payloadSha512 := v },
    .single 10 "signer_public_key" .text (·.signerPublicKey)
      fun m v => { m with signerPublicKey := v }]

def Transaction.schema : Schema Transaction where
  name := "Transaction"
  blank := {}
  fields := [
    .single 1 "header" .octets (·.header) fun m v => { m with header := v },
    .single 2 "header_signature" .text (·.headerSignature)
      fun m v => { m with headerSignature := v },
    .single 3 "payload" .octets (·.payload) fun m v => { m with payload := v }]

def BatchHeader.schema : Schema BatchHeader where
  name := "BatchHeader"
  blank := {}
  fields := [
    .single 1 "signer_public_key" .text (·.signerPublicKey)
      fun m v => { m with signerPublicKey := v },
    .repeated 2 "transaction_ids" .text (·.transactionIds)
      fun m v => { m with transactionIds := v }]

def Batch.schema : Schema Batch where
  name := "Batch"
  blank := {}
  fields := [
    .single 1 "header" .octets (·.header) fun m v => { m with header := v },
    .single 2 "header_signature" .text (·.headerSignature)
      fun m v => { m with headerSignature := v },
    .repeated 3 "transactions" Transaction.schema.codec (·.transactions)
      fun m v => { m with transactions := v },
    .single 4 "trace" .bool (·.trace) fun m v => { m with trace := v }]

def BatchList.schema : Schema BatchList where
  name := "BatchList"
  blank := {}
  fields := [
    .repeated 1 "batches" Batch.schema.codec (·.batches) fun m v => { m with batches := v }]

end CertRegistry
