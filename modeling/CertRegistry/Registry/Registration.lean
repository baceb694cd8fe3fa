import CertRegistry.Node.Memory
import CertRegistry.Registry.Client
import Mathlib.Logic.Function.Basic

/-!
# Registrations

A registration is two requests, which submit a batch and ask what became of it. Where several
callers register at one node in memory, their requests may come in any order.
-/

namespace CertRegistry

open Rest

/-- What a signer registers with. -/
structure Registration where
  signer : Signer
  nonce : Bytes
  name : Option String
  timestamp : UInt64

namespace Registration

def order (r : Registration) : Order where
  payload := (Action.createAgent r.name r.timestamp).encode
  inputs := [Address.ofAgent r.signer.publicKeyHex]
  outputs := [Address.ofAgent r.signer.publicKeyHex]

def transaction (family : Family) (r : Registration) : Transaction :=
  family.transaction r.signer r.nonce r.order

def batch (family : Family) (r : Registration) : Batch :=
  Batch.ofOrder family r.signer r.nonce r.order

/-- The octets in which the batch is sent. -/
def body (family : Family) (r : Registration) : Bytes :=
  BatchList.schema.encode { batches := [r.batch family] }

end Registration

def RegistryClient.register (client : RegistryClient) (r : Registration) :
    Talk Ledger (List BatchStatus) :=
  client.createAgent Ledger.node r.signer r.nonce r.name r.timestamp

/-- Someone who registers, and with which client. -/
structure Caller where
  client : RegistryClient
  registration : Registration

namespace Caller

def batch (c : Caller) : Batch := c.registration.batch c.client.family

/-- The first request of a registration. -/
def submit (c : Caller) : Talk Ledger String :=
  c.client.rest.sendBatches Ledger.node { batches := [c.batch] }

/-- The second request of a registration. -/
def inquire (c : Caller) : Talk Ledger (List BatchStatus) :=
  c.client.rest.statuses Ledger.node [c.batch.headerSignature] (some c.client.statusWaitSeconds)

/-- All of a registration, without others in between. -/
def register (c : Caller) : Talk Ledger (List BatchStatus) := c.client.register c.registration

/-- There are no other requests. -/
theorem register_eq (c : Caller) : c.register = c.submit >>= fun _ => c.inquire := rfl

end Caller

/-- How far a caller has come. -/
inductive Stage where
  | waiting
  | submitted
  | returned (result : Except Rest.Fault (List BatchStatus))

/-- Callers who share a node. -/
structure Crowd (ι : Type) where
  session : Session Ledger := { node := {} }
  stage : ι → Stage := fun _ => .waiting

namespace Crowd

variable {ι : Type} [DecidableEq ι] (callers : ι → Caller)

/-- The next request of a caller. One who has returned makes none. -/
def turn (crowd : Crowd ι) (i : ι) : Crowd ι :=
  match crowd.stage i with
  | .waiting =>
    match (callers i).submit.run.run crowd.session with
    | (.ok _, session) => { session, stage := Function.update crowd.stage i .submitted }
    | (.error fault, session) =>
      { session, stage := Function.update crowd.stage i (.returned (.error fault)) }
  | .submitted =>
    let (result, session) := (callers i).inquire.run.run crowd.session
    { session, stage := Function.update crowd.stage i (.returned result) }
  | .returned _ => crowd

/-- All requests of a schedule, which says whose turn it is. -/
def run (schedule : List ι) : Crowd ι := schedule.foldl (turn callers) {}

end Crowd

end CertRegistry
