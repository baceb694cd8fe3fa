import CertRegistry.Bytes.Base64
import CertRegistry.Endpoint
import CertRegistry.Json.Fault
import CertRegistry.Rest.Message
import CertRegistry.Wire.Fault

/-!
# What can go wrong between client and node
-/

namespace CertRegistry.Rest

inductive Fault where
  | transport (fault : TransportFault)
  /-- The node answered with a status that is no success. -/
  | refused (status : Nat) (message : String)
  | badEndpoint (endpoint : String) (problem : Endpoint.Problem)
  /-- The body, given too, is not the JSON that was expected. -/
  | badJson (fault : Json.Fault) (body : String)
  | badBase64 (fault : Base64.Fault)
  | badRecord (fault : Wire.Fault)
  | unavailable (url : String) (tries : Nat)
  | stillPending (batchId : String) (seconds : Nat)
  /-- The node said nothing about the batch. -/
  | noStatus (batchId : String)
  /-- The time to wait for an answer is longer than any duration. -/
  | waitTooLong
  /-- A list goes on after as many pages as were to be read. -/
  | moreToRead
  deriving DecidableEq

def Fault.message : Fault → String
  | transport fault => "HTTP error: " ++ fault.message
  | refused status message => "REST API returned " ++ toString status ++ ": " ++ message
  | badEndpoint endpoint problem => Endpoint.complaint endpoint problem
  | badJson fault body => "Decode error: " ++ fault.message ++ ": " ++ body
  | badBase64 fault => "Decode error: invalid base64 state data: " ++ fault.message
  | badRecord fault => "Failed to decode registry data: " ++ fault.message
  | unavailable url tries =>
    url ++ " is not available within " ++ toString tries ++ " attempts"
  | stillPending batchId seconds =>
    "Batch " ++ batchId ++ " still pending after " ++ toString seconds ++ " seconds"
  | noStatus batchId => "No status returned for batch " ++ batchId
  | waitTooLong => "overflow when adding durations"
  | moreToRead => "More pages than were to be read"

end CertRegistry.Rest
