import CertRegistry.Registry.Record

/-!
# Actions on the registry

The registry numbers its actions. This client asks for one of them, the creation of an agent, and
recognizes the others by name.
-/

namespace CertRegistry

/-- The numbered actions of the registry. -/
inductive ActionKind where
  | unset
  | createAgent
  | createOrganization
  | updateOrganization
  | authorizeAgent
  | issueCertificate
  | createStandard
  | updateStandard
  | openRequest
  | changeRequestStatus
  | accreditCertifyingBody
  deriving DecidableEq, Repr

namespace ActionKind

def number : ActionKind → Int32
  | unset => 0
  | createAgent => 1
  | createOrganization => 2
  | updateOrganization => 3
  | authorizeAgent => 4
  | issueCertificate => 5
  | createStandard => 6
  | updateStandard => 7
  | openRequest => 8
  | changeRequestStatus => 9
  | accreditCertifyingBody => 10

def name : ActionKind → String
  | unset => "UnsetAction"
  | createAgent => "CreateAgent"
  | createOrganization => "CreateOrganization"
  | updateOrganization => "UpdateOrganization"
  | authorizeAgent => "AuthorizeAgent"
  | issueCertificate => "IssueCertificate"
  | createStandard => "CreateStandard"
  | updateStandard => "UpdateStandard"
  | openRequest => "OpenRequestAction"
  | changeRequestStatus => "ChangeRequestStatusAction"
  | accreditCertifyingBody => "AccreditCertifyingBodyAction"

def all : List ActionKind :=
  [unset, createAgent, createOrganization, updateOrganization, authorizeAgent, issueCertificate,
    createStandard, updateStandard, openRequest, changeRequestStatus, accreditCertifyingBody]

def ofNumber? (n : Int32) : Option ActionKind := all.find? (·.number = n)

theorem ofNumber?_number (kind : ActionKind) : ofNumber? kind.number = some kind := by
  cases kind <;> decide

end ActionKind

/-- A change that this client asks for. -/
inductive Action where
  /-- Registers the signer as an agent. -/
  | createAgent (name : Option String) (timestamp : UInt64)
  deriving DecidableEq, Repr

namespace Action

/-- Why octets are no action of this client. -/
inductive Rejection where
  | malformed (fault : Wire.Fault)
  | unsupported (kind : ActionKind)
  | unknown (number : Int32)
  deriving DecidableEq

namespace Rejection

def message : Rejection → String
  | malformed fault => "Failed to decode registry data: " ++ fault.message
  | unsupported kind => "Unsupported action: " ++ kind.name
  | unknown number => "Unsupported action: unknown action " ++ toString number.toInt

end Rejection

def kind : Action → ActionKind
  | createAgent .. => .createAgent

def payload : Action → RegistryPayload
  | createAgent name timestamp =>
    { action := ActionKind.createAgent.number
      createAgent := some { name := name.getD "", timestamp } }

def encode (action : Action) : Bytes := RegistryPayload.schema.encode action.payload

/-- The action that a payload asks for; an empty name counts as none. -/
def ofPayload (payload : RegistryPayload) : Except Rejection Action :=
  match ActionKind.ofNumber? payload.action with
  | some .createAgent =>
    let details := payload.createAgent.getD {}
    .ok (.createAgent (if details.name = "" then none else some details.name) details.timestamp)
  | some kind => .error (.unsupported kind)
  | none => .error (.unknown payload.action)

def decode (bs : Bytes) : Except Rejection Action :=
  match RegistryPayload.schema.decode bs with
  | .error fault => .error (.malformed fault)
  | .ok payload => ofPayload payload

end Action

end CertRegistry
