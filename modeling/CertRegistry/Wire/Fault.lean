/-!
# Faults of the wire format

What can be wrong with octets that should hold a record, and the fields around the place where it
was found.
-/

namespace CertRegistry.Wire

/-- How the value of a field is laid out. -/
inductive WireType where
  | varint
  | fixed64
  | delimited
  | startGroup
  | endGroup
  | fixed32
  deriving DecidableEq, Repr

namespace WireType

def toNat : WireType → Nat
  | varint => 0
  | fixed64 => 1
  | delimited => 2
  | startGroup => 3
  | endGroup => 4
  | fixed32 => 5

def ofNat? : Nat → Option WireType
  | 0 => some varint
  | 1 => some fixed64
  | 2 => some delimited
  | 3 => some startGroup
  | 4 => some endGroup
  | 5 => some fixed32
  | _ => none

theorem ofNat?_toNat (t : WireType) : ofNat? t.toNat = some t := by cases t <;> rfl

def name : WireType → String
  | varint => "Varint"
  | fixed64 => "SixtyFourBit"
  | delimited => "LengthDelimited"
  | startGroup => "StartGroup"
  | endGroup => "EndGroup"
  | fixed32 => "ThirtyTwoBit"

end WireType

inductive Cause where
  | badVarint
  | underflow
  /-- The fields of a record do not end where its length says. -/
  | overrun
  | zeroTag
  | badKey (key : Nat)
  | badWireType (value : Nat)
  | wrongWireType (found expected : WireType)
  | strayEndGroup
  | tooDeep
  | notUtf8
  deriving DecidableEq, Repr

/-- A cause with the record and field names around it, innermost first. -/
structure Fault where
  cause : Cause
  path : List (String × String) := []
  deriving DecidableEq, Repr

def Cause.message : Cause → String
  | .badVarint => "invalid varint"
  | .underflow => "buffer underflow"
  | .overrun => "delimited length exceeded"
  | .zeroTag => "invalid tag value: 0"
  | .badKey key => s!"invalid key value: {key}"
  | .badWireType value => s!"invalid wire type value: {value}"
  | .wrongWireType found expected =>
    "invalid wire type: " ++ found.name ++ " (expected " ++ expected.name ++ ")"
  | .strayEndGroup => "unexpected end group tag"
  | .tooDeep => "recursion limit reached"
  | .notUtf8 => "invalid string value: data is not UTF-8 encoded"

namespace Fault

/-- The fault seen from the field of a record that it lies in. -/
def within (record field : String) (fault : Fault) : Fault :=
  { fault with path := fault.path ++ [(record, field)] }

def message (fault : Fault) : String :=
  "failed to decode Protobuf message: " ++
    String.join (fault.path.map fun place => place.1 ++ "." ++ place.2 ++ ": ") ++
    fault.cause.message

end Fault

def fail {α : Type} (cause : Cause) : Except Fault α := .error { cause }

end CertRegistry.Wire
