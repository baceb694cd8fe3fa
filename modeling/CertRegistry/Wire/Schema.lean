import CertRegistry.Wire.Varint

/-!
# Records as fields

A record is described by its fields. Each has a tag, a codec for one value, and a slot that says
how many values the field holds: one that is left out when it is blank, one that may be absent, or
a list. Writing goes through the fields in order; reading takes fields in any order, lets later
values replace or extend earlier ones, and skips what the record does not know.
-/

namespace CertRegistry.Wire

/-- How one value is laid out. Reading starts from a value read before, which a record extends and
all else replaces. -/
structure Codec (α : Type) where
  type : WireType
  blank : α
  put : α → Bytes
  /-- The number bounds how deep records may nest from here on. -/
  update : Nat → α → Bytes → Except Fault (α × Bytes)

/-- How a field of type `β` holds values of type `α`. -/
structure Slot (α β : Type) where
  empty : β
  /-- The values that are written. -/
  values : β → List α
  /-- The value that the next one on the wire extends. -/
  current : β → Option α
  store : β → α → β

namespace Slot

/-- A single value, left out when it is the blank one. -/
def single {α : Type} [DecidableEq α] (blank : α) : Slot α α where
  empty := blank
  values v := if v = blank then [] else [v]
  current v := some v
  store _ v := v

/-- A value that may be absent. -/
def optional {α : Type} : Slot α (Option α) where
  empty := none
  values := Option.toList
  current v := v
  store _ v := some v

def repeated {α : Type} : Slot α (List α) where
  empty := []
  values vs := vs
  current _ := none
  store vs v := vs ++ [v]

end Slot

/-- A field of the record `M`. -/
structure Field (M : Type) where
  {α : Type}
  {β : Type}
  tag : Nat
  name : String
  codec : Codec α
  slot : Slot α β
  get : M → β
  set : M → β → M

/-- A record type with its fields in order of their tags. -/
structure Schema (M : Type) where
  name : String
  blank : M
  fields : List (Field M)

namespace Field

variable {M : Type} (f : Field M)

def putValue (v : f.α) : Bytes := Key.put { tag := f.tag, type := f.codec.type } ++ f.codec.put v

def put (m : M) : Bytes := (f.slot.values (f.get m)).flatMap f.putValue

/-- Reads a value of the field into the record. -/
def update (depth : Nat) (type : WireType) (m : M) (bs : Bytes) : Except Fault (M × Bytes) :=
  if type ≠ f.codec.type then fail (.wrongWireType type f.codec.type)
  else do
    let start := (f.slot.current (f.get m)).getD f.codec.blank
    let (v, rest) ← f.codec.update depth start bs
    return (f.set m (f.slot.store (f.get m) v), rest)

end Field

/-- Reads fields with `step` until `stop` octets are left. Each takes at least one octet, so as
many fields as there are octets are enough. -/
def readUntil {M : Type} (step : M → Bytes → Except Fault (M × Bytes)) (stop : Nat) :
    Nat → M → Bytes → Except Fault (M × Bytes)
  | 0, m, bs => if bs.length = stop then .ok (m, bs) else fail .overrun
  | count + 1, m, bs =>
    if bs.length = stop then .ok (m, bs)
    else if bs.length < stop then fail .overrun
    else do
      let (m, rest) ← step m bs
      readUntil step stop count m rest

namespace Schema

variable {M : Type} (S : Schema M)

def field? (tag : Nat) : Option (Field M) := S.fields.find? (·.tag = tag)

def encode (m : M) : Bytes := S.fields.flatMap (·.put m)

/-- Reads one field into the record. -/
def readField (depth : Nat) (m : M) (bs : Bytes) : Except Fault (M × Bytes) := do
  let (key, rest) ← takeKey bs
  match S.field? key.tag with
  | some f => (f.update depth key.type m rest).mapError (Fault.within S.name f.name)
  | none =>
    let rest ← skipValue depth key.type key.tag rest
    return (m, rest)

/-- Reads fields into the record until `stop` octets are left. -/
def readFields (depth stop : Nat) (m : M) (bs : Bytes) : Except Fault (M × Bytes) :=
  readUntil (S.readField depth) stop bs.length m bs

/-- How deep records and groups may nest. -/
def maxDepth : Nat := 100

/-- The record that octets spell. -/
def decode (bs : Bytes) : Except Fault M := (·.1) <$> S.readFields maxDepth 0 S.blank bs

/-- The record as a value of a field in another one. -/
def codec : Codec M where
  type := .delimited
  blank := S.blank
  put m :=
    let body := S.encode m
    putVarint body.length ++ body
  update depth m bs :=
    match depth with
    | 0 => fail .tooDeep
    | depth + 1 => do
      let (length, rest) ← takeVarint bs
      if rest.length < length then fail .underflow
      else S.readFields depth (rest.length - length) m rest

end Schema

namespace Codec

/-- A whole number of 64 bits. -/
def uint64 : Codec UInt64 where
  type := .varint
  blank := 0
  put v := putVarint v.toNat
  update _ _ bs := do
    let (n, rest) ← takeVarint bs
    return (UInt64.ofNat n, rest)

/-- A signed number of 32 bits, written with its sign extended and read from the lowest bits. -/
def int32 : Codec Int32 where
  type := .varint
  blank := 0
  put v := putVarint (v.toInt % UInt64.size).toNat
  update _ _ bs := do
    let (n, rest) ← takeVarint bs
    return (Int32.ofNat n, rest)

def bool : Codec Bool where
  type := .varint
  blank := false
  put v := putVarint v.toNat
  update _ _ bs := do
    let (n, rest) ← takeVarint bs
    return (n ≠ 0, rest)

def octets : Codec Bytes where
  type := .delimited
  blank := []
  put v := putVarint v.length ++ v
  update _ _ bs := takeDelimited bs

def text : Codec String where
  type := .delimited
  blank := ""
  put v := octets.put (Bytes.ofText v)
  update _ _ bs := do
    let (v, rest) ← takeDelimited bs
    match Bytes.text? v with
    | some s => return (s, rest)
    | none => fail .notUtf8

end Codec

namespace Field

variable {M α : Type}

def single [DecidableEq α] (tag : Nat) (name : String) (codec : Codec α) (get : M → α)
    (set : M → α → M) : Field M :=
  { tag, name, codec, slot := .single codec.blank, get, set }

def optional (tag : Nat) (name : String) (codec : Codec α) (get : M → Option α)
    (set : M → Option α → M) : Field M :=
  { tag, name, codec, slot := .optional, get, set }

def repeated (tag : Nat) (name : String) (codec : Codec α) (get : M → List α)
    (set : M → List α → M) : Field M :=
  { tag, name, codec, slot := .repeated, get, set }

end Field

end CertRegistry.Wire
