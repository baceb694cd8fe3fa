import CertRegistry.Curve.Point
import CertRegistry.Hash.Hmac

/-!
# One-time factors without chance

The factor that signs a message is drawn from a keyed digest of the key and the message, so that
equal messages are signed alike and no source of chance is needed.
-/

namespace CertRegistry.Curve.Nonce

/-- The state of the draw. -/
@[ext]
structure Source where
  key : Bytes
  value : Bytes
  length_key : key.length = 32
  length_value : value.length = 32

/-- How many states there are. -/
def Source.stateCount : Nat := Nat.pow 256 64

/-- Mixes octets into the state. -/
def Source.feed (g : Source) (extra : Bytes) : Source :=
  let key := hmacSha256 g.key (g.value ++ extra)
  { key, value := hmacSha256 key g.value
    length_key := length_hmacSha256 _ _, length_value := length_hmacSha256 _ _ }

/-- The state after a draw, which has given its value. -/
def Source.drawn (g : Source) : Source :=
  { g with value := hmacSha256 g.key g.value, length_value := length_hmacSha256 _ _ }

/-- The state from which the next draw is made. -/
def Source.next (g : Source) : Source := g.drawn.feed [0]

/-- The state for a key and a message. -/
def Source.seed (secret message : Scalar) : Source :=
  let material := Bytes.ofNat 32 secret.val ++ Bytes.ofNat 32 message.val
  let start : Source :=
    { key := List.replicate 32 0, value := List.replicate 32 1, length_key := rfl
      length_value := rfl }
  (start.feed (0 :: material)).feed (1 :: material)

/-- A factor, if the draw is in range and not zero. -/
def ofBytes? (bs : Bytes) : Option Scalar :=
  let n := Bytes.toNat bs
  if h : n < order then if n = 0 then none else some ⟨n, h⟩ else none

/-- The answer of `f` on the factor that is drawn, if one is. -/
def Source.answer? {α : Type} (f : Scalar → Option α) (g : Source) : Option α :=
  (ofBytes? g.drawn.value).bind f

/-- The first answer of `f` on a factor among `count` draws. -/
def Source.findSome? {α : Type} (f : Scalar → Option α) : Nat → Source → Option α
  | 0, _ => none
  | count + 1, g =>
    match g.answer? f with
    | some a => some a
    | none => findSome? f count g.next

end CertRegistry.Curve.Nonce
