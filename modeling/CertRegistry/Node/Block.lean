import CertRegistry.Json.Shape
import CertRegistry.Text.Digits

/-!
# Blocks

A block as a node lists it. Its header is left as it came; the height is found in it, as a
number or as digits.
-/

namespace CertRegistry

open Json

structure Block where
  headerSignature : String := ""
  header : Value := .null

namespace Block

def shape : Record Block where
  name := "Block"
  blank := {}
  members := [
    .required "header_signature" .text fun b v => { b with headerSignature := v },
    .optional "header" .value fun b v => { b with header := v }]

/-- The height of the block. -/
def height? (b : Block) : Option Nat :=
  match b.header.member? "block_num" with
  | some (.text s) => Text.natural? UInt64.size s
  | some (.number (.natural n)) => some n
  | _ => none

end Block

end CertRegistry
