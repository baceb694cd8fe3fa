import CertRegistry.Text.Digits

/-!
# Levels

How important a message is, and how much passes a filter.
-/

namespace CertRegistry.Log

inductive Level where
  | error
  | warn
  | info
  | debug
  | trace
  deriving DecidableEq, Repr

namespace Level

def rank : Level → Nat
  | error => 1
  | warn => 2
  | info => 3
  | debug => 4
  | trace => 5

def all : List Level := [error, warn, info, debug, trace]

end Level

/-- The words for how much passes, each with the rank of the most detailed level. -/
def boundNames : List (String × Nat) :=
  [("off", 0), ("error", 1), ("warn", 2), ("info", 3), ("debug", 4), ("trace", 5)]

/-- How much passes: a word, in upper or lower case, or a rank. -/
def bound? (text : String) : Option Nat :=
  match (Text.natural? UInt64.size text).filter (· ≤ 5) with
  | some n => some n
  | none => boundNames.lookup (text.map Char.toLower)

end CertRegistry.Log
