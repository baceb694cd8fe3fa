import CertRegistry.Node.Status

/-!
# Counters

What a client counts: the batches that it submitted, the statuses that it was told, and how its
requests went. A tally is the list of all increments, so a counter that was raised by zero
differs from one that was never touched.
-/

namespace CertRegistry.Rest

/-- The resources of a node under whose names requests are counted. -/
inductive Resource where
  | batches
  | batchStatuses
  | state
  | blocks
  deriving DecidableEq, Repr

def Resource.name : Resource → String
  | batches => "batches"
  | batchStatuses => "batch_statuses"
  | state => "state"
  | blocks => "blocks"

inductive Counter where
  | batchesSubmitted
  | status (kind : StatusKind)
  | requests (resource : Resource) (success : Bool)
  deriving DecidableEq, Repr

namespace Counter

def name : Counter → String
  | batchesSubmitted => "consensource_batches_submitted_total"
  | status _ => "consensource_batch_status_total"
  | requests .. => "consensource_rest_requests_total"

def labels : Counter → List (String × String)
  | batchesSubmitted => []
  | status kind => [("status", kind.name)]
  | requests resource success =>
    [("endpoint", resource.name), ("outcome", if success then "success" else "error")]

def all : List Counter :=
  batchesSubmitted :: StatusKind.all.map status ++
    [.batches, .batchStatuses, .state, .blocks].flatMap fun r => [requests r true, requests r false]

end Counter

/-- The increments that were made, the last one first. -/
abbrev Tally := List (Counter × Nat)

namespace Tally

def add (tally : Tally) (counter : Counter) (n : Nat) : Tally := (counter, n) :: tally

/-- The total of a counter. -/
def total (tally : Tally) (counter : Counter) : Nat :=
  (tally.filter (·.1 = counter)).foldr (fun entry n => entry.2 + n) 0

/-- The total of a counter that was touched. -/
def total? (tally : Tally) (counter : Counter) : Option Nat :=
  if tally.any (·.1 = counter) then some (tally.total counter) else none

@[simp]
theorem total_nil (counter : Counter) : total [] counter = 0 := rfl

@[simp]
theorem total_add_self (tally : Tally) (counter : Counter) (n : Nat) :
    (tally.add counter n).total counter = tally.total counter + n := by
  simp [add, total, Nat.add_comm]

end Tally

end CertRegistry.Rest
