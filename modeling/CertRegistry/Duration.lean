/-!
# Durations

Spans of time in seconds and nanoseconds, up to a longest one. Arithmetic that would pass the
longest duration stops there.
-/

namespace CertRegistry

/-- Nanoseconds in a second. -/
abbrev nanosPerSecond : Nat := 1000000000

structure Duration where
  seconds : Nat
  nanos : Nat
  seconds_lt : seconds < UInt64.size
  nanos_lt : nanos < nanosPerSecond
  deriving DecidableEq, Repr

namespace Duration

@[ext]
theorem ext {d e : Duration} (hs : d.seconds = e.seconds) (hn : d.nanos = e.nanos) : d = e := by
  cases d
  cases e
  simp_all

def zero : Duration := ⟨0, 0, by decide, by decide⟩

/-- The longest duration. -/
def longest : Duration :=
  ⟨UInt64.size - 1, nanosPerSecond - 1, by decide, by decide⟩

/-- The duration of so many seconds and nanoseconds; whole seconds are carried over. -/
def ofParts? (seconds nanos : Nat) : Option Duration :=
  if h : seconds + nanos / nanosPerSecond < UInt64.size then
    some ⟨seconds + nanos / nanosPerSecond, nanos % nanosPerSecond, h, Nat.mod_lt _ (by decide)⟩
  else none

/-- The duration of so many seconds and nanoseconds, or the longest one if they are more. -/
def ofParts (seconds nanos : Nat) : Duration := (ofParts? seconds nanos).getD longest

def ofSeconds (n : Nat) : Duration := ofParts n 0

def ofMillis (n : Nat) : Duration := ofParts (n / 1000) (n % 1000 * 1000000)

/-- The duration in nanoseconds. -/
def toNanos (d : Duration) : Nat := d.seconds * nanosPerSecond + d.nanos

/-- The duration in milliseconds, of which one that has begun counts. -/
def toMillis (d : Duration) : Nat := d.seconds * 1000 + (d.nanos + 999999) / 1000000

/-- So many times the duration, in each part by itself. -/
def scale (n : Nat) (d : Duration) : Duration := ofParts (d.seconds * n) (d.nanos * n)

theorem toNanos_ofParts (s n : Nat) :
    (ofParts s n).toNanos = min (s * nanosPerSecond + n) longest.toNanos := by
  unfold ofParts ofParts?
  split
  · next h =>
    have hs : s + n / 1000000000 < 18446744073709551616 := h
    simp only [Option.getD_some, toNanos, longest, nanosPerSecond, UInt64.size]
    omega
  · next h =>
    have hs : ¬ s + n / 1000000000 < 18446744073709551616 := h
    simp only [Option.getD_none, toNanos, longest, nanosPerSecond, UInt64.size]
    omega

end Duration

/-- The delay after a failed attempt: the step times the number of the attempt, counted from
one. -/
def linearBackoff (attempt : UInt32) (step : Duration) : Duration := step.scale attempt.toNat

end CertRegistry
