import CertRegistry.Duration
import Mathlib.Order.Nat
import Mathlib.Order.MinMax

/-!
# Durations as numbers of nanoseconds

A duration is a number of nanoseconds up to the longest duration. It has one spelling as seconds and
nanoseconds, so that durations can be compared part by part. A multiple of a duration is the exact
product as far as that is a duration, and words of 64 bits are enough to compute it.
-/

namespace CertRegistry.Duration

variable {d e : Duration} {m n : Nat}

/-! ## Order -/

theorem toNanos_injective : Function.Injective toNanos := by
  intro d e h
  have hd := d.nanos_lt
  have he := e.nanos_lt
  simp only [toNanos, nanosPerSecond] at h hd he
  exact Duration.ext (by omega) (by omega)

instance : PartialOrder Duration := PartialOrder.lift toNanos toNanos_injective

theorem le_iff_toNanos_le : d ≤ e ↔ d.toNanos ≤ e.toNanos := .rfl

/-- The nanoseconds only matter between durations of the same number of seconds. -/
theorem le_iff_parts :
    d ≤ e ↔ d.seconds < e.seconds ∨ d.seconds = e.seconds ∧ d.nanos ≤ e.nanos := by
  have hd := d.nanos_lt
  have he := e.nanos_lt
  simp only [le_iff_toNanos_le, toNanos, nanosPerSecond] at *
  omega

theorem toMillis_eq (d : Duration) : d.toMillis = (d.toNanos + 999999) / 1000000 := by
  simp only [toMillis, toNanos, nanosPerSecond]
  omega

theorem toMillis_le_toMillis (h : d ≤ e) : d.toMillis ≤ e.toMillis := by
  rw [toMillis_eq, toMillis_eq]
  exact Nat.div_le_div_right (Nat.add_le_add_right h _)

/-! ## Multiples -/

theorem mul_toNanos (n : Nat) (d : Duration) :
    n * d.toNanos = d.seconds * n * nanosPerSecond + d.nanos * n := by
  rw [toNanos, Nat.mul_add, ← Nat.mul_assoc, Nat.mul_comm n d.seconds, Nat.mul_comm n d.nanos]

theorem toNanos_scale (n : Nat) (d : Duration) :
    (d.scale n).toNanos = min (n * d.toNanos) longest.toNanos := by
  rw [scale, toNanos_ofParts, mul_toNanos]

theorem scale_le_scale (hn : m ≤ n) (hd : d ≤ e) : d.scale m ≤ e.scale n := by
  rw [le_iff_toNanos_le, toNanos_scale, toNanos_scale]
  exact min_le_min_right _ (Nat.mul_le_mul hn hd)

/-! ## Multiples in words -/

/-- The word of 64 bits for a number, unless the number is too large. -/
def word? (n : Nat) : Option UInt64 := if n < UInt64.size then some (UInt64.ofNat n) else none

/-- The duration of so many seconds and of those nanoseconds that are no whole seconds. -/
def ofWords (seconds nanos : UInt64) : Duration :=
  ⟨seconds.toNat, nanos.toNat % nanosPerSecond, seconds.toNat_lt_size, Nat.mod_lt _ (by decide)⟩

/-- So many times the duration, computed in words of 64 bits, unless it is too long. The seconds may
become too many when they are multiplied, and again when the whole seconds among the nanoseconds are
added to them. -/
def scaleWords? (n : UInt32) (d : Duration) : Option Duration := do
  let nanos := UInt64.ofNat d.nanos * n.toUInt64
  let seconds ← word? (d.seconds * n.toNat)
  let seconds ← word? (seconds.toNat + (nanos / UInt64.ofNat nanosPerSecond).toNat)
  return ofWords seconds nanos

theorem toNat_of_word? {n : Nat} {w : UInt64} (h : word? n = some w) : w.toNat = n := by
  unfold word? at h
  split at h
  · next hfits =>
    obtain rfl := Option.some.inj h
    exact UInt64.toNat_ofNat_of_lt' hfits
  · cases h

theorem size_le_of_word? {n : Nat} (h : word? n = none) : UInt64.size ≤ n := by
  unfold word? at h
  split at h
  · cases h
  · next hlarge => exact Nat.le_of_not_lt hlarge

/-- The product of the nanoseconds is a word, so that nothing of it is lost. -/
theorem toNat_nanos_mul (n : UInt32) (d : Duration) :
    (UInt64.ofNat d.nanos * n.toUInt64).toNat = d.nanos * n.toNat := by
  have hnanos := d.nanos_lt
  have hfits : d.nanos * n.toNat < UInt64.size := by
    calc d.nanos * n.toNat ≤ nanosPerSecond * UInt32.size :=
          Nat.mul_le_mul hnanos.le n.toNat_lt_size.le
      _ < UInt64.size := by decide
  rw [UInt64.toNat_mul, UInt64.toNat_ofNat_of_lt' (hnanos.trans (by decide)), UInt32.toNat_toUInt64]
  exact Nat.mod_eq_of_lt hfits

theorem ofParts?_eq_none_iff {seconds nanos : Nat} :
    ofParts? seconds nanos = none ↔ UInt64.size ≤ seconds + nanos / nanosPerSecond := by
  simp [ofParts?]

theorem scaleWords?_eq (n : UInt32) (d : Duration) :
    d.scaleWords? n = ofParts? (d.seconds * n.toNat) (d.nanos * n.toNat) := by
  have hnanos := toNat_nanos_mul n d
  have hcarry : (UInt64.ofNat d.nanos * n.toUInt64 / UInt64.ofNat nanosPerSecond).toNat =
      d.nanos * n.toNat / nanosPerSecond := by
    rw [UInt64.toNat_div, hnanos]
    rfl
  unfold scaleWords?
  cases hproduct : word? (d.seconds * n.toNat) with
  | none =>
    have hlarge := size_le_of_word? hproduct
    exact (ofParts?_eq_none_iff.mpr (hlarge.trans (Nat.le_add_right _ _))).symm
  | some seconds =>
    simp only [Option.bind_eq_bind, Option.bind_some, toNat_of_word? hproduct, hcarry]
    cases hsum : word? (d.seconds * n.toNat + d.nanos * n.toNat / nanosPerSecond) with
    | none => exact (ofParts?_eq_none_iff.mpr (size_le_of_word? hsum)).symm
    | some total =>
      have htotal := toNat_of_word? hsum
      rw [ofParts?, dif_pos (htotal ▸ total.toNat_lt_size)]
      exact congrArg some (Duration.ext htotal (congrArg (· % nanosPerSecond) hnanos))

/-- Words of 64 bits do not do exactly for what is longer than the longest duration. -/
theorem scaleWords?_eq_none_iff {n : UInt32} {d : Duration} :
    d.scaleWords? n = none ↔ longest.toNanos < n.toNat * d.toNanos := by
  rw [scaleWords?_eq, ofParts?_eq_none_iff, mul_toNanos]
  simp only [toNanos, longest, nanosPerSecond, UInt64.size]
  omega

theorem scale_eq_scaleWords (n : UInt32) (d : Duration) :
    d.scale n.toNat = (d.scaleWords? n).getD longest := by
  rw [scaleWords?_eq]
  rfl

end CertRegistry.Duration
