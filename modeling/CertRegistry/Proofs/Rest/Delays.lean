import CertRegistry.Proofs.Duration
import CertRegistry.Proofs.Rest.Availability

/-!
# Delays between attempts

Whoever waits for a status rests after each attempt but the last, for the step times the number of
the attempt. Up to the longest duration that is the exact product, and beyond it the longest
duration. So no step is too long and no attempt too late for a delay, and no delay is shorter than
one before it.
-/

namespace CertRegistry

theorem toNanos_linearBackoff (attempt : UInt32) (step : Duration) :
    (linearBackoff attempt step).toNanos =
      min (attempt.toNat * step.toNanos) Duration.longest.toNanos :=
  Duration.toNanos_scale _ _

theorem linearBackoff_le_linearBackoff {attempt later : UInt32} {step longer : Duration}
    (hattempt : attempt ≤ later) (hstep : step ≤ longer) :
    linearBackoff attempt step ≤ linearBackoff later longer :=
  Duration.scale_le_scale (UInt32.le_iff_toNat_le.mp hattempt) hstep

/-- The number of an attempt that can be made is a word of 32 bits. -/
theorem linearBackoff_ofNat {n : Nat} (h : n < UInt32.size) (step : Duration) :
    linearBackoff (UInt32.ofNat n) step = step.scale n := by
  rw [linearBackoff, UInt32.toNat_ofNat_of_lt' h]

namespace Rest

variable {σ : Type}

theorem getElem?_map_range {α : Type} {f : Nat → α} {n k : Nat} {a : α} :
    ((List.range n).map f)[k]? = some a ↔ k < n ∧ f k = a := by
  simp [List.getElem?_eq_some_iff]

/-- Whether attempts at a request are made as trials one after the other, the first one at a time
`now`, and every other one when the one before it is over and the delay behind that has passed. -/
structure AreSpaced (trials : Nat → Trial σ) (now : Nat) (made : List Attempt)
    (delays : List Duration) : Prop where
  first : ∀ a, made[0]? = some a → a.startedAt = now
  next : ∀ k a b, made[k]? = some a → made[k + 1]? = some b → ∃ d, delays[k]? = some d ∧
    b.startedAt = a.startedAt + (trials k).millis + d.toMillis
  ending : ∀ k a, made[k]? = some a → a.ending = (trials k).ending
  /-- No delay comes behind the last attempt. -/
  length_delays : delays.length = made.length - 1

/-- The delays behind so many attempts but the last. -/
def delaysBehind (step : Duration) (count : Nat) : List Duration :=
  (List.range (count - 1)).map fun k => step.scale (k + 1)

theorem toNanos_delaysBehind {step d : Duration} {count k : Nat}
    (h : (delaysBehind step count)[k]? = some d) :
    d.toNanos = min ((k + 1) * step.toNanos) Duration.longest.toNanos := by
  obtain ⟨-, rfl⟩ := getElem?_map_range.mp h
  exact Duration.toNanos_scale _ _

theorem pairwise_delaysBehind (step : Duration) (count : Nat) :
    (delaysBehind step count).Pairwise fun d e => d ≤ e ∧ d.toMillis ≤ e.toMillis := by
  refine List.pairwise_map.mpr (List.pairwise_lt_range.imp ?_)
  intro j k hlt
  have hle := Duration.scale_le_scale (Nat.succ_le_succ hlt.le) (le_refl step)
  exact ⟨hle, Duration.toMillis_le_toMillis hle⟩

/-- When so many trials were made, the attempts at them are spaced by the delays behind them. -/
theorem Session.exists_areSpaced (s : Session σ) (call : Call) (trials : Nat → Trial σ)
    (step : Duration) {count : Nat} (hcount : count < UInt32.size) (clock : Nat) :
    ∃ made, (s.tried call trials step count clock).attempts = made.reverse ++ s.attempts ∧
      made.length = count ∧ AreSpaced trials s.clock made (delaysBehind step count) := by
  refine ⟨_, rfl, by simp, ?_, ?_, ?_, by simp [delaysBehind]⟩
  · intro a ha
    obtain ⟨-, rfl⟩ := getElem?_map_range.mp ha
    rfl
  · intro k a b ha hb
    obtain ⟨-, rfl⟩ := getElem?_map_range.mp ha
    obtain ⟨hk, rfl⟩ := getElem?_map_range.mp hb
    refine ⟨_, getElem?_map_range.mpr ⟨Nat.lt_sub_of_add_lt hk, rfl⟩, ?_⟩
    rw [← linearBackoff_ofNat (hk.trans hcount)]
    rfl
  · intro k a ha
    obtain ⟨-, rfl⟩ := getElem?_map_range.mp ha
    rfl

namespace Client

variable {node : Node σ} {client : Client} {url : String} {status : Nat} {s : Session σ}
  {trials : Nat → Trial σ}

/-- A wait comes to an end: with an answer that has the status, or when all attempts were made. -/
theorem waitForStatus_ends (h : node.Behaves client.timeoutSeconds { url } s.node trials)
    (tries : UInt32) (step : Duration) : ∃ result count,
      (client.waitForStatus node url status tries step).run.run s =
        (result, s.tried { url } trials step count (finish trials step s.clock count)) ∧
      count ≤ tries.toNat ∧
      (result = .ok () ∨ result = .error (.unavailable url tries.toNat) ∧ count = tries.toNat) := by
  rcases exists_isFirst_or trials status tries.toNat with ⟨i, hi, hfirst⟩ | hnone
  · exact ⟨_, _, waitForStatus_of_found h hfirst hi, hi, .inl rfl⟩
  · exact ⟨_, _, waitForStatus_of_missed h hnone, le_rfl, .inr ⟨rfl, rfl⟩⟩

/-- The delay after an attempt is exactly the step times the number of the attempt, or the longest
duration if that is less; words of 64 bits are enough to compute it, and overflow exactly in the
second case. It grows with the number and with the step. So whoever waits for a status rests between
any two attempts for the exact delay, which is no shorter than the one before. The wait ends with
the status or after all attempts, and in no other way, however many there are and however long the
step is. -/
theorem delays_saturate (attempt : UInt32) (step : Duration) :
    (linearBackoff attempt step).toNanos =
      min (attempt.toNat * step.toNanos) Duration.longest.toNanos ∧
    (linearBackoff attempt step).nanos < nanosPerSecond ∧
    linearBackoff attempt step = (step.scaleWords? attempt).getD .longest ∧
    (step.scaleWords? attempt = none ↔
      Duration.longest.toNanos < attempt.toNat * step.toNanos) ∧
    (∀ later longer, attempt ≤ later → step ≤ longer →
      linearBackoff attempt step ≤ linearBackoff later longer) ∧
    ∀ {σ : Type} (node : Node σ) (client : Client) (url : String) (status : Nat) (tries : UInt32)
      (s : Session σ) (trials : Nat → Trial σ),
      node.Behaves client.timeoutSeconds { url } s.node trials → ∃ result s' made delays,
        (client.waitForStatus node url status tries step).run.run s = (result, s') ∧
        s'.attempts = made.reverse ++ s.attempts ∧ made.length ≤ tries.toNat ∧
        (result = .ok () ∨
          result = .error (.unavailable url tries.toNat) ∧ made.length = tries.toNat) ∧
        AreSpaced trials s.clock made delays ∧
        (∀ k d, delays[k]? = some d →
          d.toNanos = min ((k + 1) * step.toNanos) Duration.longest.toNanos) ∧
        delays.Pairwise fun d e => d ≤ e ∧ d.toMillis ≤ e.toMillis := by
  refine ⟨toNanos_linearBackoff _ _, (linearBackoff attempt step).nanos_lt,
    Duration.scale_eq_scaleWords _ _, Duration.scaleWords?_eq_none_iff,
    fun _ _ => linearBackoff_le_linearBackoff, ?_⟩
  intro σ node client url status tries s trials h
  obtain ⟨result, count, hrun, hcount, hresult⟩ := waitForStatus_ends h tries step
  obtain ⟨made, hattempts, rfl, hspaced⟩ := s.exists_areSpaced { url } trials step
    (hcount.trans_lt tries.toNat_lt_size) (finish trials step s.clock count)
  exact ⟨result, _, made, _, hrun, hattempts, hcount, hresult, hspaced,
    fun _ _ => toNanos_delaysBehind, pairwise_delaysBehind _ _⟩

/-- The delay after the third attempt carries a second, and the one after the fourth is too long for
a duration. -/
theorem delays_saturate_at_fourth :
    let quarter := UInt64.size / 4
    let step : Duration := ⟨quarter, 500000000, by decide, by decide⟩
    let longer : Duration := ⟨quarter, 500000001, by decide, by decide⟩
    let client : Client := { base := "http://127.0.0.1:8008", timeoutSeconds := 30 }
    let url := "http://127.0.0.1:8008/blocks"
    let s : Session (List Reply) := { node := List.replicate 5 (.hangUp 3) }
    (linearBackoff 3 step).toNanos = (3 * quarter + 1) * nanosPerSecond + 500000000 ∧
      linearBackoff 3 step ≤ linearBackoff 4 longer ∧ linearBackoff 4 longer = .longest ∧
      ∃ trials s' made delays, Node.scripted.Behaves 30 { url } s.node trials ∧
        (client.waitForStatus Node.scripted url 200 5 step).run.run s =
          (.error (.unavailable url 5), s') ∧
        s'.attempts = made.reverse ∧ AreSpaced trials 0 made delays ∧
        made.map (·.startedAt) =
          [0, quarter * 1000 + 503, quarter * 3000 + 1506, quarter * 6000 + 3009,
            quarter * 10000 + 3012] ∧
        delays.Pairwise fun d e => d ≤ e ∧ d.toMillis ≤ e.toMillis := by
  intro quarter step longer client url s
  obtain ⟨hexact, -, -, -, hgrows, hwait⟩ := delays_saturate 3 step
  obtain ⟨trials, htrials⟩ := Node.scripted.exists_behaves 30 { url } s.node
  obtain ⟨result, s', made, delays, hrun, hattempts, -, hresult, hspaced, -, hsorted⟩ :=
    hwait Node.scripted client url 200 5 s trials htrials
  have hended :
      let ended := (client.waitForStatus Node.scripted url 200 5 step).run.run s
      ended.1.toOption = none ∧ ended.2.attempts.reverse.map (·.startedAt) =
        [0, quarter * 1000 + 503, quarter * 3000 + 1506, quarter * 6000 + 3009,
          quarter * 10000 + 3012] := by
    decide +kernel
  rw [hrun] at hended
  obtain ⟨hfailed, hstarts⟩ := hended
  have hmade : s'.attempts = made.reverse := by rw [hattempts, List.append_nil]
  rw [hmade, List.reverse_reverse] at hstarts
  have hlonger : step ≤ longer := Duration.le_iff_parts.mpr (.inr ⟨rfl, by decide⟩)
  refine ⟨hexact.trans (by decide +kernel), hgrows 4 longer (by decide) hlonger,
    by decide +kernel, trials, s', made, delays, htrials, ?_, hmade, hspaced, hstarts, hsorted⟩
  rcases hresult with rfl | ⟨rfl, -⟩
  · cases hfailed
  · exact hrun

end Client

end Rest

end CertRegistry
