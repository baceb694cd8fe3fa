import CertRegistry.Proofs.Registry.Waiting
import CertRegistry.Proofs.Rest.Waits

/-!
# The rhythm of the polls

Polls for a batch are due at fixed times after the start of the wait, whatever the node does. A poll
that lasts longer than to the next of these times makes the ones after it late, and a late poll
begins as soon as the one before it is over. So the pause between two polls is no shorter than the
interval as long as the node is prompt, but polls that are late follow on each other until they have
caught up.
-/

namespace CertRegistry

open Rest

namespace RegistryClient

variable {σ : Type} {node : Node σ} {client : RegistryClient} {batchId : String}
  {seconds start number now endedAt : Nat} {state after : σ} {polls : List (Poll σ)}

/-- Whether polls keep to times that are fixed from `start` on, as the ones from a number on of a
wait, when `now` is the time at which the first of them may begin. -/
structure KeepsTime (start number now : Nat) (polls : List (Poll σ)) : Prop where
  /-- The first poll begins when it is due or, if it is late, at once. -/
  first : ∀ p ∈ polls.head?, p.startedAt = max now (start + pollInterval * number)
  /-- Every other poll begins when it is due or, if it is late, when the one before it is over. -/
  next : ∀ i p q, polls[i]? = some p → polls[i + 1]? = some q →
    q.startedAt = max p.endedAt (start + pollInterval * (number + i + 1))

theorem InTurn.keepsTime
    (h : client.InTurn node batchId seconds start number now state polls endedAt after) :
    KeepsTime start number now polls := by
  induction h with
  | done => exact ⟨by simp, by simp⟩
  | @next number now endedAt after p rest hmade hstart hrest ih =>
    refine ⟨?_, ?_⟩
    · rintro _ ⟨⟩
      exact hstart
    · intro i p' q hp hq
      cases i with
      | zero =>
        obtain rfl : p = p' := by simpa using hp
        exact ih.first q (by simpa [List.head?_eq_getElem?] using hq)
      | succ i =>
        have := ih.next i p' q hp hq
        rwa [Nat.add_right_comm number 1 i] at this

namespace KeepsTime

variable {i : Nat} {p q : Poll σ}

/-- No poll begins before it is due. -/
theorem due_le (h : KeepsTime start number now polls) (hp : polls[i]? = some p) :
    start + pollInterval * (number + i) ≤ p.startedAt := by
  cases i with
  | zero => exact h.first p (by simpa [List.head?_eq_getElem?] using hp) ▸ Nat.le_max_right _ _
  | succ i =>
    obtain ⟨before, hbefore⟩ : ∃ before, polls[i]? = some before :=
      ⟨_, List.getElem?_eq_getElem (Nat.lt_of_succ_lt (List.getElem?_eq_some_iff.mp hp).1)⟩
    exact h.next i before p hbefore hp ▸ Nat.le_max_right _ _

/-- Two polls in a row are as far apart as the interval exactly if the first of them was on time or
lasted that long itself. -/
theorem interval_le_iff (h : KeepsTime start number now polls) (hp : polls[i]? = some p)
    (hq : polls[i + 1]? = some q) : p.startedAt + pollInterval ≤ q.startedAt ↔
      p.startedAt = start + pollInterval * (number + i) ∨
        p.startedAt + pollInterval ≤ p.endedAt := by
  have hdue := h.due_le hp
  have hnext := h.next i p q hp hq
  simp only [pollInterval] at *
  omega

/-- A poll that follows on a late one makes up for what that one lasted less than the interval. -/
theorem lateness (h : KeepsTime start number now polls) (hp : polls[i]? = some p)
    (hq : polls[i + 1]? = some q) (hended : p.startedAt ≤ p.endedAt) :
    q.startedAt - (start + pollInterval * (number + i + 1)) =
      p.startedAt - (start + pollInterval * (number + i)) + (p.endedAt - p.startedAt) -
        pollInterval := by
  have hdue := h.due_le hp
  have hnext := h.next i p q hp hq
  simp only [pollInterval] at *
  omega

end KeepsTime

/-- A poll is not over before it begins. -/
theorem Poll.IsMade.startedAt_le {deadline : Nat} {p : Poll σ}
    (h : p.IsMade node client batchId seconds deadline) : p.startedAt ≤ p.endedAt :=
  h.le_ended

/-- A wait is polls in turn, which are the requests that are made meanwhile. There are none if the
time to wait for an answer is more than can be measured. -/
theorem waitForCommit_inTurn (node : Node σ) (client : RegistryClient) (s : Session σ)
    (batchId : String) (seconds : Nat) :
    ∃ (polls : List (Poll σ)) (attempts : List Attempt) (result : Except Fault BatchStatus)
      (s' : Session σ),
    (client.waitForCommit node batchId seconds).run.run s = (result, s') ∧
      s'.attempts = attempts.reverse ++ s.attempts ∧
      attempts.map (·.startedAt) = polls.map (·.startedAt) ∧
      client.InTurn node batchId seconds s.clock 0 s.clock s.node polls s'.clock s'.node := by
  have hcount : 1000 * seconds / pollInterval + 1 + 0 = 2 * seconds + 1 := by
    simp only [pollInterval]
    omega
  unfold waitForCommit
  rw [Talk.run_bind, Talk.run_get]
  simp only
  by_cases hwait : client.rest.timeoutSeconds + min client.statusWaitSeconds seconds < UInt64.size
  · obtain ⟨earlier, last, result, s', hrun, hwaits⟩ := pollFrom_waits node s batchId hwait
      hcount (Nat.zero_le _) (Nat.le_add_right _ _)
    obtain ⟨attempts, hattempts, hpolls⟩ := hwaits.attempts
    refine ⟨earlier ++ [last], attempts, result, s', hrun, hattempts, ?_, hwaits.polls⟩
    simpa [Function.comp_def] using congrArg (List.map Prod.fst) hpolls
  · have hlong : UInt64.size ≤ client.rest.timeoutSeconds +
        (some (min client.statusWaitSeconds seconds)).getD 0 := Nat.le_of_not_lt hwait
    refine ⟨[], [], .error .waitTooLong, s, ?_, rfl, rfl, .done _ _ _⟩
    unfold pollFrom
    rw [Talk.run_bind, Talk.run_sleepUntil]
    simp only
    rw [Talk.run_bind, Client.run_statuses_of_le hlong]
    simp

/-- However long the node takes for its answers, no poll of a wait begins before its time, and the
times are as far apart as the interval. The first poll begins on time, and every other one on time
or, if it is late, when the one before it is over. So two polls in a row are as far apart as the
interval unless the first of them was late and lasted less than that, and then the second one is
less late by what the first one lasted less. -/
theorem waitForCommit_keepsTime (node : Node σ) (client : RegistryClient) (s : Session σ)
    (batchId : String) (seconds : Nat) :
    ∃ (polls : List (Poll σ)) (attempts : List Attempt) (result : Except Fault BatchStatus)
      (s' : Session σ),
    (client.waitForCommit node batchId seconds).run.run s = (result, s') ∧
      s'.attempts = attempts.reverse ++ s.attempts ∧
      attempts.map (·.startedAt) = polls.map (·.startedAt) ∧
      client.InTurn node batchId seconds s.clock 0 s.clock s.node polls s'.clock s'.node ∧
      (∀ p ∈ polls.head?, p.startedAt = s.clock) ∧
      (∀ i p, polls[i]? = some p → s.clock + pollInterval * i ≤ p.startedAt) ∧
      ∀ i p q, polls[i]? = some p → polls[i + 1]? = some q →
        q.startedAt = max p.endedAt (s.clock + pollInterval * (i + 1)) ∧
        (p.startedAt + pollInterval ≤ q.startedAt ↔
          p.startedAt = s.clock + pollInterval * i ∨ p.startedAt + pollInterval ≤ p.endedAt) ∧
        q.startedAt - (s.clock + pollInterval * (i + 1)) =
          p.startedAt - (s.clock + pollInterval * i) + (p.endedAt - p.startedAt) -
            pollInterval := by
  obtain ⟨polls, attempts, result, s', hrun, hattempts, hstarts, hturn⟩ :=
    waitForCommit_inTurn node client s batchId seconds
  have htime := hturn.keepsTime
  refine ⟨polls, attempts, result, s', hrun, hattempts, hstarts, hturn, ?_, ?_, ?_⟩
  · intro p hp
    simpa using htime.first p hp
  · intro i p hp
    simpa using htime.due_le hp
  · intro i p q hp hq
    have hended := (hturn.isMade_of_mem (List.mem_of_getElem? hp)).startedAt_le
    have hnext := htime.next i p q hp hq
    have hapart := htime.interval_le_iff hp hq
    have hlate := htime.lateness hp hq hended
    rw [Nat.zero_add] at hnext hapart hlate
    exact ⟨hnext, hapart, hlate⟩

/-- An answer to a poll for a batch, after a while. -/
def answerAfter (delay : Nat) (kind : StatusKind) : Reply :=
  .answer delay (Talk.promptAnswer 200 (Bytes.ofText (Json.Value.record
    [("data", .list [({ id := "b", status := kind } : BatchStatus).toJson])]).compact))

/-- After a poll of more than a second, in which two others fall due, these are made without any
pause. -/
theorem waitForCommit_catches_up :
    let replies := [answerAfter 1200 .pending, answerAfter 0 .pending, answerAfter 0 .committed]
    let ended := ((patient.waitForCommit Node.scripted "b" 10).run.run { node := replies }).2
    ended.attempts.reverse.map (·.startedAt) = [0, 1200, 1200] ∧
      ¬ (ended.attempts.reverse.map (·.startedAt)).IsChain (fun a b => a + pollInterval ≤ b) := by
  decide +kernel

end RegistryClient

end CertRegistry
