import CertRegistry.Proofs.Rest.Exchanges
import CertRegistry.Proofs.Stages

/-!
# Waiting until an address answers

A node behaves in some way towards request after request for the same address, for as long as
anybody asks. Whoever waits for a status asks up to the first answer that has it, but no more often
than he may, and rests between any two of his requests.
-/

namespace CertRegistry.Rest

variable {σ : Type}

/-- What comes of a request of which only the status of the answer matters: the state of the node
that it meets, the status, if an answer comes in time, after how many milliseconds that is known,
and the state that it leaves behind. -/
structure Trial (σ : Type) where
  before : σ
  status : Option Nat
  millis : Nat
  after : σ

namespace Trial

/-- Whether a trial goes as the node makes it go. -/
inductive IsMade (node : Node σ) (seconds : Nat) (call : Call) : Trial σ → Prop
  | answered {before after : σ} {delay : Nat} {answer : Answer}
    (h : call.Answered node seconds before delay answer after) :
    IsMade node seconds call ⟨before, some answer.status, delay, after⟩
  | unanswered {before after : σ} {fault : TransportFault} {millis : Nat}
    (h : call.Unanswered node seconds before fault after)
    (htime : call.InTime node { seconds } before 0 millis) :
    IsMade node seconds call ⟨before, none, millis, after⟩

/-- How the attempt at the request ends. -/
def ending (t : Trial σ) : Ending :=
  match t.status with
  | some status => .answered status
  | none => .failed

end Trial

/-- Whether trials are what a node makes of the same request over and over again, from a state
on. -/
structure Node.Behaves (node : Node σ) (seconds : Nat) (call : Call) (start : σ)
    (trials : Nat → Trial σ) : Prop where
  start : (trials 0).before = start
  next : ∀ k, (trials (k + 1)).before = (trials k).after
  made : ∀ k, (trials k).IsMade node seconds call

/-- Whether the trial with a number, counted from zero, is the first that a status comes of. -/
def IsFirst (trials : Nat → Trial σ) (status number : Nat) : Prop :=
  (trials number).status = some status ∧ ∀ k < number, (trials k).status ≠ some status

/-- When the trial with a number begins: after the one before it, which has the same number counted
from one, and the delay that follows that. -/
def beginning (trials : Nat → Trial σ) (step : Duration) (now : Nat) : Nat → Nat
  | 0 => now
  | k + 1 => beginning trials step now k + (trials k).millis +
      (linearBackoff (UInt32.ofNat (k + 1)) step).toMillis

/-- When so many trials are over. No delay follows the last one. -/
def finish (trials : Nat → Trial σ) (step : Duration) (now : Nat) : Nat → Nat
  | 0 => now
  | k + 1 => beginning trials step now k + (trials k).millis

/-- A session at a time when so many trials were made in it and nothing else happened. -/
def Session.tried (s : Session σ) (call : Call) (trials : Nat → Trial σ) (step : Duration)
    (count clock : Nat) : Session σ :=
  { s with
    node := (trials count).before
    clock
    attempts := ((List.range count).map fun k =>
      call.attempt (beginning trials step s.clock k) (trials k).ending).reverse ++ s.attempts }

variable {node : Node σ} {seconds : Nat} {call : Call}

/-! ## What a node makes of requests -/

/-- Without a deadline it does not matter when a request is made. -/
theorem Call.InTime.later {limits : Limits} {before : σ} {now millis : Nat}
    (h : call.InTime node { seconds := limits.seconds } before now millis)
    (hdeadline : limits.deadline = none) (now' : Nat) :
    call.InTime node limits before now' millis := by
  cases h with
  | unsent hnever => exact .unsent hnever
  | sent hgoes hreply _ => exact .sent hgoes hreply (Limits.allow_of_none hdeadline _)

theorem Trial.exists_isMade (node : Node σ) (seconds : Nat) (call : Call) (before : σ) :
    ∃ t : Trial σ, t.before = before ∧ t.IsMade node seconds call := by
  rcases Call.answered_or_unanswered node seconds call before with
    ⟨delay, answer, after, hanswered⟩ | ⟨fault, after, hunanswered⟩
  · exact ⟨_, rfl, .answered hanswered⟩
  · obtain ⟨millis, htime⟩ := Call.exists_inTime node call before
      (show ({ seconds } : Limits).deadline = none from rfl) 0
    exact ⟨_, rfl, .unanswered hunanswered htime⟩

/-- Every node behaves in some way, from any state on. -/
theorem Node.exists_behaves (node : Node σ) (seconds : Nat) (call : Call) (start : σ) :
    ∃ trials, node.Behaves seconds call start trials := by
  choose trial hbefore hmade using Trial.exists_isMade node seconds call
  let states : Nat → σ := fun k => Nat.rec start (fun _ state => (trial state).after) k
  exact ⟨fun k => trial (states k), hbefore start, fun k => hbefore _, fun k => hmade _⟩

/-- Before the first trial nothing has happened. -/
theorem Node.Behaves.tried_zero {s : Session σ} {trials : Nat → Trial σ}
    (h : node.Behaves seconds call s.node trials) (step : Duration) :
    s.tried call trials step 0 s.clock = s := by
  simp [Session.tried, h.start]

theorem IsFirst.unique {trials : Nat → Trial σ} {status i j : Nat} (hi : IsFirst trials status i)
    (hj : IsFirst trials status j) : i = j := by
  rcases Nat.lt_trichotomy i j with hlt | heq | hlt
  · exact absurd hi.1 (hj.2 i hlt)
  · exact heq
  · exact absurd hj.1 (hi.2 j hlt)

/-- Up to a number a status comes of no trial, or of one for the first time. -/
theorem exists_isFirst_or (trials : Nat → Trial σ) (status count : Nat) :
    (∃ i < count, IsFirst trials status i) ∨ ∀ k < count, (trials k).status ≠ some status := by
  induction count with
  | zero => exact .inr fun k hk => absurd hk (Nat.not_lt_zero k)
  | succ count ih =>
    rcases ih with ⟨i, hi, hfirst⟩ | hnone
    · exact .inl ⟨i, Nat.lt_succ_of_lt hi, hfirst⟩
    · by_cases h : (trials count).status = some status
      · exact .inl ⟨count, Nat.lt_succ_self count, h, hnone⟩
      · refine .inr fun k hk => ?_
        rcases Nat.lt_succ_iff_lt_or_eq.mp hk with hk | rfl
        · exact hnone k hk
        · exact h

/-! ## Trials of a client -/

namespace Client

variable {client : Client} {url : String} {status : Nat} {step : Duration} {s : Session σ}
  {trials : Nat → Trial σ}

/-- One request is one trial. -/
theorem probe_run {t : Trial σ} (h : t.IsMade node client.timeoutSeconds { url })
    (hnode : s.node = t.before) :
    (client.probe node url).run.run s = (.ok t.status,
      { s with
        node := t.after, clock := s.clock + t.millis
        attempts := ({ url } : Call).attempt s.clock t.ending :: s.attempts }) := by
  have hlimits : (client.limits 0 none).deadline = none := rfl
  unfold probe
  rw [Talk.run_bind]
  cases h with
  | answered h =>
    subst hnode
    rw [Talk.send_answered h (Limits.allow_of_none hlimits _)]
    rfl
  | unanswered h htime =>
    subst hnode
    rw [Talk.send_unanswered h (htime.later hlimits _)]
    rfl

/-- A trial is made when so many were made before. -/
theorem probe_tried (h : node.Behaves client.timeoutSeconds { url } s.node trials) (k : Nat) :
    (client.probe node url).run.run
        (s.tried { url } trials step k (beginning trials step s.clock k)) =
      (.ok (trials k).status,
        s.tried { url } trials step (k + 1) (finish trials step s.clock (k + 1))) := by
  rw [probe_run (h.made k) rfl]
  simp [Session.tried, finish, List.range_succ, h.next k]

/-- The first answer with the status ends the trials. -/
theorem attemptProbe_found (step : Duration)
    (h : node.Behaves client.timeoutSeconds { url } s.node trials)
    {left k i : Nat} (hfirst : IsFirst trials status i) (hk : k ≤ i) (hi : i < k + left) :
    (client.attemptProbe node url status step left (k + 1)).run.run
        (s.tried { url } trials step k (beginning trials step s.clock k)) =
      (.ok true, s.tried { url } trials step (i + 1) (finish trials step s.clock (i + 1))) := by
  induction left generalizing k with
  | zero => exact absurd hi (Nat.not_lt.mpr hk)
  | succ left ih =>
    unfold attemptProbe
    rw [Talk.run_bind, probe_tried h]
    rcases Nat.eq_or_lt_of_le hk with rfl | hlater
    · simp only [hfirst.1, if_true]
      rfl
    · have hleft : left ≠ 0 := by omega
      simp only [hfirst.2 k hlater, if_false, hleft, ne_eq, not_false_eq_true, if_true]
      rw [Talk.run_bind, Talk.run_sleep]
      exact ih hlater (by omega)

/-- Without an answer with the status all trials are made. -/
theorem attemptProbe_missed (step : Duration)
    (h : node.Behaves client.timeoutSeconds { url } s.node trials)
    {left k : Nat} (hnone : ∀ j < k + (left + 1), (trials j).status ≠ some status) :
    (client.attemptProbe node url status step (left + 1) (k + 1)).run.run
        (s.tried { url } trials step k (beginning trials step s.clock k)) =
      (.ok false, s.tried { url } trials step (k + (left + 1))
        (finish trials step s.clock (k + (left + 1)))) := by
  induction left generalizing k with
  | zero =>
    unfold attemptProbe
    rw [Talk.run_bind, probe_tried h]
    simp only [hnone k (Nat.lt_succ_self k), if_false, ne_eq, not_true_eq_false]
    rfl
  | succ left ih =>
    unfold attemptProbe
    rw [Talk.run_bind, probe_tried h]
    simp only [hnone k (by omega), if_false, ne_eq, Nat.succ_ne_zero, not_false_eq_true, if_true]
    rw [Talk.run_bind, Talk.run_sleep]
    have hcount : k + (left + 1 + 1) = k + 1 + (left + 1) := by omega
    rw [hcount] at hnone ⊢
    exact ih hnone

/-- What an attempt or more come to. -/
theorem waitForStatus_of_found (h : node.Behaves client.timeoutSeconds { url } s.node trials)
    {tries : UInt32} {i : Nat} (hfirst : IsFirst trials status i) (hi : i < tries.toNat) :
    (client.waitForStatus node url status tries step).run.run s =
      (.ok (), s.tried { url } trials step (i + 1) (finish trials step s.clock (i + 1))) := by
  have hrun := attemptProbe_found step h hfirst (Nat.zero_le i)
    (show i < 0 + tries.toNat by omega)
  rw [beginning, h.tried_zero] at hrun
  unfold waitForStatus
  rw [Talk.run_bind, hrun]
  rfl

theorem waitForStatus_of_missed (h : node.Behaves client.timeoutSeconds { url } s.node trials)
    {tries : UInt32} (hnone : ∀ k < tries.toNat, (trials k).status ≠ some status) :
    (client.waitForStatus node url status tries step).run.run s =
      (.error (.unavailable url tries.toNat),
        s.tried { url } trials step tries.toNat (finish trials step s.clock tries.toNat)) := by
  have hrun : (client.attemptProbe node url status step tries.toNat 1).run.run s =
      (.ok false,
        s.tried { url } trials step tries.toNat (finish trials step s.clock tries.toNat)) := by
    cases htries : tries.toNat with
    | zero =>
      rw [finish, h.tried_zero]
      rfl
    | succ left =>
      rw [htries, ← Nat.zero_add (left + 1)] at hnone
      have hrun := attemptProbe_missed step h hnone
      rw [beginning, h.tried_zero, Nat.zero_add, Nat.zero_add] at hrun
      exact hrun
  unfold waitForStatus
  rw [Talk.run_bind, hrun]
  rfl

/-- Asking once whether the node shows its blocks is the same as waiting for one attempt. -/
theorem waitForStatus_one (node : Node σ) (client : Client) (step : Duration) (s : Session σ) :
    ∃ shown s', (client.isAvailable node).run.run s = (.ok shown, s') ∧
      (client.waitForStatus node (client.base ++ "/blocks") 200 1 step).run.run s =
        (if shown then .ok () else .error (.unavailable (client.base ++ "/blocks") 1), s') := by
  obtain ⟨t, hbefore, hmade⟩ := Trial.exists_isMade node client.timeoutSeconds
    { url := client.base ++ "/blocks" } s.node
  obtain ⟨s', hprobe⟩ : ∃ s', (client.probe node (client.base ++ "/blocks")).run.run s =
      (.ok t.status, s') := ⟨_, probe_run hmade hbefore.symm⟩
  refine ⟨t.status == some 200, s', ?_, ?_⟩
  · unfold isAvailable
    rw [Talk.run_bind, hprobe]
    rfl
  · unfold waitForStatus attemptProbe
    rw [Talk.run_bind, show (1 : UInt32).toNat = 1 from rfl, Talk.run_bind, hprobe]
    cases h : t.status == some 200 with
    | true =>
      simp only [beq_iff_eq.mp h, if_true]
      rfl
    | false =>
      simp only [beq_eq_false_iff_ne.mp h, if_false]
      rfl

/-- Whoever waits for a status asks up to the first answer that has it, but no more often than he
may, and rests between two requests only, longer each time. He is done if that answer comes within
the attempts that he has; otherwise he is told which address is not available, and after how many
attempts. One attempt at the blocks of the node finds out the same as the question whether it is
available. -/
theorem waitForStatus_first (node : Node σ) (client : Client) (url : String) (status : Nat)
    (tries : UInt32) (step : Duration) (s : Session σ) :
    (∀ trials, node.Behaves client.timeoutSeconds { url } s.node trials → ∃ result count,
      (client.waitForStatus node url status tries step).run.run s =
        (result, s.tried { url } trials step count (finish trials step s.clock count)) ∧
      (result = .ok () ↔ ∃ i, IsFirst trials status i ∧ i < tries.toNat) ∧
      (result ≠ .ok () → result = .error (.unavailable url tries.toNat)) ∧
      (∀ i, IsFirst trials status i → count = min (i + 1) tries.toNat) ∧
      ((∀ i, ¬ IsFirst trials status i) → count = tries.toNat)) ∧
    ∃ shown s', (client.isAvailable node).run.run s = (.ok shown, s') ∧
      (client.waitForStatus node (client.base ++ "/blocks") 200 1 step).run.run s =
        (if shown then .ok () else .error (.unavailable (client.base ++ "/blocks") 1), s') := by
  refine ⟨fun trials h => ?_, waitForStatus_one node client step s⟩
  rcases exists_isFirst_or trials status tries.toNat with ⟨i, hi, hfirst⟩ | hnone
  · refine ⟨_, _, waitForStatus_of_found h hfirst hi, ?_, ?_, ?_, ?_⟩
    · exact iff_of_true rfl ⟨i, hfirst, hi⟩
    · exact fun hfail => absurd rfl hfail
    · intro j hj
      obtain rfl := hfirst.unique hj
      exact (Nat.min_eq_left hi).symm
    · exact fun hnever => absurd hfirst (hnever i)
  · refine ⟨_, _, waitForStatus_of_missed h hnone, ?_, fun _ => rfl, ?_, fun _ => rfl⟩
    · exact iff_of_false nofun fun ⟨i, hfirst, hi⟩ => hnone i hi hfirst.1
    · intro i hfirst
      have hlate : tries.toNat ≤ i := Nat.le_of_not_lt fun hi => hnone i hi hfirst.1
      omega

/-- A node that hangs up, is not ready, and shows its blocks at last. -/
theorem waitForStatus_third_time :
    let client : Client := { base := "http://127.0.0.1:8008", timeoutSeconds := 30 }
    let url := "http://127.0.0.1:8008/blocks"
    let s : Session (List Reply) :=
      { node := [.hangUp 3, .answer 10 (Talk.promptAnswer 503 []),
          .answer 10 (Talk.promptAnswer 200 [])] }
    ∃ trials s', Node.scripted.Behaves 30 { url } s.node trials ∧ IsFirst trials 200 2 ∧
      (client.waitForStatus Node.scripted url 200 5 (.ofSeconds 2)).run.run s = (.ok (), s') ∧
      s'.attempts.reverse.map (·.startedAt) = [0, 2003, 6013] ∧ s'.clock = 6023 := by
  intro client url s
  obtain ⟨trials, htrials⟩ := Node.scripted.exists_behaves 30 { url } s.node
  obtain ⟨result, count, hrun, hok, -, hcount, -⟩ :=
    (waitForStatus_first Node.scripted client url 200 5 (.ofSeconds 2) s).1 trials htrials
  have hresult :
      let ended := (client.waitForStatus Node.scripted url 200 5 (.ofSeconds 2)).run.run s
      ended.1.toOption = some () ∧ ended.2.attempts.length = 3 ∧
        ended.2.attempts.reverse.map (·.startedAt) = [0, 2003, 6013] ∧ ended.2.clock = 6023 := by
    decide +kernel
  rw [hrun] at hresult
  obtain ⟨hdone, hlength, hstarts, hclock⟩ := hresult
  obtain rfl := toOption_eq_some.mp hdone
  obtain ⟨i, hfirst, -⟩ := hok.mp rfl
  have hthree : count = 3 := by simpa [Session.tried, s] using hlength
  have htwo : i = 2 := by
    have hmin : count = min (i + 1) 5 := hcount i hfirst
    omega
  exact ⟨trials, _, htrials, htwo ▸ hfirst, hrun, hstarts, hclock⟩

end Client

end CertRegistry.Rest
