import CertRegistry.Proofs.Rest.Accounts
import CertRegistry.Proofs.Rest.Deadlines
import CertRegistry.Proofs.Stages
import CertRegistry.Registry.Client

/-!
# Waiting for the decision on a batch

Whoever waits for a batch polls the node until an answer settles the matter, and no longer. What is
returned is told by the last poll alone: all polls before it found the batch undecided.
-/

namespace CertRegistry

open Rest

theorem StatusKind.isFinal_iff {kind : StatusKind} :
    kind.isFinal = true ↔ kind = .committed ∨ kind = .invalid := by
  cases kind <;> decide

theorem StatusKind.isFinal_eq_false_iff {kind : StatusKind} :
    kind.isFinal = false ↔ kind = .pending ∨ kind = .unknown := by
  cases kind <;> decide

namespace RegistryClient

variable {σ : Type}

/-- A poll: when it began and in which state of the node, what it came to, if it came to anything
before the deadline, when that was known, and in which state it left the node. -/
structure Poll (σ : Type) where
  startedAt : Nat
  before : σ
  outcome : Option (Except Rest.Fault (Envelope (List BatchStatus)))
  endedAt : Nat
  after : σ

namespace Poll

/-- The request for the status of a batch, which the node may keep waiting for so many seconds. -/
def call (client : RegistryClient) (batchId : String) (wait : Nat) : Call where
  url := client.rest.base ++ "/batch_statuses?id=" ++ batchId ++ "&wait=" ++ toString wait
  counted := some .batchStatuses

/-- Whether a poll goes as the node makes it go, for a client that waits for so many seconds and
until a deadline. -/
def IsMade (node : Node σ) (client : RegistryClient) (batchId : String) (seconds deadline : Nat)
    (p : Poll σ) : Prop :=
  (call client batchId (min client.statusWaitSeconds seconds)).ComesToBy node
    (client.rest.timeoutSeconds + min client.statusWaitSeconds seconds) deadline
    (Envelope.shape [] (.list BatchStatus.shape.reader)).reader p.startedAt p.before p.outcome
    p.endedAt p.after

/-- Whether the first entry for a batch in the answer to a poll is this one. -/
def Tells (p : Poll σ) (batchId : String) (status : BatchStatus) : Prop :=
  ∃ envelope, p.outcome = some (.ok envelope) ∧
    envelope.data.find? (·.id = batchId) = some status

/-- Whether the answer to a poll has no entry for a batch. -/
def Misses (p : Poll σ) (batchId : String) : Prop :=
  ∃ envelope, p.outcome = some (.ok envelope) ∧ ∀ status ∈ envelope.data, status.id ≠ batchId

/-- Whether a batch was still undecided when it was polled for. -/
def IsUndecided (p : Poll σ) (batchId : String) : Prop :=
  ∃ status, p.Tells batchId status ∧ (status.status = .pending ∨ status.status = .unknown)

/-- What is returned after a poll that settles the matter. -/
inductive Settles (batchId : String) (seconds : Nat) (p : Poll σ) :
    Except Rest.Fault BatchStatus → Prop
  | decided {status : BatchStatus} (h : p.Tells batchId status)
    (hfinal : status.status = .committed ∨ status.status = .invalid) :
    Settles batchId seconds p (.ok status)
  | missing (h : p.Misses batchId) : Settles batchId seconds p (.error (.noStatus batchId))
  | failed {fault : Rest.Fault} (h : p.outcome = some (.error fault)) :
    Settles batchId seconds p (.error fault)
  | overdue (h : p.outcome = none) :
    Settles batchId seconds p (.error (.stillPending batchId seconds))

end Poll

/-- Whether polls are made one after the other from a number on, each when it is due or, if it is
late, at once. They are due at fixed times after the start. -/
inductive InTurn (node : Node σ) (client : RegistryClient) (batchId : String)
    (seconds start : Nat) : Nat → Nat → σ → List (Poll σ) → Nat → σ → Prop
  | done (number now : Nat) (state : σ) :
    InTurn node client batchId seconds start number now state [] now state
  | next {number now endedAt : Nat} {after : σ} {p : Poll σ} {rest : List (Poll σ)}
    (hmade : p.IsMade node client batchId seconds (start + 1000 * seconds))
    (hstart : p.startedAt = max now (start + pollInterval * number))
    (hrest : InTurn node client batchId seconds start (number + 1) p.endedAt p.after rest endedAt
      after) :
    InTurn node client batchId seconds start number now p.before (p :: rest) endedAt after

/-- How a wait that began at `start` goes on from a poll on: which polls are made, of which only the
last one settles the matter, and what is returned then. -/
structure Waits (node : Node σ) (client : RegistryClient) (batchId : String) (seconds start : Nat)
    (number : Nat) (s : Session σ) (earlier : List (Poll σ)) (last : Poll σ)
    (result : Except Rest.Fault BatchStatus) (s' : Session σ) : Prop where
  polls : InTurn node client batchId seconds start number s.clock s.node (earlier ++ [last])
    s'.clock s'.node
  attempts : ∃ attempts : List Attempt, s'.attempts = attempts.reverse ++ s.attempts ∧
    attempts.map (fun a => (a.startedAt, a.method, a.url)) = (earlier ++ [last]).map fun p =>
      (p.startedAt, .get,
        (Poll.call client batchId (min client.statusWaitSeconds seconds)).url)
  undecided : ∀ p ∈ earlier, p.IsUndecided batchId
  settles : last.Settles batchId seconds result
  inTime : s'.clock ≤ start + 1000 * seconds

section Wait

variable (node : Node σ) {client : RegistryClient} (s : Session σ) (batchId : String)
  {seconds start : Nat}

/-- A question for the status of one batch is one request. -/
theorem statuses_comesToBy
    (hwait : client.rest.timeoutSeconds + min client.statusWaitSeconds seconds < UInt64.size)
    (d : Deadline) : ∃ outcome s' ending,
    (client.rest.statuses node [batchId] (some (min client.statusWaitSeconds seconds))
        (some d)).run.run s = ((outcome.getD (.error d.fault)).map (·.data), s') ∧
      (Poll.call client batchId (min client.statusWaitSeconds seconds)).ComesToBy node
        (client.rest.timeoutSeconds + min client.statusWaitSeconds seconds) d.time
        (Envelope.shape [] (.list BatchStatus.shape.reader)).reader s.clock s.node outcome s'.clock
        s'.node ∧
      s'.attempts = (Poll.call client batchId (min client.statusWaitSeconds seconds)).attempt
        s.clock ending :: s.attempts := by
  have hurl : client.rest.statusesUrl [batchId] (some (min client.statusWaitSeconds seconds)) =
      (Poll.call client batchId (min client.statusWaitSeconds seconds)).url := by
    simp [Client.statusesUrl, Poll.call, String.append_assoc]
  obtain ⟨outcome, s', ending, hrun, hcomes, hattempts⟩ := Talk.request_comesToBy s node
    { url := (Poll.call client batchId (min client.statusWaitSeconds seconds)).url }
    (show (client.rest.limits (min client.statusWaitSeconds seconds) (some d)).deadline = some d
      from rfl)
    .batchStatuses (Envelope.shape [] (.list BatchStatus.shape.reader)).reader
  unfold Client.statuses
  rw [Option.getD_some, if_neg (Nat.not_le.mpr hwait), hurl]
  simp only [Client.requestData]
  rw [Talk.run_bind, hrun]
  refine ⟨outcome, ?_⟩
  cases outcome.getD (.error d.fault) with
  | ok envelope =>
    simp only [Talk.run_bind, Talk.run_forIn_count]
    exact ⟨{ s' with tally := _ }, ending, rfl, hcomes, hattempts⟩
  | error fault => exact ⟨s', ending, rfl, hcomes, hattempts⟩

variable {node s batchId} {p last : Poll σ} {number : Nat} {s₁ s' : Session σ}
  {earlier : List (Poll σ)} {result : Except Rest.Fault BatchStatus}

/-- The wait ends with a poll that settles the matter. -/
theorem Waits.of_settles (hmade : p.IsMade node client batchId seconds (start + 1000 * seconds))
    (hstart : p.startedAt = max s.clock (start + pollInterval * number))
    (hbefore : p.before = s.node) (hended : p.endedAt = s'.clock) (hafter : p.after = s'.node)
    {ending : Ending} (hattempts : s'.attempts =
      (Poll.call client batchId (min client.statusWaitSeconds seconds)).attempt p.startedAt
        ending :: s.attempts)
    (hsettles : p.Settles batchId seconds result) (htime : p.endedAt ≤ start + 1000 * seconds) :
    client.Waits node batchId seconds start number s [] p result s' where
  polls := by
    rw [← hbefore, ← hended, ← hafter]
    exact .next hmade hstart (.done _ _ _)
  attempts := ⟨[_], hattempts, rfl⟩
  undecided := List.forall_mem_nil _
  settles := hsettles
  inTime := by rwa [← hended]

/-- The wait goes on after a poll that found the batch undecided. -/
theorem Waits.after_undecided
    (hmade : p.IsMade node client batchId seconds (start + 1000 * seconds))
    (hstart : p.startedAt = max s.clock (start + pollInterval * number))
    (hbefore : p.before = s.node) (hended : p.endedAt = s₁.clock) (hafter : p.after = s₁.node)
    {ending : Ending} (hattempts : s₁.attempts =
      (Poll.call client batchId (min client.statusWaitSeconds seconds)).attempt p.startedAt
        ending :: s.attempts)
    (hundecided : p.IsUndecided batchId)
    (hrest : client.Waits node batchId seconds start (number + 1) s₁ earlier last result s') :
    client.Waits node batchId seconds start number s (p :: earlier) last result s' where
  polls := by
    rw [← hbefore]
    exact .next hmade hstart (by rw [hended, hafter]; exact hrest.polls)
  attempts := by
    obtain ⟨attempts, hmore, hpolls⟩ := hrest.attempts
    refine ⟨(Poll.call client batchId (min client.statusWaitSeconds seconds)).attempt p.startedAt
      ending :: attempts, ?_, ?_⟩
    · rw [hmore, hattempts, List.reverse_cons, List.append_assoc]
      rfl
    · rw [List.map_cons, hpolls]
      rfl
  undecided := List.forall_mem_cons.mpr ⟨hundecided, hrest.undecided⟩
  settles := hrest.settles
  inTime := hrest.inTime

variable (node s batchId)

/-- Polls go on until one settles the matter. A poll that does not is over before the deadline, and
so the next one is due no later than that. -/
theorem pollFrom_waits
    (hwait : client.rest.timeoutSeconds + min client.statusWaitSeconds seconds < UInt64.size)
    {left number : Nat} (hleft : left + number = 2 * seconds + 1) (hnumber : number ≤ 2 * seconds)
    (hclock : s.clock ≤ start + 1000 * seconds) : ∃ earlier last result s',
    (client.pollFrom node batchId (min client.statusWaitSeconds seconds)
        { time := start + 1000 * seconds, fault := .stillPending batchId seconds } start left
        number).run.run s = (result, s') ∧
      client.Waits node batchId seconds start number s earlier last result s' := by
  induction left generalizing s number with
  | zero => omega
  | succ left ih =>
    obtain ⟨outcome, s₁, ending, hrun, hcomes, hattempts⟩ := statuses_comesToBy node
      { s with clock := max s.clock (start + pollInterval * number) } batchId hwait
      { time := start + 1000 * seconds, fault := .stillPending batchId seconds }
    let p : Poll σ :=
      { startedAt := max s.clock (start + pollInterval * number), before := s.node, outcome
        endedAt := s₁.clock, after := s₁.node }
    have hmade : p.IsMade node client batchId seconds (start + 1000 * seconds) := hcomes
    have hdue : p.startedAt ≤ start + 1000 * seconds := by
      simp only [p, pollInterval]
      omega
    obtain ⟨hbegun, hended, hanswered⟩ := hmade.time_bounds hdue
    have hlast : ∀ {result}, p.Settles batchId seconds result →
        client.Waits node batchId seconds start number s [] p result s₁ :=
      fun hsettles => .of_settles hmade rfl rfl rfl rfl hattempts hsettles hended
    unfold pollFrom
    rw [Talk.run_bind, Talk.run_sleepUntil]
    simp only
    rw [Talk.run_bind, hrun]
    match hresult : outcome with
    | none => exact ⟨[], p, _, s₁, rfl, hlast (.overdue hresult)⟩
    | some (.error fault) => exact ⟨[], p, _, s₁, rfl, hlast (.failed hresult)⟩
    | some (.ok envelope) =>
      simp only [Option.getD_some, Except.map]
      cases hfind : envelope.data.find? (·.id = batchId) with
      | none =>
        have hnone : ∀ status ∈ envelope.data, status.id ≠ batchId := by
          simpa using List.find?_eq_none.mp hfind
        exact ⟨[], p, _, s₁, rfl, hlast (.missing ⟨envelope, hresult, hnone⟩)⟩
      | some status =>
        have htells : p.Tells batchId status := ⟨envelope, hresult, hfind⟩
        have hearly : s₁.clock < start + 1000 * seconds := hanswered envelope hresult
        cases hfinal : status.status.isFinal with
        | true =>
          simp only [hfinal, if_true]
          exact ⟨[], p, _, s₁, rfl, hlast (.decided htells (StatusKind.isFinal_iff.mp hfinal))⟩
        | false =>
          have hnext : number + 1 ≤ 2 * seconds := by
            simp only [p, pollInterval] at hbegun
            omega
          simp only [hfinal, Bool.false_eq_true, if_false]
          obtain ⟨earlier, last, result, s', hmore, hwaits⟩ :=
            ih s₁ (by omega) hnext (Nat.le_of_lt hearly)
          exact ⟨p :: earlier, last, result, s', hmore, .after_undecided hmade rfl rfl rfl rfl
            hattempts ⟨status, htells, StatusKind.isFinal_eq_false_iff.mp hfinal⟩ hwaits⟩

variable {node s batchId}

theorem InTurn.isMade_of_mem {now endedAt : Nat} {state after : σ} {polls : List (Poll σ)}
    (h : client.InTurn node batchId seconds start number now state polls endedAt after)
    (hp : p ∈ polls) : p.IsMade node client batchId seconds (start + 1000 * seconds) := by
  induction h with
  | done => cases hp
  | next hmade _ _ ih =>
    rcases List.mem_cons.mp hp with rfl | hp
    · exact hmade
    · exact ih hp

/-- A poll fails with none of the faults that are found out about the batch. -/
theorem Poll.IsMade.ne_of_failed {deadline : Nat} {fault : Rest.Fault}
    (h : p.IsMade node client batchId seconds deadline)
    (hfailed : p.outcome = some (.error fault)) :
    fault ≠ .noStatus batchId ∧ fault ≠ .stillPending batchId seconds := by
  unfold IsMade at h
  rw [hfailed] at h
  cases h.ofRequest with
  | deadline hdeadline => cases hdeadline
  | _ => exact ⟨nofun, nofun⟩

theorem Poll.Settles.noStatus_iff {deadline : Nat}
    (h : p.Settles batchId seconds result)
    (hmade : p.IsMade node client batchId seconds deadline) :
    result = .error (.noStatus batchId) ↔ p.Misses batchId := by
  constructor
  · rintro rfl
    cases h with
    | missing h => exact h
    | failed h => exact absurd rfl (hmade.ne_of_failed h).1
  · rintro ⟨envelope, hanswered, hnone⟩
    cases h with
    | decided h =>
      obtain ⟨envelope', hanswered', hfind⟩ := h
      rw [hanswered] at hanswered'
      cases hanswered'
      exact absurd (by simpa using List.find?_some hfind)
        (hnone _ (List.mem_of_find?_eq_some hfind))
    | missing => rfl
    | failed h =>
      rw [hanswered] at h
      cases h
    | overdue h =>
      rw [hanswered] at h
      cases h

theorem Poll.Settles.stillPending_iff {deadline : Nat}
    (h : p.Settles batchId seconds result)
    (hmade : p.IsMade node client batchId seconds deadline) :
    result = .error (.stillPending batchId seconds) ↔ p.outcome = none := by
  constructor
  · rintro rfl
    cases h with
    | failed h => exact absurd rfl (hmade.ne_of_failed h).2
    | overdue h => exact h
  · intro hnone
    cases h with
    | decided h =>
      obtain ⟨envelope, hanswered, -⟩ := h
      rw [hnone] at hanswered
      cases hanswered
    | missing h =>
      obtain ⟨envelope, hanswered, -⟩ := h
      rw [hnone] at hanswered
      cases hanswered
    | failed h =>
      rw [hnone] at h
      cases h
    | overdue => rfl

/-- Who waits for a batch polls the node until a poll settles the matter, and not once more. It is
the answer to that last poll that is returned or misses the batch, its fault that is passed on, and
its want of an answer by the deadline that ends the wait. -/
theorem waitForCommit_settled (node : Node σ) (client : RegistryClient) (s : Session σ)
    (batchId : String) (seconds : Nat)
    (hwait : client.rest.timeoutSeconds + min client.statusWaitSeconds seconds < UInt64.size) :
    ∃ earlier last result s', (client.waitForCommit node batchId seconds).run.run s = (result, s') ∧
      client.Waits node batchId seconds s.clock 0 s earlier last result s' ∧
      (result = .error (.noStatus batchId) ↔ last.Misses batchId) ∧
      (result = .error (.stillPending batchId seconds) ↔ last.outcome = none) := by
  have hcount : 1000 * seconds / pollInterval + 1 + 0 = 2 * seconds + 1 := by
    simp only [pollInterval]
    omega
  obtain ⟨earlier, last, result, s', hrun, hwaits⟩ := pollFrom_waits node s batchId hwait
    hcount (Nat.zero_le _) (Nat.le_add_right _ _)
  have hmade := hwaits.polls.isMade_of_mem
    (List.mem_append_right earlier (List.mem_singleton_self last))
  refine ⟨earlier, last, result, s', ?_, hwaits, hwaits.settles.noStatus_iff hmade,
    hwaits.settles.stillPending_iff hmade⟩
  unfold waitForCommit
  rw [Talk.run_bind, Talk.run_get]
  exact hrun

end Wait

/-- A client that waits, and statuses that are told to it after a while. -/
def patient : RegistryClient where
  rest := { base := "http://[::1]:8008", timeoutSeconds := 30 }
  family := { name := "cert", version := "1" }
  statusWaitSeconds := 5

def lateAnswer (statuses : List BatchStatus) : Reply :=
  .answer 700 (Talk.promptAnswer 200 (Bytes.ofText
    (Json.Value.record [("data", .list (statuses.map (·.toJson)))]).compact))

/-- A batch that is decided on after the first poll. Of two entries for it the first one counts. -/
theorem waitForCommit_settled_later :
    let replies := [
      lateAnswer [{ id := "a", status := .committed }, { id := "b", status := .pending }],
      lateAnswer [{ id := "b", status := .committed }, { id := "b", status := .invalid }]]
    ∃ earlier last s', (patient.waitForCommit Node.scripted "b" 10).run.run { node := replies } =
        (.ok { id := "b", status := .committed }, s') ∧
      patient.Waits Node.scripted "b" 10 0 0 { node := replies } earlier last
        (.ok { id := "b", status := .committed }) s' ∧ earlier.length = 1 := by
  intro replies
  obtain ⟨earlier, last, result, s', hrun, hwaits, -⟩ :=
    waitForCommit_settled Node.scripted patient { node := replies } "b" 10 (by decide)
  have hresult :
      let ended := (patient.waitForCommit Node.scripted "b" 10).run.run { node := replies }
      ended.1.toOption = some { id := "b", status := .committed } ∧
        ended.2.attempts.length = 2 := by
    decide +kernel
  rw [hrun] at hresult
  obtain rfl := toOption_eq_some.mp hresult.1
  refine ⟨earlier, last, s', hrun, hwaits, ?_⟩
  obtain ⟨attempts, hattempts, hpolls⟩ := hwaits.attempts
  have hlength := congrArg List.length hpolls
  have htwo := hresult.2
  rw [hattempts] at htwo
  simp at hlength htwo
  omega

end RegistryClient

end CertRegistry
