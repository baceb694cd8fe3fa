import CertRegistry.Proofs.Rest.Talk

/-!
# Attempts and what is counted for them

What each conversation adds to the attempts and to the tally of a session. A request is one
attempt. It counts as a success or as an error as soon as it is known how it ended, whatever
becomes of its body, and does not count if the deadline came before that.
-/

namespace CertRegistry.Rest

variable {σ α β : Type}

/-- What a session has recorded later on: the same, and some attempts and increments more. -/
structure Session.Grows (s s' : Session σ) (attempts : List Attempt) (tally : Tally) : Prop where
  attempts : s'.attempts = attempts ++ s.attempts
  tally : s'.tally = tally ++ s.tally

/-- Whether an attempt brought an answer that says so. -/
def Ending.isSuccess : Ending → Bool
  | .answered status => 200 ≤ status && status < 300
  | .failed | .abandoned => false

/-- What is counted for attempts, each under its resource, if it has one. -/
def Tally.ofAttempts (resource? : Attempt → Option Resource) (succeeds : Ending → Bool)
    (attempts : List Attempt) : Tally :=
  attempts.flatMap fun a =>
    if a.ending = .abandoned then []
    else ((resource? a).map fun r => (.requests r (succeeds a.ending), 1)).toList

/-- The faults that come of one request. -/
inductive Fault.OfRequest (limits : Limits) : Fault → Prop
  | transport (fault : TransportFault) : OfRequest limits (.transport fault)
  | refused (status : Nat) (message : String) : OfRequest limits (.refused status message)
  | badJson (fault : Json.Fault) (body : String) : OfRequest limits (.badJson fault body)
  | deadline {d : Deadline} (h : limits.deadline = some d) : OfRequest limits d.fault

namespace Session.Grows

variable {s s₁ s₂ : Session σ} {attempts attempts' : List Attempt} {tally tally' : Tally}

theorem trans (h : s.Grows s₁ attempts tally) (h' : s₁.Grows s₂ attempts' tally') :
    s.Grows s₂ (attempts' ++ attempts) (tally' ++ tally) :=
  ⟨by rw [h'.attempts, h.attempts, List.append_assoc],
    by rw [h'.tally, h.tally, List.append_assoc]⟩

end Session.Grows

/-- The attempt at a call that began at some time and ended in some way. -/
def Call.attempt (call : Call) (startedAt : Nat) (ending : Ending) : Attempt :=
  { startedAt, method := call.method, url := call.url, body := call.body, counted := call.counted
    ending }

namespace Talk

variable (s : Session σ)

@[simp]
theorem run_pure (a : α) : (pure a : Talk σ α).run.run s = (.ok a, s) := rfl

@[simp]
theorem run_get : (get : Talk σ (Session σ)).run.run s = (.ok s, s) := rfl

@[simp]
theorem run_set (s' : Session σ) : (set s' : Talk σ PUnit).run.run s = (.ok (), s') := rfl

@[simp]
theorem run_count (counter : Counter) (n : Nat) :
    (count counter n : Talk σ Unit).run.run s =
      (.ok (), { s with tally := s.tally.add counter n }) := rfl

@[simp]
theorem run_sleep (millis : Nat) : (sleep millis : Talk σ Unit).run.run s =
    (.ok (), { s with clock := s.clock + millis }) := rfl

@[simp]
theorem run_sleepUntil (time : Nat) : (sleepUntil time : Talk σ Unit).run.run s =
    (.ok (), { s with clock := max s.clock time }) := rfl

/-- What only works on results leaves the session as it is. -/
theorem run_bind_snd (talk : Talk σ α) {next : α → Talk σ β}
    (h : ∀ a s, ((next a).run.run s).2 = s) :
    ((talk >>= next).run.run s).2 = (talk.run.run s).2 := by
  rw [run_bind]
  rcases talk.run.run s with ⟨result, s'⟩
  cases result with
  | error fault => rfl
  | ok a => exact h a s'

/-! ## Sending -/

/-- What is returned for an attempt that ended in some way. Only a deadline makes the conversation
itself fail. -/
inductive Concludes (limits : Limits) :
    Except Fault (Except TransportFault Answer) → Ending → Prop
  | answered (answer : Answer) : Concludes limits (.ok (.ok answer)) (.answered answer.status)
  | failed (fault : TransportFault) : Concludes limits (.ok (.error fault)) .failed
  | abandoned {deadline : Deadline} (h : limits.deadline = some deadline) :
    Concludes limits (.error deadline.fault) .abandoned

/-- A deadline only takes the place of what would end the wait without it. -/
theorem wakening_eq (limit : Nat) (event : Option Nat) : ∃ first : Wakening × Nat,
    (∀ fault, first.1 ≠ .deadline fault) ∧ ∀ deadline, wakening limit deadline event =
      deadline.elim first fun d =>
        if d.time ≤ first.2 then (.deadline d.fault, d.time) else first := by
  cases event with
  | none => exact ⟨(.limit, limit), by simp, fun deadline => by cases deadline <;> rfl⟩
  | some time =>
    by_cases h : time < limit
    · refine ⟨(.event, time), by simp, fun deadline => ?_⟩
      cases deadline <;> simp [wakening, h]
    · refine ⟨(.limit, limit), by simp, fun deadline => ?_⟩
      cases deadline <;> simp [wakening, h]

theorem wakening_deadline {limit time : Nat} {deadline : Option Deadline} {event : Option Nat}
    {fault : Fault} (h : wakening limit deadline event = (.deadline fault, time)) :
    ∃ d, deadline = some d ∧ d.fault = fault := by
  obtain ⟨first, hfirst, heq⟩ := wakening_eq limit event
  rw [heq] at h
  cases deadline with
  | none => exact absurd (congrArg Prod.fst h) (hfirst fault)
  | some d =>
    simp only [Option.elim] at h
    split at h
    · cases h
      exact ⟨d, rfl, rfl⟩
    · exact absurd (congrArg Prod.fst h) (hfirst fault)

variable (node : Node σ) (limits : Limits) (call : Call)

theorem exchange_concludes (url : Url) : ∃ ending,
    Concludes limits ((exchange node limits call url).run.run s).1 ending ∧
      s.Grows ((exchange node limits call url).run.run s).2 [call.attempt s.clock ending] [] := by
  unfold exchange
  rw [run_bind, run_get]
  rcases hreply : node.reply s.node
    { method := call.method, url := { url with credentials := [], fragment := none }
      body := call.body } with ⟨reply, state⟩
  rcases harrival : arrival s.clock reply with ⟨event, answer?⟩
  rcases hwakening : wakening (s.clock + 1000 * limits.seconds) limits.deadline event with
    ⟨kind, time⟩
  simp only [hreply, harrival, hwakening, run_bind, run_set]
  cases kind with
  | deadline fault =>
    obtain ⟨d, hdeadline, rfl⟩ := wakening_deadline hwakening
    exact ⟨.abandoned, .abandoned hdeadline, rfl, rfl⟩
  | event =>
    cases answer? with
    | some answer => exact ⟨.answered answer.status, .answered answer, rfl, rfl⟩
    | none => exact ⟨.failed, .failed _, rfl, rfl⟩
  | limit => exact ⟨.failed, .failed _, rfl, rfl⟩

/-- A call is one attempt, whether or not it can be sent. -/
theorem send_concludes : ∃ ending,
    Concludes limits ((send node limits call).run.run s).1 ending ∧
      s.Grows ((send node limits call).run.run s).2 [call.attempt s.clock ending] [] := by
  unfold send
  simp only [run_bind, run_get]
  cases Url.parse call.url with
  | error fault => exact ⟨.failed, .failed _, rfl, rfl⟩
  | ok url =>
    simp only
    split
    · exact ⟨.failed, .failed _, rfl, rfl⟩
    split
    · exact ⟨.failed, .failed _, rfl, rfl⟩
    cases hdeadline : limits.deadline with
    | none => exact exchange_concludes s node limits call url
    | some deadline =>
      simp only
      split
      · exact ⟨.abandoned, .abandoned hdeadline, rfl, rfl⟩
      · exact exchange_concludes s node limits call url

/-! ## Reading answers -/

/-- A body is not recorded, and only a deadline makes the wait for it fail. -/
theorem readBody_run (startedAt : Nat) (body : Body) :
    s.Grows ((readBody limits startedAt body : Talk σ _).run.run s).2 [] [] ∧
      ∀ fault, ((readBody limits startedAt body : Talk σ _).run.run s).1 = .error fault →
        fault.OfRequest limits := by
  unfold readBody
  rw [run_bind, run_get]
  rcases hwakening : wakening (startedAt + 1000 * limits.seconds) limits.deadline
    (some (s.clock + body.delay)) with ⟨kind, time⟩
  simp only [hwakening, run_bind, run_set]
  cases kind with
  | deadline fault =>
    refine ⟨⟨rfl, rfl⟩, fun fault' h => ?_⟩
    cases h
    obtain ⟨d, hdeadline, rfl⟩ := wakening_deadline hwakening
    exact .deadline hdeadline
  | event =>
    cases body.octets with
    | some octets => exact ⟨⟨rfl, rfl⟩, nofun⟩
    | none => exact ⟨⟨rfl, rfl⟩, nofun⟩
  | limit => exact ⟨⟨rfl, rfl⟩, nofun⟩

/-- The attempt is counted as it ended, whatever its body is. -/
theorem accept_run (resource : Resource) (startedAt : Nat)
    {result : Except TransportFault Answer} {ending : Ending}
    (h : Concludes limits (.ok result) ending) :
    s.Grows ((accept limits resource startedAt result : Talk σ _).run.run s).2 []
        [(.requests resource ending.isSuccess, 1)] ∧
      ∀ fault, ((accept limits resource startedAt result : Talk σ _).run.run s).1 = .error fault →
        fault.OfRequest limits := by
  unfold accept
  cases h with
  | failed fault =>
    refine ⟨⟨rfl, rfl⟩, fun fault' heq => ?_⟩
    cases heq
    exact .transport fault
  | answered answer =>
    have hsuccess : (Ending.answered answer.status).isSuccess = answer.isSuccess := rfl
    simp only [run_bind, run_count, hsuccess]
    split
    · exact ⟨⟨rfl, rfl⟩, nofun⟩
    · obtain ⟨hgrows, hfault⟩ := readBody_run
        { s with tally := s.tally.add (.requests resource answer.isSuccess) 1 } limits startedAt
        answer.body
      simp only [run_bind]
      split
      next text s' hread =>
        rw [hread] at hgrows
        refine ⟨⟨hgrows.attempts, hgrows.tally⟩, fun fault heq => ?_⟩
        cases heq
        exact .refused _ _
      next fault s' hread =>
        rw [hread] at hgrows hfault
        refine ⟨⟨hgrows.attempts, hgrows.tally⟩, fun fault' heq => ?_⟩
        cases heq
        exact hfault fault rfl

theorem decode_run (reader : Json.Reader α) (startedAt : Nat) (answer : Answer) :
    s.Grows ((decode reader limits startedAt answer : Talk σ α).run.run s).2 [] [] ∧
      ∀ fault, ((decode reader limits startedAt answer : Talk σ α).run.run s).1 = .error fault →
        fault.OfRequest limits := by
  obtain ⟨hgrows, hfault⟩ := readBody_run s limits startedAt answer.body
  unfold decode requireBody
  simp only [run_bind]
  rcases hread : (readBody limits startedAt answer.body : Talk σ _).run.run s with ⟨result, s'⟩
  rw [hread] at hgrows hfault
  cases result with
  | error fault =>
    refine ⟨hgrows, fun fault' heq => ?_⟩
    cases heq
    exact hfault fault rfl
  | ok body =>
    cases body with
    | error fault =>
      refine ⟨hgrows, fun fault' heq => ?_⟩
      cases heq
      exact .transport fault
    | ok text =>
      simp only [run_pure]
      cases reader.parse text with
      | ok a => exact ⟨hgrows, nofun⟩
      | error fault =>
        refine ⟨hgrows, fun fault' heq => ?_⟩
        cases heq
        exact .badJson fault text

/-- A request is one attempt, which is counted under its resource. -/
theorem request_run (resource : Resource) (reader : Json.Reader α) : ∃ attempt : Attempt,
    s.Grows ((request node limits resource reader call).run.run s).2 [attempt]
        (.ofAttempts (fun _ => resource) Ending.isSuccess [attempt]) ∧
      attempt.method = call.method ∧
      (attempt.ending = .abandoned → ∃ d, limits.deadline = some d) ∧
      ∀ fault, ((request node limits resource reader call).run.run s).1 = .error fault →
        fault.OfRequest limits := by
  obtain ⟨ending, hconcludes, hsend⟩ :=
    send_concludes s node limits { call with counted := some resource }
  refine ⟨({ call with counted := some resource } : Call).attempt s.clock ending, ?_⟩
  unfold request
  rw [run_bind, run_get]
  simp only [run_bind]
  rcases hrun : (send node limits { call with counted := some resource }).run.run s with
    ⟨result, s₁⟩
  rw [hrun] at hconcludes hsend
  cases result with
  | error fault =>
    cases hconcludes with
    | abandoned hdeadline =>
      refine ⟨hsend, rfl, fun _ => ⟨_, hdeadline⟩, fun fault' heq => ?_⟩
      cases heq
      exact .deadline hdeadline
  | ok result =>
    obtain ⟨haccept, hrefused⟩ := accept_run s₁ limits resource s.clock hconcludes
    have hending : ending ≠ .abandoned := by
      rintro rfl
      cases hconcludes
    have htally : Tally.ofAttempts (fun _ => some resource) Ending.isSuccess
        [({ call with counted := some resource } : Call).attempt s.clock ending] =
          [(.requests resource ending.isSuccess, 1)] := by
      simp [Tally.ofAttempts, Call.attempt, hending]
    rw [htally]
    rcases haccepted : (accept limits resource s.clock result : Talk σ _).run.run s₁ with
      ⟨accepted, s₂⟩
    rw [haccepted] at haccept hrefused
    simp only [haccepted]
    cases accepted with
    | error fault =>
      refine ⟨hsend.trans haccept, rfl, fun h => absurd h hending, fun fault' heq => ?_⟩
      cases heq
      exact hrefused fault rfl
    | ok answer =>
      obtain ⟨hdecode, hmalformed⟩ := decode_run s₂ limits reader s.clock answer
      exact ⟨(hsend.trans haccept).trans hdecode, rfl, fun h => absurd h hending, hmalformed⟩

end Talk

end CertRegistry.Rest
