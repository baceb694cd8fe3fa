import CertRegistry.Proofs.Rest.Attempts
import CertRegistry.Proofs.Url.Local

/-!
# How a request goes

All ways in which a request can go that no deadline cuts short, with any node. What comes of it
depends on the state of the node alone, and not on the time or on what went before. The client makes
one attempt at a request and repeats nothing. Where that leads behind the node is not its matter,
and what servers get of it is told in `CertRegistry.Proofs.Rest.Redirects`.
-/

namespace CertRegistry.Rest

variable {σ α : Type}

/-- The text of a body, if it is all there within so many milliseconds. -/
def Body.text? (body : Body) (millis : Nat) : Option String :=
  if body.delay < millis then body.octets.map Bytes.lenientText else none

/-- How many milliseconds it takes until a reply is there in full or its time is over. -/
def Reply.millis (seconds : Nat) : Reply → Nat
  | .answer delay a => min (delay + a.body.delay) (1000 * seconds)
  | .hangUp delay => min delay (1000 * seconds)
  | .silence => 1000 * seconds
  | .fail delay _ => min delay (1000 * seconds)

/-- Whether the deadline, if there is one, is later than a time. -/
def Limits.Allow (limits : Limits) (time : Nat) : Prop :=
  ∀ d, limits.deadline = some d → time < d.time

theorem Limits.Allow.mono {limits : Limits} {time earlier : Nat} (h : limits.Allow time)
    (hle : earlier ≤ time) : limits.Allow earlier :=
  fun d hd => Nat.lt_of_le_of_lt hle (h d hd)

theorem Limits.allow_of_none {limits : Limits} (h : limits.deadline = none) (time : Nat) :
    limits.Allow time := by
  intro d hd
  rw [h] at hd
  cases hd

namespace Call

/-- What the node gets of a call. The credentials and the fragment stay with the client. -/
def request (call : Call) (url : Url) : Request where
  method := call.method
  url := { url with credentials := [], fragment := none }
  body := call.body

/-- Whether a call goes out to the node, as a request for a URL. -/
structure GoesOut (node : Node σ) (seconds : Nat) (call : Call) (before : σ) (url : Url) :
    Prop where
  parse : Url.parse call.url = .ok url
  sendable : isSendable url = true
  seconds : seconds ≠ 0
  reachable : node.reachable before url = true

/-- Whether the node answers a call in time, after so many milliseconds. -/
structure Answered (node : Node σ) (seconds : Nat) (call : Call) (before : σ) (delay : Nat)
    (answer : Answer) (after : σ) : Prop where
  reply : ∃ url, call.GoesOut node seconds before url ∧
    node.reply before (call.request url) = (.answer delay answer, after)
  inTime : delay < 1000 * seconds

/-- Why no answer to a call comes in time. Only if it goes out can the node change. -/
inductive Unanswered (node : Node σ) (seconds : Nat) (call : Call) (before : σ) :
    TransportFault → σ → Prop
  | unparsed {fault : Url.Fault} (h : Url.parse call.url = .error fault) :
    Unanswered node seconds call before (.badUrl fault) before
  | unsendable {url : Url} (hparse : Url.parse call.url = .ok url) (h : isSendable url = false) :
    Unanswered node seconds call before (.unsendable url) before
  | unreached {url : Url} (hparse : Url.parse call.url = .ok url)
    (hsendable : isSendable url = true) (h : seconds = 0 ∨ node.reachable before url = false) :
    Unanswered node seconds call before (.unanswered url) before
  | late {url : Url} {reply : Reply} {after : σ} (h : call.GoesOut node seconds before url)
    (hreply : node.reply before (call.request url) = (reply, after))
    (hlate : ∀ delay answer, reply = .answer delay answer → 1000 * seconds ≤ delay) :
    Unanswered node seconds call before (reply.fault url) after

/-- What a call comes to, how its attempt ends, and in which state this leaves the node. -/
inductive ComesTo (node : Node σ) (seconds : Nat) (reader : Json.Reader α) (call : Call)
    (before : σ) : Except Fault α → Ending → σ → Prop
  | unanswered {fault : TransportFault} {after : σ}
    (h : call.Unanswered node seconds before fault after) :
    ComesTo node seconds reader call before (.error (.transport fault)) .failed after
  | refused {delay : Nat} {answer : Answer} {after : σ}
    (h : call.Answered node seconds before delay answer after)
    (hstatus : answer.isSuccess = false) :
    ComesTo node seconds reader call before
      (.error (.refused answer.status
        (refusalText ((answer.body.text? (1000 * seconds - delay)).getD ""))))
      (.answered answer.status) after
  | cutOff {delay : Nat} {answer : Answer} {after : σ}
    (h : call.Answered node seconds before delay answer after) (hstatus : answer.isSuccess = true)
    (hbody : answer.body.text? (1000 * seconds - delay) = none) :
    ComesTo node seconds reader call before (.error (.transport .bodyBroken))
      (.answered answer.status) after
  | unreadable {delay : Nat} {answer : Answer} {after : σ} {text : String} {fault : Json.Fault}
    (h : call.Answered node seconds before delay answer after) (hstatus : answer.isSuccess = true)
    (hbody : answer.body.text? (1000 * seconds - delay) = some text)
    (hread : reader.parse text = .error fault) :
    ComesTo node seconds reader call before (.error (.badJson fault text))
      (.answered answer.status) after
  | read {delay : Nat} {answer : Answer} {after : σ} {text : String} {a : α}
    (h : call.Answered node seconds before delay answer after) (hstatus : answer.isSuccess = true)
    (hbody : answer.body.text? (1000 * seconds - delay) = some text)
    (hread : reader.parse text = .ok a) :
    ComesTo node seconds reader call before (.ok a) (.answered answer.status) after

/-- Whether no deadline cuts a call short that begins at a time, and how many milliseconds it takes.
What is not sent fails at once, whatever the deadline. -/
inductive InTime (node : Node σ) (limits : Limits) (call : Call) (before : σ) (now : Nat) :
    Nat → Prop
  | unsent (h : ∀ url, ¬ call.GoesOut node limits.seconds before url) :
    InTime node limits call before now 0
  | sent {url : Url} {reply : Reply} {after : σ} (h : call.GoesOut node limits.seconds before url)
    (hreply : node.reply before (call.request url) = (reply, after))
    (hallow : limits.Allow (now + reply.millis limits.seconds)) :
    InTime node limits call before now (reply.millis limits.seconds)

/-- Whether a call is carried out and what is answered can be read. -/
def Succeeds (node : Node σ) (seconds : Nat) (reader : Json.Reader α) (call : Call) (before : σ)
    (a : α) (after : σ) : Prop :=
  ∃ delay answer text, call.Answered node seconds before delay answer after ∧
    answer.isSuccess = true ∧ answer.body.text? (1000 * seconds - delay) = some text ∧
    reader.parse text = .ok a

/-- Whether a session turns into another one by a call that comes to a result. -/
def Makes (node : Node σ) (seconds : Nat) (reader : Json.Reader α) (call : Call) (s : Session σ)
    (result : Except Fault α) (s' : Session σ) : Prop :=
  ∃ ending, call.ComesTo node seconds reader s.node result ending s'.node ∧
    s'.attempts = call.attempt s.clock ending :: s.attempts

variable {node : Node σ} {seconds : Nat} {reader : Json.Reader α} {call : Call} {before after : σ}

theorem GoesOut.unique {url other : Url} (h : call.GoesOut node seconds before url)
    (h' : call.GoesOut node seconds before other) : url = other :=
  Except.ok.inj (h.parse.symm.trans h'.parse)

theorem Answered.unique {delay delay' : Nat} {answer answer' : Answer} {after' : σ}
    (h : call.Answered node seconds before delay answer after)
    (h' : call.Answered node seconds before delay' answer' after') :
    delay = delay' ∧ answer = answer' ∧ after = after' := by
  obtain ⟨url, hgoes, hreply⟩ := h.reply
  obtain ⟨url', hgoes', hreply'⟩ := h'.reply
  obtain rfl := hgoes.unique hgoes'
  rw [hreply] at hreply'
  cases hreply'
  exact ⟨rfl, rfl, rfl⟩

/-- What is answered in time is not unanswered. -/
theorem Answered.not_unanswered {delay : Nat} {answer : Answer} {after' : σ}
    {fault : TransportFault} (h : call.Answered node seconds before delay answer after) :
    ¬ call.Unanswered node seconds before fault after' := by
  obtain ⟨url, hgoes, hreply⟩ := h.reply
  rintro (hparse | ⟨hparse, hsendable⟩ | ⟨hparse, hsendable, hnever⟩ | ⟨hgoes', hreply', hlate⟩)
  · rw [hgoes.parse] at hparse
    cases hparse
  · rw [hgoes.parse] at hparse
    cases hparse
    rw [hgoes.sendable] at hsendable
    cases hsendable
  · rw [hgoes.parse] at hparse
    cases hparse
    rcases hnever with hseconds | hreachable
    · exact hgoes.seconds hseconds
    · rw [hgoes.reachable] at hreachable
      cases hreachable
  · obtain rfl := hgoes.unique hgoes'
    rw [hreply] at hreply'
    cases hreply'
    exact Nat.not_le.mpr h.inTime (hlate _ _ rfl)

/-- The head of an answer is there before the reply is over. -/
theorem Answered.head_le {now delay : Nat} {answer : Answer}
    (h : call.Answered node seconds before delay answer after) :
    now + delay ≤ now + Reply.millis seconds (.answer delay answer) := by
  have hdelay := h.inTime
  simp only [Reply.millis]
  omega

/-- What is answered in time takes as long as the reply. -/
theorem Answered.inTime_millis {limits : Limits} {now delay millis : Nat} {answer : Answer}
    (h : call.Answered node limits.seconds before delay answer after)
    (htime : call.InTime node limits before now millis) :
    millis = Reply.millis limits.seconds (.answer delay answer) ∧ limits.Allow (now + millis) := by
  obtain ⟨url, hgoes, hreply⟩ := h.reply
  cases htime with
  | unsent hnever => exact absurd hgoes (hnever url)
  | sent hgoes' hreply' hallow =>
    obtain rfl := hgoes.unique hgoes'
    rw [hreply] at hreply'
    cases hreply'
    exact ⟨rfl, hallow⟩

/-- What can succeed comes to nothing else. -/
theorem ComesTo.of_succeeds {result : Except Fault α} {ending : Ending} {a : α} {after' : σ}
    (h : call.ComesTo node seconds reader before result ending after)
    (hsucceeds : call.Succeeds node seconds reader before a after') :
    result = .ok a ∧ after = after' := by
  obtain ⟨delay, answer, text, hanswered, hstatus, hbody, hread⟩ := hsucceeds
  cases h with
  | unanswered h => exact absurd h hanswered.not_unanswered
  | refused h hrefused =>
    obtain ⟨rfl, rfl, rfl⟩ := h.unique hanswered
    rw [hstatus] at hrefused
    cases hrefused
  | cutOff h _ hnone =>
    obtain ⟨rfl, rfl, rfl⟩ := h.unique hanswered
    rw [hbody] at hnone
    cases hnone
  | unreadable h _ hsome hfault =>
    obtain ⟨rfl, rfl, rfl⟩ := h.unique hanswered
    rw [hbody] at hsome
    cases hsome
    rw [hread] at hfault
    cases hfault
  | read h _ hsome hok =>
    obtain ⟨rfl, rfl, rfl⟩ := h.unique hanswered
    rw [hbody] at hsome
    cases hsome
    rw [hread] at hok
    cases hok
    exact ⟨rfl, rfl⟩

theorem ComesTo.succeeds {ending : Ending} {a : α}
    (h : call.ComesTo node seconds reader before (.ok a) ending after) :
    call.Succeeds node seconds reader before a after := by
  cases h with
  | read h hstatus hbody hread => exact ⟨_, _, _, h, hstatus, hbody, hread⟩

variable (node seconds call before)

theorem answered_or_unanswered :
    (∃ delay answer after, call.Answered node seconds before delay answer after) ∨
      ∃ fault after, call.Unanswered node seconds before fault after := by
  cases hparse : Url.parse call.url with
  | error fault => exact .inr ⟨_, _, .unparsed hparse⟩
  | ok url =>
    by_cases hsendable : isSendable url = false
    · exact .inr ⟨_, _, .unsendable hparse hsendable⟩
    rw [Bool.not_eq_false] at hsendable
    by_cases hunreached : seconds = 0 ∨ node.reachable before url = false
    · exact .inr ⟨_, _, .unreached hparse hsendable hunreached⟩
    rw [not_or, Bool.not_eq_false] at hunreached
    have hgoes : call.GoesOut node seconds before url :=
      ⟨hparse, hsendable, hunreached.1, hunreached.2⟩
    rcases hreply : node.reply before (call.request url) with ⟨reply, after⟩
    by_cases hintime : ∃ delay answer, reply = .answer delay answer ∧ delay < 1000 * seconds
    · obtain ⟨delay, answer, rfl, hdelay⟩ := hintime
      exact .inl ⟨delay, answer, after, ⟨⟨url, hgoes, hreply⟩, hdelay⟩⟩
    · exact .inr ⟨_, _, .late hgoes hreply fun delay answer heq =>
        Nat.le_of_not_lt fun hlt => hintime ⟨delay, answer, heq, hlt⟩⟩

theorem exists_comesTo (reader : Json.Reader α) :
    ∃ result ending after, call.ComesTo node seconds reader before result ending after := by
  rcases answered_or_unanswered node seconds call before with
    ⟨delay, answer, after, hanswered⟩ | ⟨fault, after, hunanswered⟩
  · cases hstatus : answer.isSuccess with
    | false => exact ⟨_, _, _, .refused hanswered hstatus⟩
    | true =>
      cases hbody : answer.body.text? (1000 * seconds - delay) with
      | none => exact ⟨_, _, _, .cutOff hanswered hstatus hbody⟩
      | some text =>
        cases hread : reader.parse text with
        | error fault => exact ⟨_, _, _, .unreadable hanswered hstatus hbody hread⟩
        | ok a => exact ⟨_, _, _, .read hanswered hstatus hbody hread⟩
  · exact ⟨_, _, _, .unanswered hunanswered⟩

theorem exists_inTime {limits : Limits} (hdeadline : limits.deadline = none) (now : Nat) :
    ∃ millis, call.InTime node limits before now millis := by
  by_cases hgoes : ∃ url, call.GoesOut node limits.seconds before url
  · obtain ⟨url, hgoes⟩ := hgoes
    exact ⟨_, .sent hgoes rfl (Limits.allow_of_none hdeadline _)⟩
  · exact ⟨0, .unsent fun url h => hgoes ⟨url, h⟩⟩

end Call

namespace Talk

variable (s : Session σ) (node : Node σ) {limits : Limits} (call : Call)

theorem wakening_of_event {limit time : Nat} {deadline : Option Deadline} (h : time < limit)
    (hdeadline : ∀ d, deadline = some d → time < d.time) :
    wakening limit deadline (some time) = (.event, time) := by
  cases deadline with
  | none => exact wakening_event h
  | some d => simp [wakening, h, Nat.not_le.mpr (hdeadline d rfl)]

/-- What comes too late, if at all, does not come. -/
theorem wakening_of_limit {limit : Nat} {deadline : Option Deadline} {event : Option Nat}
    (h : ∀ time, event = some time → limit ≤ time)
    (hdeadline : ∀ d, deadline = some d → limit < d.time) :
    wakening limit deadline event = (.limit, limit) := by
  cases event with
  | none =>
    cases deadline with
    | none => rfl
    | some d => simp [wakening, Nat.not_le.mpr (hdeadline d rfl)]
  | some time =>
    have hlate : ¬ time < limit := Nat.not_lt.mpr (h time rfl)
    cases deadline with
    | none => simp [wakening, hlate]
    | some d => simp [wakening, hlate, Nat.not_le.mpr (hdeadline d rfl)]

section Exchange

variable {s node call} {url : Url} {after : σ} {delay millis : Nat} {answer : Answer}

theorem exchange_answered
    (hreply : node.reply s.node (call.request url) = (.answer delay answer, after))
    (hdelay : delay < 1000 * limits.seconds) (hallow : limits.Allow (s.clock + delay)) :
    (exchange node limits call url).run.run s = (.ok (.ok answer),
      { s with
        node := after, clock := s.clock + delay
        attempts := call.attempt s.clock (.answered answer.status) :: s.attempts }) := by
  have hevent : s.clock + delay < s.clock + 1000 * limits.seconds := Nat.add_lt_add_left hdelay _
  unfold exchange
  rw [Call.request] at hreply
  rw [run_bind, run_get]
  simp only [hreply, arrival, wakening_of_event hevent hallow, run_bind, run_set]
  rfl

/-- Without an answer the end of the connection and the time limit come to the same. -/
theorem exchange_broken {reply : Reply}
    (hreply : node.reply s.node (call.request url) = (reply, after))
    (harrival : arrival s.clock reply = (some (s.clock + delay), none))
    (hallow : limits.Allow (s.clock + min delay (1000 * limits.seconds))) :
    (exchange node limits call url).run.run s = (.ok (.error (reply.fault url)),
      { s with
        node := after, clock := s.clock + min delay (1000 * limits.seconds)
        attempts := call.attempt s.clock .failed :: s.attempts }) := by
  unfold exchange
  rw [Call.request] at hreply
  rw [run_bind, run_get]
  simp only [hreply, harrival, run_bind]
  by_cases hdelay : delay < 1000 * limits.seconds
  · rw [Nat.min_eq_left (Nat.le_of_lt hdelay)] at hallow ⊢
    have hevent : s.clock + delay < s.clock + 1000 * limits.seconds :=
      Nat.add_lt_add_left hdelay _
    simp only [wakening_of_event hevent hallow]
    rfl
  · rw [Nat.min_eq_right (Nat.le_of_not_lt hdelay)] at hallow ⊢
    have hlimit : ∀ time, some (s.clock + delay) = some time →
        s.clock + 1000 * limits.seconds ≤ time := by
      rintro _ ⟨⟩
      exact Nat.add_le_add_left (Nat.le_of_not_lt hdelay) _
    simp only [wakening_of_limit hlimit hallow]
    rfl

theorem exchange_late {reply : Reply}
    (hreply : node.reply s.node (call.request url) = (reply, after))
    (hlate : ∀ delay answer, reply = .answer delay answer → 1000 * limits.seconds ≤ delay)
    (hallow : limits.Allow (s.clock + reply.millis limits.seconds)) :
    (exchange node limits call url).run.run s = (.ok (.error (reply.fault url)),
      { s with
        node := after, clock := s.clock + reply.millis limits.seconds
        attempts := call.attempt s.clock .failed :: s.attempts }) := by
  cases reply with
  | answer delay answer =>
    have hmillis : Reply.millis limits.seconds (.answer delay answer) = 1000 * limits.seconds := by
      have hdelay := hlate delay answer rfl
      simp only [Reply.millis]
      omega
    rw [hmillis] at hallow ⊢
    have hlimit : ∀ time, some (s.clock + delay) = some time →
        s.clock + 1000 * limits.seconds ≤ time := by
      rintro _ ⟨⟩
      exact Nat.add_le_add_left (hlate delay answer rfl) _
    unfold exchange
    rw [Call.request] at hreply
    rw [run_bind, run_get]
    simp only [hreply, run_bind, arrival, wakening_of_limit hlimit hallow]
    rfl
  | hangUp delay => exact exchange_broken hreply rfl hallow
  | fail delay fault => exact exchange_broken hreply rfl hallow
  | silence =>
    have hnever : ∀ time, (none : Option Nat) = some time →
        s.clock + 1000 * limits.seconds ≤ time := by simp
    unfold exchange
    rw [Call.request] at hreply
    rw [run_bind, run_get]
    simp only [hreply, run_bind, arrival, wakening_of_limit hnever hallow]
    rfl

/-- A call that goes out before the deadline is exchanged for a reply. -/
theorem send_goesOut (hgoes : call.GoesOut node limits.seconds s.node url)
    (hallow : limits.Allow s.clock) :
    (send node limits call).run.run s = (exchange node limits call url).run.run s := by
  have hcondition : ¬ (limits.seconds = 0 ∨ ¬ node.reachable s.node url = true) := by
    simp [hgoes.seconds, hgoes.reachable]
  unfold send
  rw [run_bind, run_get]
  simp only [hgoes.parse, hgoes.sendable, not_true_eq_false, if_false, if_neg hcondition]
  cases hdeadline : limits.deadline with
  | none => rfl
  | some d => simp only [if_neg (Nat.not_le.mpr (hallow d hdeadline))]

theorem send_answered (h : call.Answered node limits.seconds s.node delay answer after)
    (hallow : limits.Allow (s.clock + delay)) :
    (send node limits call).run.run s = (.ok (.ok answer),
      { s with
        node := after, clock := s.clock + delay
        attempts := call.attempt s.clock (.answered answer.status) :: s.attempts }) := by
  obtain ⟨url, hgoes, hreply⟩ := h.reply
  rw [send_goesOut hgoes (hallow.mono (Nat.le_add_right _ _))]
  exact exchange_answered hreply h.inTime hallow

theorem send_unanswered {fault : TransportFault}
    (h : call.Unanswered node limits.seconds s.node fault after)
    (htime : call.InTime node limits s.node s.clock millis) :
    (send node limits call).run.run s = (.ok (.error fault),
      { s with
        node := after, clock := s.clock + millis
        attempts := call.attempt s.clock .failed :: s.attempts }) := by
  cases h with
  | unparsed hparse =>
    cases htime with
    | sent hgoes =>
      rw [hgoes.parse] at hparse
      cases hparse
    | unsent =>
      unfold send
      rw [run_bind, run_get]
      simp only [hparse]
      rfl
  | unsendable hparse hsendable =>
    cases htime with
    | sent hgoes =>
      rw [hgoes.parse] at hparse
      cases hparse
      rw [hgoes.sendable] at hsendable
      cases hsendable
    | unsent =>
      unfold send
      rw [run_bind, run_get]
      simp only [hparse, hsendable, Bool.false_eq_true, not_false_eq_true, if_true]
      rfl
  | unreached hparse hsendable hunreached =>
    cases htime with
    | sent hgoes =>
      rw [hgoes.parse] at hparse
      cases hparse
      rcases hunreached with hseconds | hreachable
      · exact absurd hseconds hgoes.seconds
      · rw [hgoes.reachable] at hreachable
        cases hreachable
    | unsent =>
      rw [← Bool.not_eq_true] at hunreached
      unfold send
      rw [run_bind, run_get]
      simp only [hparse, hsendable, not_true_eq_false, if_false, if_pos hunreached]
      rfl
  | late hgoes hreply hlate =>
    cases htime with
    | unsent hnever => exact absurd hgoes (hnever _)
    | sent hgoes' hreply' hallow =>
      obtain rfl := hgoes.unique hgoes'
      rw [hreply] at hreply'
      cases hreply'
      rw [send_goesOut hgoes (hallow.mono (Nat.le_add_right _ _))]
      exact exchange_late hreply hlate hallow

/-- The body has what is left of the time limit after the head. -/
theorem readBody_text {startedAt : Nat} {body : Body} (hclock : s.clock = startedAt + delay)
    (hdelay : delay < 1000 * limits.seconds)
    (hallow : limits.Allow (startedAt + min (delay + body.delay) (1000 * limits.seconds))) :
    (readBody limits startedAt body : Talk σ _).run.run s =
      (.ok (match body.text? (1000 * limits.seconds - delay) with
        | some text => .ok text
        | none => .error .bodyBroken),
      { s with clock := startedAt + min (delay + body.delay) (1000 * limits.seconds) }) := by
  unfold readBody
  rw [run_bind, run_get]
  unfold Body.text?
  by_cases hintime : body.delay < 1000 * limits.seconds - delay
  · have hevent : s.clock + body.delay < startedAt + 1000 * limits.seconds := by omega
    have htime : startedAt + min (delay + body.delay) (1000 * limits.seconds) =
        s.clock + body.delay := by omega
    rw [htime] at hallow ⊢
    simp only [wakening_of_event hevent hallow, run_bind, run_set, if_pos hintime]
    cases body.octets with
    | some octets => rfl
    | none => rfl
  · have hlimit : ∀ time, some (s.clock + body.delay) = some time →
        startedAt + 1000 * limits.seconds ≤ time := by
      rintro _ ⟨⟩
      omega
    have htime : min (delay + body.delay) (1000 * limits.seconds) = 1000 * limits.seconds := by
      omega
    rw [htime] at hallow ⊢
    simp only [wakening_of_limit hlimit hallow, run_bind, run_set, if_neg hintime]
    rfl

theorem accept_refused (resource : Resource) {startedAt : Nat}
    (hclock : s.clock = startedAt + delay) (hdelay : delay < 1000 * limits.seconds)
    (hallow : limits.Allow (startedAt + Reply.millis limits.seconds (.answer delay answer)))
    (hstatus : answer.isSuccess = false) :
    (accept limits resource startedAt (.ok answer) : Talk σ _).run.run s =
      (.error (.refused answer.status
          (refusalText ((answer.body.text? (1000 * limits.seconds - delay)).getD ""))),
      { s with
        clock := startedAt + Reply.millis limits.seconds (.answer delay answer)
        tally := s.tally.add (.requests resource false) 1 }) := by
  unfold accept
  simp only [run_bind, run_count, hstatus, Bool.false_eq_true, if_false]
  rw [readBody_text (s := { s with tally := s.tally.add (.requests resource false) 1 }) hclock
    hdelay hallow]
  cases answer.body.text? (1000 * limits.seconds - delay) with
  | none => rfl
  | some text => rfl

theorem accept_success (resource : Resource) (startedAt : Nat)
    (hstatus : answer.isSuccess = true) :
    (accept limits resource startedAt (.ok answer) : Talk σ _).run.run s =
      (.ok answer, { s with tally := s.tally.add (.requests resource true) 1 }) := by
  unfold accept
  simp only [run_bind, run_count, hstatus, if_true]
  rfl

/-- What is read of an answer that says that the request was carried out. -/
theorem receive_success (resource : Resource) (reader : Json.Reader α) {startedAt : Nat}
    (hclock : s.clock = startedAt + delay) (hdelay : delay < 1000 * limits.seconds)
    (hallow : limits.Allow (startedAt + Reply.millis limits.seconds (.answer delay answer)))
    (hstatus : answer.isSuccess = true) :
    (accept limits resource startedAt (.ok answer) >>= fun answer =>
        decode reader limits startedAt answer : Talk σ α).run.run s =
      (match answer.body.text? (1000 * limits.seconds - delay) with
        | some text => (reader.parse text).mapError (.badJson · text)
        | none => .error (.transport .bodyBroken),
      { s with
        clock := startedAt + Reply.millis limits.seconds (.answer delay answer)
        tally := s.tally.add (.requests resource true) 1 }) := by
  rw [run_bind, accept_success resource startedAt hstatus]
  unfold decode requireBody
  simp only [run_bind]
  rw [readBody_text (s := { s with tally := s.tally.add (.requests resource true) 1 }) hclock
    hdelay hallow]
  cases answer.body.text? (1000 * limits.seconds - delay) with
  | none => rfl
  | some text =>
    simp only [run_pure]
    cases reader.parse text with
    | error fault => rfl
    | ok a => rfl

/-- A call that nothing cuts short comes to what it has to come to, in one attempt. -/
theorem request_comesTo (call : Call) (resource : Resource) (reader : Json.Reader α)
    {result : Except Fault α} {ending : Ending}
    (h : ({ call with counted := some resource } : Call).ComesTo node limits.seconds reader s.node
      result ending after)
    (htime : ({ call with counted := some resource } : Call).InTime node limits s.node s.clock
      millis) :
    ∃ s', (request node limits resource reader call).run.run s = (result, s') ∧
      s'.node = after ∧ s'.clock = s.clock + millis ∧
      s'.attempts =
        ({ call with counted := some resource } : Call).attempt s.clock ending :: s.attempts := by
  unfold request
  rw [run_bind, run_get]
  simp only
  rw [run_bind]
  cases h with
  | unanswered h =>
    rw [send_unanswered h htime]
    exact ⟨_, rfl, rfl, rfl, rfl⟩
  | refused h hstatus =>
    obtain ⟨rfl, hallow⟩ := h.inTime_millis htime
    rw [send_answered h (hallow.mono h.head_le)]
    simp only [run_bind]
    rw [accept_refused resource (by rfl) h.inTime hallow hstatus]
    exact ⟨_, rfl, rfl, rfl, rfl⟩
  | cutOff h hstatus hbody =>
    obtain ⟨rfl, hallow⟩ := h.inTime_millis htime
    rw [send_answered h (hallow.mono h.head_le)]
    simp only
    rw [receive_success resource reader (by rfl) h.inTime hallow hstatus, hbody]
    exact ⟨_, rfl, rfl, rfl, rfl⟩
  | unreadable h hstatus hbody hread =>
    obtain ⟨rfl, hallow⟩ := h.inTime_millis htime
    rw [send_answered h (hallow.mono h.head_le)]
    simp only
    rw [receive_success resource reader (by rfl) h.inTime hallow hstatus, hbody]
    simp only [hread]
    exact ⟨_, rfl, rfl, rfl, rfl⟩
  | read h hstatus hbody hread =>
    obtain ⟨rfl, hallow⟩ := h.inTime_millis htime
    rw [send_answered h (hallow.mono h.head_le)]
    simp only
    rw [receive_success resource reader (by rfl) h.inTime hallow hstatus, hbody]
    simp only [hread]
    exact ⟨_, rfl, rfl, rfl, rfl⟩

/-- A request without a deadline is one attempt, and what becomes of it is one of the things that a
call can come to. -/
theorem request_makes (s : Session σ) (node : Node σ) (call : Call)
    (hdeadline : limits.deadline = none) (resource : Resource) (reader : Json.Reader α) :
    ∃ result s', (request node limits resource reader call).run.run s = (result, s') ∧
      ({ call with counted := some resource } : Call).Makes node limits.seconds reader s result
        s' := by
  obtain ⟨result, ending, after, hcomes⟩ := Call.exists_comesTo node limits.seconds
    { call with counted := some resource } s.node reader
  obtain ⟨millis, htime⟩ := Call.exists_inTime node
    { call with counted := some resource } s.node hdeadline s.clock
  obtain ⟨s', hrun, rfl, -, hattempts⟩ :=
    request_comesTo call resource reader hcomes htime
  exact ⟨result, s', hrun, ending, hcomes, hattempts⟩

end Exchange

end Talk

/-! ## Requests in a row -/

namespace Session

/-- Whether a session later has attempts at getting these addresses, one after the other, and no
others more than before. -/
def Visits (s : Session σ) (urls : List String) (s' : Session σ) : Prop :=
  ∃ attempts : List Attempt, s'.attempts = attempts.reverse ++ s.attempts ∧
    attempts.map (fun a => (a.method, a.url)) = urls.map fun url => (Method.get, url)

variable {s s₁ s' : Session σ} {urls more : List String} {url : String}

theorem Visits.of_attempts (h : s'.attempts = s.attempts) : s.Visits [] s' := ⟨[], h, rfl⟩

theorem Visits.trans (h : s.Visits urls s₁) (h' : s₁.Visits more s') :
    s.Visits (urls ++ more) s' := by
  obtain ⟨attempts, hattempts, hurls⟩ := h
  obtain ⟨attempts', hattempts', hmore⟩ := h'
  refine ⟨attempts ++ attempts', ?_, ?_⟩
  · rw [hattempts', hattempts, List.reverse_append, List.append_assoc]
  · rw [List.map_append, List.map_append, hurls, hmore]

theorem Visits.of_attempt {call : Call} {startedAt : Nat} {ending : Ending}
    (h : s'.attempts = call.attempt startedAt ending :: s.attempts) (hmethod : call.method = .get)
    (hurl : call.url = url) : s.Visits [url] s' :=
  ⟨[call.attempt startedAt ending], h, by simp [Call.attempt, hmethod, hurl]⟩

theorem Visits.urls_eq (h : s.Visits urls s') (hs : s.attempts = []) :
    s'.attempts.reverse.map (·.url) = urls := by
  obtain ⟨attempts, hattempts, hurls⟩ := h
  rw [hattempts, hs, List.append_nil, List.reverse_reverse]
  simpa [Function.comp_def] using congrArg (List.map Prod.snd) hurls

end Session

/-! ## Requests to this machine -/

section Local

variable {node : Node σ} {call : Call} {seconds port status : Nat} {before after : σ}
  {path : List Char} {query : Option (List Char)} {octets : Bytes}

/-- A request to a plain address of this machine that is answered at once is answered in time. -/
theorem Call.answered_local (hport : port < 65536) (hpath : Url.IsPlainPath path)
    (hquery : ∀ cs, query = some cs → ∀ c ∈ cs, Url.IsPlain c)
    (hlength : path.length + (Url.tail query).length ≤ 65000)
    (hurl : call.url.toList = (Url.localBase port).toList ++ (path ++ Url.tail query))
    (hseconds : 0 < seconds) (hreachable : node.reachable before (.ofLocal port path query) = true)
    (hreply : node.reply before (call.request (.ofLocal port path query)) =
      (.answer 0 (Talk.promptAnswer status octets), after)) :
    call.Answered node seconds before 0 (Talk.promptAnswer status octets) after := by
  have hgoes : call.GoesOut node seconds before (.ofLocal port path query) :=
    ⟨Url.parse_local hport hpath hquery hurl, Url.isSendable_ofLocal hport hlength,
      Nat.ne_of_gt hseconds, hreachable⟩
  exact ⟨⟨_, hgoes, hreply⟩, Nat.mul_pos (by decide) hseconds⟩

theorem Talk.text?_promptAnswer (hseconds : 0 < seconds) :
    (Talk.promptAnswer status octets).body.text? (1000 * seconds - 0) =
      some (Bytes.lenientText octets) := by
  simp [Body.text?, Talk.promptAnswer, hseconds]

/-- A request to a plain address of this machine that is carried out at once succeeds, if what is
answered can be read. -/
theorem Call.succeeds_local {reader : Json.Reader α} {a : α} (hport : port < 65536)
    (hpath : Url.IsPlainPath path) (hquery : ∀ cs, query = some cs → ∀ c ∈ cs, Url.IsPlain c)
    (hlength : path.length + (Url.tail query).length ≤ 65000)
    (hurl : call.url.toList = (Url.localBase port).toList ++ (path ++ Url.tail query))
    (hseconds : 0 < seconds) (hreachable : node.reachable before (.ofLocal port path query) = true)
    (hreply : node.reply before (call.request (.ofLocal port path query)) =
      (.answer 0 (Talk.promptAnswer status octets), after))
    (hstatus : 200 ≤ status ∧ status < 300)
    (hread : reader.parse (Bytes.lenientText octets) = .ok a) :
    call.Succeeds node seconds reader before a after := by
  refine ⟨0, Talk.promptAnswer status octets, _,
    answered_local hport hpath hquery hlength hurl hseconds hreachable hreply, ?_,
    Talk.text?_promptAnswer hseconds, hread⟩
  simp [Answer.isSuccess, Talk.promptAnswer, hstatus]

end Local

/-- A node that gives the replies of a list, one after the other, whatever it is asked. -/
def Node.scripted : Node (List Reply) where
  reply replies _ := (replies.headD .silence, replies.tail)

end CertRegistry.Rest
