import CertRegistry.Proofs.Rest.Exchanges

/-!
# Requests until a deadline

A deadline cuts off what a request would come to without it, and nothing else: what is known before
the deadline stays as it is, and so does what is known at once. In either case there is one attempt.
-/

namespace CertRegistry.Rest

variable {σ α : Type}

/-- What a call that begins at a time comes to before a deadline, if it comes to anything, when that
is known, and in which state this leaves the node. -/
inductive Call.ComesToBy (node : Node σ) (seconds deadline : Nat) (reader : Json.Reader α)
    (call : Call) (now : Nat) (before : σ) : Option (Except Fault α) → Nat → σ → Prop
  | unsent {fault : TransportFault} (hnever : ∀ url, ¬ call.GoesOut node seconds before url)
    (h : call.Unanswered node seconds before fault before) :
    ComesToBy node seconds deadline reader call now before (some (.error (.transport fault))) now
      before
  | overdue {url : Url} (hgoes : call.GoesOut node seconds before url) (hdue : deadline ≤ now) :
    ComesToBy node seconds deadline reader call now before none now before
  | cutShort {url : Url} {reply : Reply} {after : σ}
    (hgoes : call.GoesOut node seconds before url)
    (hreply : node.reply before (call.request url) = (reply, after)) (hnow : now < deadline)
    (hdue : deadline ≤ now + reply.millis seconds) :
    ComesToBy node seconds deadline reader call now before none deadline after
  | inTime {url : Url} {reply : Reply} {result : Except Fault α} {ending : Ending} {after : σ}
    (hgoes : call.GoesOut node seconds before url)
    (hreply : (node.reply before (call.request url)).1 = reply)
    (hearly : now + reply.millis seconds < deadline)
    (h : call.ComesTo node seconds reader before result ending after) :
    ComesToBy node seconds deadline reader call now before (some result)
      (now + reply.millis seconds) after

/-- A call that begins before the deadline is over by then, and earlier if it succeeds. -/
theorem Call.ComesToBy.time_bounds {node : Node σ} {seconds deadline : Nat} {reader : Json.Reader α}
    {call : Call} {now ended : Nat} {before after : σ} {outcome : Option (Except Fault α)}
    (h : call.ComesToBy node seconds deadline reader now before outcome ended after)
    (hnow : now ≤ deadline) :
    now ≤ ended ∧ ended ≤ deadline ∧ ∀ a, outcome = some (.ok a) → ended < deadline := by
  cases h with
  | unsent => exact ⟨Nat.le_refl _, hnow, nofun⟩
  | overdue => exact ⟨Nat.le_refl _, hnow, nofun⟩
  | cutShort => exact ⟨hnow, Nat.le_refl _, nofun⟩
  | inTime _ _ hearly => exact ⟨Nat.le_add_right _ _, Nat.le_of_lt hearly, fun _ _ => hearly⟩

/-- A call is not over before it begins. -/
theorem Call.ComesToBy.le_ended {node : Node σ} {seconds deadline : Nat} {reader : Json.Reader α}
    {call : Call} {now ended : Nat} {before after : σ} {outcome : Option (Except Fault α)}
    (h : call.ComesToBy node seconds deadline reader now before outcome ended after) :
    now ≤ ended := by
  cases h with
  | unsent => exact Nat.le_refl _
  | overdue => exact Nat.le_refl _
  | cutShort _ _ hnow => exact Nat.le_of_lt hnow
  | inTime => exact Nat.le_add_right _ _

/-- What a call fails with before a deadline is a fault of its own. -/
theorem Call.ComesToBy.ofRequest {node : Node σ} {seconds deadline : Nat} {reader : Json.Reader α}
    {call : Call} {now ended : Nat} {before after : σ} {fault : Fault}
    (h : call.ComesToBy node seconds deadline reader now before (some (.error fault)) ended after) :
    fault.OfRequest { seconds } := by
  cases h with
  | unsent => exact .transport _
  | inTime _ _ _ h =>
    cases h with
    | unanswered => exact .transport _
    | refused => exact .refused _ _
    | cutOff => exact .transport _
    | unreadable => exact .badJson _ _

/-- What does not go out leaves the node as it was. -/
theorem Call.exists_unanswered {node : Node σ} {seconds : Nat} {call : Call} {before : σ}
    (h : ∀ url, ¬ call.GoesOut node seconds before url) :
    ∃ fault, call.Unanswered node seconds before fault before := by
  rcases answered_or_unanswered node seconds call before with
    ⟨delay, answer, after, hanswered⟩ | ⟨fault, after, hunanswered⟩
  · obtain ⟨url, hgoes, -⟩ := hanswered.reply
    exact absurd hgoes (h url)
  · cases hunanswered with
    | unparsed hparse => exact ⟨_, .unparsed hparse⟩
    | unsendable hparse hsendable => exact ⟨_, .unsendable hparse hsendable⟩
    | unreached hparse hsendable hunreached => exact ⟨_, .unreached hparse hsendable hunreached⟩
    | late hgoes => exact absurd hgoes (h _)

theorem Limits.allow_of_lt {limits : Limits} {d : Deadline} {time : Nat}
    (h : limits.deadline = some d) (hlt : time < d.time) : limits.Allow time := by
  intro d' hd'
  rw [h] at hd'
  cases hd'
  exact hlt

namespace Talk

variable {s : Session σ} {node : Node σ} {limits : Limits} {call : Call} {d : Deadline}

theorem wakening_of_deadline {limit : Nat} {event : Option Nat} (hlimit : d.time ≤ limit)
    (hevent : ∀ time, event = some time → d.time ≤ time) :
    wakening limit (some d) event = (.deadline d.fault, d.time) := by
  cases event with
  | none => simp [wakening, hlimit]
  | some time =>
    by_cases h : time < limit
    · simp [wakening, h, hevent time rfl]
    · simp [wakening, h, hlimit]

section Cut

variable {url : Url} {after : σ} {delay : Nat} {answer : Answer}

theorem send_overdue (hdeadline : limits.deadline = some d)
    (hgoes : call.GoesOut node limits.seconds s.node url) (hdue : d.time ≤ s.clock) :
    (send node limits call).run.run s = (.error d.fault,
      { s with attempts := call.attempt s.clock .abandoned :: s.attempts }) := by
  have hcondition : ¬ (limits.seconds = 0 ∨ ¬ node.reachable s.node url = true) := by
    simp [hgoes.seconds, hgoes.reachable]
  unfold send
  rw [run_bind, run_get]
  simp only [hgoes.parse, hgoes.sendable, not_true_eq_false, if_false, if_neg hcondition,
    hdeadline, if_pos hdue]
  rfl

/-- No head of an answer comes before the deadline. -/
theorem exchange_cut {reply : Reply} (hdeadline : limits.deadline = some d)
    (hreply : node.reply s.node (call.request url) = (reply, after))
    (hlimit : d.time ≤ s.clock + 1000 * limits.seconds)
    (hevent : ∀ time, (arrival s.clock reply).1 = some time → d.time ≤ time) :
    (exchange node limits call url).run.run s = (.error d.fault,
      { s with
        node := after, clock := d.time
        attempts := call.attempt s.clock .abandoned :: s.attempts }) := by
  unfold exchange
  rw [Call.request] at hreply
  rw [run_bind, run_get]
  simp only [hreply, hdeadline, wakening_of_deadline hlimit hevent, run_bind, run_set]
  rfl

/-- The body does not come before the deadline. -/
theorem readBody_cut {startedAt : Nat} {body : Body} (hdeadline : limits.deadline = some d)
    (hlimit : d.time ≤ startedAt + 1000 * limits.seconds)
    (hevent : d.time ≤ s.clock + body.delay) :
    (readBody limits startedAt body : Talk σ _).run.run s =
      (.error d.fault, { s with clock := d.time }) := by
  have hbody : ∀ time, some (s.clock + body.delay) = some time → d.time ≤ time := by
    rintro _ ⟨⟩
    exact hevent
  unfold readBody
  rw [run_bind, run_get]
  simp only [hdeadline, wakening_of_deadline hlimit hbody, run_bind, run_set]
  rfl

/-- The deadline comes while an answer is read, whatever its status. -/
theorem receive_cut (resource : Resource) (reader : Json.Reader α) {startedAt : Nat}
    (hdeadline : limits.deadline = some d) (hlimit : d.time ≤ startedAt + 1000 * limits.seconds)
    (hevent : d.time ≤ s.clock + answer.body.delay) :
    (accept limits resource startedAt (.ok answer) >>= fun answer =>
        decode reader limits startedAt answer : Talk σ α).run.run s =
      (.error d.fault, { s with
        clock := d.time
        tally := s.tally.add (.requests resource answer.isSuccess) 1 }) := by
  rw [run_bind]
  cases hstatus : answer.isSuccess with
  | false =>
    unfold accept
    simp only [run_bind, run_count, hstatus, Bool.false_eq_true, if_false]
    rw [readBody_cut (s := { s with tally := s.tally.add (.requests resource false) 1 }) hdeadline
      hlimit hevent]
  | true =>
    rw [accept_success resource startedAt hstatus]
    unfold decode requireBody
    simp only [run_bind]
    rw [readBody_cut (s := { s with tally := s.tally.add (.requests resource true) 1 }) hdeadline
      hlimit hevent]

/-- The deadline comes while the node replies. -/
theorem request_cut {reply : Reply} (resource : Resource) (reader : Json.Reader α)
    (hdeadline : limits.deadline = some d)
    (hgoes : ({ call with counted := some resource } : Call).GoesOut node limits.seconds s.node url)
    (hreply : node.reply s.node (({ call with counted := some resource } : Call).request url) =
      (reply, after))
    (hnow : s.clock < d.time) (hdue : d.time ≤ s.clock + reply.millis limits.seconds) :
    ∃ s' ending,
    (request node limits resource reader call).run.run s = (.error d.fault, s') ∧
      s'.node = after ∧ s'.clock = d.time ∧
      s'.attempts =
        ({ call with counted := some resource } : Call).attempt s.clock ending :: s.attempts := by
  have hlimit : d.time ≤ s.clock + 1000 * limits.seconds := by
    refine Nat.le_trans hdue (Nat.add_le_add_left ?_ _)
    cases reply with
    | answer delay answer => exact Nat.min_le_right _ _
    | hangUp delay => exact Nat.min_le_right _ _
    | fail delay => exact Nat.min_le_right _ _
    | silence => exact Nat.le_refl _
  unfold request
  rw [run_bind, run_get]
  simp only
  rw [run_bind, send_goesOut hgoes (Limits.allow_of_lt hdeadline hnow)]
  by_cases hevent : ∀ time, (arrival s.clock reply).1 = some time → d.time ≤ time
  · rw [exchange_cut hdeadline hreply hlimit hevent]
    exact ⟨_, .abandoned, rfl, rfl, rfl, rfl⟩
  cases reply with
  | answer delay answer =>
    have hhead : s.clock + delay < d.time := by
      refine Nat.lt_of_not_le fun hle => hevent ?_
      rintro _ ⟨⟩
      exact hle
    have hbody : d.time ≤ s.clock + delay + answer.body.delay := by
      simp only [Reply.millis] at hdue
      omega
    rw [exchange_answered hreply (by omega) (Limits.allow_of_lt hdeadline hhead)]
    simp only
    rw [receive_cut resource reader hdeadline hlimit hbody]
    exact ⟨_, .answered answer.status, rfl, rfl, rfl, rfl⟩
  | hangUp delay =>
    refine absurd ?_ hevent
    rintro _ ⟨⟩
    simp only [Reply.millis] at hdue
    omega
  | fail delay fault =>
    refine absurd ?_ hevent
    rintro _ ⟨⟩
    simp only [Reply.millis] at hdue
    omega
  | silence => exact absurd (by simp [arrival]) hevent

end Cut

/-- A request with a deadline comes to what it comes to before the deadline, or else to the fault
of the deadline, in one attempt. -/
theorem request_comesToBy (s : Session σ) (node : Node σ) (call : Call)
    (hdeadline : limits.deadline = some d) (resource : Resource) (reader : Json.Reader α) :
    ∃ outcome s' ending, (request node limits resource reader call).run.run s =
        (outcome.getD (.error d.fault), s') ∧
      ({ call with counted := some resource } : Call).ComesToBy node limits.seconds d.time reader
        s.clock s.node outcome s'.clock s'.node ∧
      s'.attempts =
        ({ call with counted := some resource } : Call).attempt s.clock ending :: s.attempts := by
  by_cases hgoes : ∃ url, ({ call with counted := some resource } : Call).GoesOut node
      limits.seconds s.node url
  · obtain ⟨url, hgoes⟩ := hgoes
    rcases hreply : node.reply s.node
      (({ call with counted := some resource } : Call).request url) with ⟨reply, replied⟩
    by_cases hnow : d.time ≤ s.clock
    · unfold request
      rw [run_bind, run_get]
      simp only
      rw [run_bind, send_overdue hdeadline hgoes hnow]
      exact ⟨none, _, .abandoned, rfl, .overdue hgoes hnow, rfl⟩
    by_cases hdue : d.time ≤ s.clock + reply.millis limits.seconds
    · obtain ⟨s', ending, hrun, rfl, hclock, hattempts⟩ :=
        request_cut resource reader hdeadline hgoes hreply (Nat.lt_of_not_le hnow) hdue
      refine ⟨none, s', ending, hrun, ?_, hattempts⟩
      rw [hclock]
      exact .cutShort hgoes hreply (Nat.lt_of_not_le hnow) hdue
    · obtain ⟨result, ending, after, hcomes⟩ := Call.exists_comesTo node limits.seconds
        { call with counted := some resource } s.node reader
      obtain ⟨s', hrun, rfl, hclock, hattempts⟩ := request_comesTo call resource reader hcomes
        (.sent hgoes hreply (Limits.allow_of_lt hdeadline (Nat.lt_of_not_le hdue)))
      refine ⟨some result, s', ending, hrun, ?_, hattempts⟩
      rw [hclock]
      exact .inTime hgoes (congrArg Prod.fst hreply) (Nat.lt_of_not_le hdue) hcomes
  · have hnever : ∀ url, ¬ ({ call with counted := some resource } : Call).GoesOut node
        limits.seconds s.node url := fun url h => hgoes ⟨url, h⟩
    obtain ⟨fault, hunanswered⟩ := Call.exists_unanswered hnever
    obtain ⟨s', hrun, hnode, hclock, hattempts⟩ :=
      request_comesTo call resource reader (.unanswered hunanswered) (.unsent hnever)
    refine ⟨some _, s', .failed, hrun, ?_, hattempts⟩
    rw [hnode, hclock]
    exact .unsent hnever hunanswered

end Talk

end CertRegistry.Rest
