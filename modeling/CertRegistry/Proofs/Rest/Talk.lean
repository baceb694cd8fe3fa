import CertRegistry.Rest.Client

/-!
# Conversations with a node that answers at once

With such a node a conversation takes no time, and what comes of it depends on the state of the node
alone: neither on the attempts that were made before nor on what was counted.
-/

namespace CertRegistry.Rest

variable {σ α β : Type}

/-- Whether a conversation that begins at a time succeeds with a value, whatever went before it,
takes no time, and turns one state of the node into another. -/
def Talk.Ends (talk : Talk σ α) (now : Nat) (before : σ) (a : α) (after : σ) : Prop :=
  ∀ s : Session σ, s.node = before → s.clock = now →
    ∃ s', talk.run.run s = (.ok a, s') ∧ s'.node = after ∧ s'.clock = now

/-- Whether a conversation that begins at a time fails, whatever went before it, takes no time, and
leaves the node as it was. -/
def Talk.Fails (talk : Talk σ α) (now : Nat) (before : σ) (fault : Fault) : Prop :=
  ∀ s : Session σ, s.node = before → s.clock = now →
    ∃ s', talk.run.run s = (.error fault, s') ∧ s'.node = before ∧ s'.clock = now

namespace Talk

variable {now : Nat} {before middle after : σ} {a : α} {b : β}

theorem run_bind (talk : Talk σ α) (next : α → Talk σ β) (s : Session σ) :
    (talk >>= next).run.run s = match talk.run.run s with
      | (.ok a, s') => (next a).run.run s'
      | (.error fault, s') => (.error fault, s') := by
  simp only [ExceptT.run_bind, StateT.run_bind]
  rcases h : talk.run.run s with ⟨result, s'⟩
  cases result <;> rfl

namespace Ends

theorem pure (a : α) : Ends (pure a : Talk σ α) now before a before :=
  fun s hnode hclock => ⟨s, rfl, hnode, hclock⟩

theorem bind {talk : Talk σ α} {next : α → Talk σ β} (h : talk.Ends now before a middle)
    (h' : (next a).Ends now middle b after) : (talk >>= next).Ends now before b after := by
  intro s hnode hclock
  obtain ⟨s₁, hrun, hnode₁, hclock₁⟩ := h s hnode hclock
  obtain ⟨s₂, hrun₂, hend⟩ := h' s₁ hnode₁ hclock₁
  refine ⟨s₂, ?_, hend⟩
  rw [run_bind, hrun]
  exact hrun₂

theorem get_bind {next : Session σ → Talk σ β}
    (h : ∀ s, s.node = before → s.clock = now → (next s).Ends now before b after) :
    Ends (get >>= next) now before b after :=
  fun s hnode hclock => h s hnode hclock s hnode hclock

/-- Changes of the session that the node and the clock have no part in. -/
theorem modify {change : Session σ → Session σ}
    (h : ∀ s, (change s).node = s.node ∧ (change s).clock = s.clock) :
    Ends (modify change : Talk σ Unit) now before () before := by
  intro s hnode hclock
  exact ⟨change s, rfl, (h s).1.trans hnode, (h s).2.trans hclock⟩

theorem set {s : Session σ} (hnode : s.node = after) (hclock : s.clock = now) :
    Ends (set s : Talk σ PUnit) now before () after :=
  fun _ _ _ => ⟨s, rfl, hnode, hclock⟩

theorem note (call : Call) (startedAt : Nat) (ending : Ending) :
    (note call startedAt ending).Ends now before () before :=
  modify fun _ => ⟨rfl, rfl⟩

theorem count (counter : Counter) (n : Nat) : (count counter n).Ends now before () before :=
  modify fun _ => ⟨rfl, rfl⟩

/-- Things that are only counted, one after the other. -/
theorem forIn_count (counter : α → Counter) (xs : List α) :
    Ends (forIn xs PUnit.unit fun x _ => do
      Talk.count (counter x) 1
      return ForInStep.yield PUnit.unit : Talk σ PUnit) now before () before := by
  induction xs with
  | nil => exact pure ()
  | cons x xs ih =>
    simp only [List.forIn_cons, bind_assoc]
    exact bind (count _ _) ih

/-- One conversation more after those with all the others. -/
theorem mapM_concat {f : β → Talk σ α} {xs : List β} {x : β} {as : List α}
    (h : (xs.mapM f).Ends now before as middle) (h' : (f x).Ends now middle a after) :
    ((xs ++ [x]).mapM f).Ends now before (as ++ [a]) after := by
  rw [List.mapM_append]
  refine bind h (bind ?_ (pure _))
  rw [List.mapM_cons]
  exact bind h' (bind (pure _) (pure _))

theorem ofExcept {x : Except Fault α} (h : x = .ok a) :
    Ends (ofExcept x : Talk σ α) now before a before := by
  rw [h]
  exact pure a

end Ends

namespace Fails

variable {fault : Fault}

theorem throw (fault : Fault) : Fails (throw fault : Talk σ α) now before fault :=
  fun s hnode hclock => ⟨s, rfl, hnode, hclock⟩

theorem bind {talk : Talk σ α} {next : α → Talk σ β} (h : talk.Fails now before fault) :
    (talk >>= next).Fails now before fault := by
  intro s hnode hclock
  obtain ⟨s', hrun, hend⟩ := h s hnode hclock
  refine ⟨s', ?_, hend⟩
  rw [run_bind, hrun]

theorem of_ends {talk : Talk σ α} {next : α → Talk σ β} (h : talk.Ends now before a before)
    (h' : (next a).Fails now before fault) : (talk >>= next).Fails now before fault := by
  intro s hnode hclock
  obtain ⟨s₁, hrun, hnode₁, hclock₁⟩ := h s hnode hclock
  obtain ⟨s₂, hrun₂, hend⟩ := h' s₁ hnode₁ hclock₁
  refine ⟨s₂, ?_, hend⟩
  rw [run_bind, hrun]
  exact hrun₂

theorem get_bind {next : Session σ → Talk σ β}
    (h : ∀ s, s.node = before → s.clock = now → (next s).Fails now before fault) :
    Fails (get >>= next) now before fault :=
  fun s hnode hclock => h s hnode hclock s hnode hclock

/-- What succeeds does not fail. -/
theorem not_ends {talk : Talk σ α} (h : talk.Fails now before fault) (a : α) :
    ¬ talk.Ends now before a after := by
  intro hends
  obtain ⟨s, hrun, -⟩ := h { node := before, clock := now } rfl rfl
  obtain ⟨s', hrun', -⟩ := hends { node := before, clock := now } rfl rfl
  rw [hrun] at hrun'
  cases hrun'

end Fails

/-! ## Requests -/

/-- A body that is there at once and a status. -/
def promptAnswer (status : Nat) (octets : Bytes) : Answer :=
  { status, body := { octets := some octets } }

/-- What comes at once comes before a time limit. -/
theorem wakening_event {now limit : Nat} (h : now < limit) :
    wakening limit none (some now) = (.event, now) := by
  simp [wakening, h]

section Exchange

variable {node : Node σ} {limits : Limits} {call : Call} {url : Url} {status : Nat}
  {octets : Bytes}

theorem Ends.exchange (hseconds : 0 < limits.seconds) (hdeadline : limits.deadline = none)
    (hreply : node.reply before
      { method := call.method, url := { url with credentials := [], fragment := none }
        body := call.body } = (.answer 0 (promptAnswer status octets), after)) :
    Ends (exchange node limits call url) now before (.ok (promptAnswer status octets)) after := by
  refine Ends.get_bind fun s hnode hclock => ?_
  subst hnode hclock
  simp only [hreply, promptAnswer, arrival, hdeadline, Nat.add_zero,
    wakening_event (show s.clock < s.clock + 1000 * limits.seconds by omega)]
  exact Ends.bind (Ends.set rfl rfl) (Ends.bind (Ends.note _ _ _) (Ends.pure _))

theorem Ends.send (hparse : Url.parse call.url = .ok url) (hsendable : isSendable url = true)
    (hreachable : node.reachable before url = true) (hseconds : 0 < limits.seconds)
    (hdeadline : limits.deadline = none)
    (hreply : node.reply before
      { method := call.method, url := { url with credentials := [], fragment := none }
        body := call.body } = (.answer 0 (promptAnswer status octets), after)) :
    Ends (send node limits call) now before (.ok (promptAnswer status octets)) after := by
  refine Ends.get_bind fun s hnode hclock => ?_
  simp only [hparse, hsendable, hdeadline, not_true_eq_false, if_false]
  rw [if_neg (by simp [hnode, hreachable]; omega)]
  exact Ends.exchange hseconds hdeadline hreply

theorem Ends.readBody (hseconds : 0 < limits.seconds) (hdeadline : limits.deadline = none) :
    Ends (readBody limits now { octets := some octets }) now before
      (.ok (Bytes.lenientText octets)) before := by
  refine Ends.get_bind fun s hnode hclock => ?_
  subst hnode hclock
  simp only [hdeadline, Nat.add_zero,
    wakening_event (show s.clock < s.clock + 1000 * limits.seconds by omega)]
  exact Ends.bind (Ends.set rfl rfl) (Ends.pure _)

theorem Ends.accept (hstatus : 200 ≤ status ∧ status < 300) (resource : Resource)
    (startedAt : Nat) :
    Ends (accept limits resource startedAt (.ok (promptAnswer status octets))) now before
      (promptAnswer status octets) before := by
  have hsuccess : (promptAnswer status octets).isSuccess = true := by
    simp [Answer.isSuccess, promptAnswer, hstatus]
  unfold Talk.accept
  simp only [hsuccess, if_true]
  exact Ends.bind (Ends.count _ _) (Ends.pure _)

theorem Ends.decode {reader : Json.Reader α} (hseconds : 0 < limits.seconds)
    (hdeadline : limits.deadline = none)
    (hparse : reader.parse (Bytes.lenientText octets) = .ok a) :
    Ends (decode reader limits now (promptAnswer status octets)) now before a before := by
  have hbody : (requireBody limits now (promptAnswer status octets)).Ends now before
      (Bytes.lenientText octets) before :=
    Ends.bind (Ends.readBody hseconds hdeadline) (Ends.pure _)
  refine Ends.bind hbody ?_
  simp only [hparse]
  exact Ends.pure a

/-- A request that can be sent and that the node carries out at once, with a body that the reader
understands. -/
theorem Ends.request {reader : Json.Reader α} {resource : Resource}
    (hparse : Url.parse call.url = .ok url) (hsendable : isSendable url = true)
    (hreachable : node.reachable before url = true) (hseconds : 0 < limits.seconds)
    (hdeadline : limits.deadline = none)
    (hreply : node.reply before
      { method := call.method, url := { url with credentials := [], fragment := none }
        body := call.body } = (.answer 0 (promptAnswer status octets), after))
    (hstatus : 200 ≤ status ∧ status < 300)
    (hread : reader.parse (Bytes.lenientText octets) = .ok a) :
    Ends (request node limits resource reader call) now before a after := by
  refine Ends.get_bind fun s hnode hclock => ?_
  subst hclock
  refine Ends.bind (Ends.send hparse hsendable hreachable hseconds hdeadline hreply) ?_
  exact Ends.bind (Ends.accept hstatus resource _) (Ends.decode hseconds hdeadline hread)

/-- What cannot be sent does not reach the node. -/
theorem Ends.send_of_unsendable (hparse : Url.parse call.url = .ok url)
    (hsendable : isSendable url = false) :
    Ends (Talk.send node limits call) now before (.error (.unsendable url)) before := by
  refine Ends.get_bind fun s _ _ => ?_
  simp only [hparse, hsendable, Bool.false_eq_true, not_false_eq_true, if_true]
  exact Ends.bind (Ends.note _ _ _) (Ends.pure _)

theorem Fails.accept (resource : Resource) (startedAt : Nat) (fault : TransportFault) :
    Fails (accept limits resource startedAt (.error fault)) now before (.transport fault) :=
  Fails.of_ends (Ends.count _ _) (Fails.throw _)

theorem Fails.request {reader : Json.Reader α} {resource : Resource}
    (hparse : Url.parse call.url = .ok url) (hsendable : isSendable url = false) :
    Fails (request node limits resource reader call) now before (.transport (.unsendable url)) := by
  refine Fails.get_bind fun s _ _ => ?_
  refine Fails.of_ends (Ends.send_of_unsendable hparse hsendable) ?_
  exact Fails.bind (Fails.accept _ _ _)

end Exchange

end Talk

end CertRegistry.Rest
