import CertRegistry.Proofs.Rest.Calls
import CertRegistry.Registry.Client

/-!
# The counters of a client

Whatever a client is asked to do, against whatever node, the counters say what happened: every
request that was not cut short by a deadline is counted once under its resource, and batches and
statuses are counted as answers told them.
-/

namespace CertRegistry

open Rest

namespace RegistryClient

/-- What can be asked of a client. -/
inductive Act where
  | sendBatches (batches : BatchList)
  | statuses (ids : List String) (wait : Option Nat)
  | listState (pages : Nat) (subtree : Option String)
  | readState (address : String)
  | listBlocks
  | isAvailable
  | waitForNode (endpoint : String) (tries : UInt32) (step : Duration)
  | submit (signer : Signer) (nonce : Bytes) (action : Action) (inputs outputs : List String)
  | createAgent (signer : Signer) (nonce : Bytes) (name : Option String) (timestamp : UInt64)
  | fetchAgent (pages : Nat) (publicKey : String)
  | listAgents (pages : Nat)
  | waitForCommit (batchId : String) (seconds : Nat)

variable {σ : Type} (node : Node σ) (client : RegistryClient)

namespace Act

/-- The session after the act. -/
def after (s : Session σ) : Act → Session σ
  | sendBatches batches => ((client.rest.sendBatches node batches).run.run s).2
  | statuses ids wait => ((client.rest.statuses node ids wait).run.run s).2
  | listState pages subtree => ((client.rest.listState node pages subtree).run.run s).2
  | readState address => ((client.rest.readState node address).run.run s).2
  | listBlocks => ((client.rest.listBlocks node).run.run s).2
  | isAvailable => ((client.rest.isAvailable node).run.run s).2
  | waitForNode endpoint tries step =>
    ((client.rest.waitForNode node endpoint tries step).run.run s).2
  | submit signer nonce action inputs outputs =>
    ((client.submit node signer nonce action inputs outputs).run.run s).2
  | createAgent signer nonce name timestamp =>
    ((client.createAgent node signer nonce name timestamp).run.run s).2
  | fetchAgent pages publicKey => ((client.fetchAgent node pages publicKey).run.run s).2
  | listAgents pages => ((client.listAgents node pages).run.run s).2
  | waitForCommit batchId seconds => ((client.waitForCommit node batchId seconds).run.run s).2

/-- The resource that the requests of an act with some method are for; none if they only show
whether the node is there. -/
def resource? : Act → Method → Option Resource
  | sendBatches _, _ => some .batches
  | statuses .., _ | waitForCommit .., _ => some .batchStatuses
  | listState .., _ | readState _, _ | fetchAgent .., _ | listAgents _, _ => some .state
  | listBlocks, _ => some .blocks
  | isAvailable, _ | waitForNode .., _ => none
  | submit .., .post | createAgent .., .post => some .batches
  | submit .., .get | createAgent .., .get => some .batchStatuses

/-- Whether a request of an act that ended like this was carried out. What is stored at an address
may be nothing. -/
def succeeds : Act → Ending → Bool
  | readState _, ending => ending.isSuccess || ending = .answered 404
  | _, ending => ending.isSuccess

theorem succeeds_abandoned (act : Act) : act.succeeds .abandoned = false := by
  cases act <;> rfl

/-- Whether a deadline may cut a request of an act short. -/
def HasDeadline (act : Act) : Prop := ∃ batchId seconds, act = .waitForCommit batchId seconds

end Act

/-! ## What answers tell -/

/-- What is learned when a batch is submitted and its status is asked for. -/
def submitNews (batch : Batch) (s : Session σ) : News :=
  let sent := (client.rest.sendBatches node { batches := [batch] }).run.run s
  match sent.1 with
  | .error _ => {}
  | .ok _ => News.add { submitted := 1 } (.ofStatuses ((client.rest.statuses node
      [batch.headerSignature] (some client.statusWaitSeconds)).run.run sent.2).1)

/-- What is learned from polls up to the one that fails or shows a decision. -/
def pollNews (batchId : String) (wait : Nat) (deadline : Deadline) (start : Nat) :
    Nat → Nat → Session σ → News
  | 0, _, _ => {}
  | left + 1, poll, s =>
    let answered := (client.rest.statuses node [batchId] (some wait) (some deadline)).run.run
      { s with clock := max s.clock (start + pollInterval * poll) }
    match answered.1 with
    | .error _ => {}
    | .ok told =>
      if told.find? (·.id = batchId) |>.any (!·.status.isFinal) then
        News.add { told } (pollNews batchId wait deadline start left (poll + 1) answered.2)
      else { told }

/-- What is learned from the answers to an act. -/
def Act.news (s : Session σ) : Act → News
  | sendBatches batches => .ofReceipt batches ((client.rest.sendBatches node batches).run.run s).1
  | statuses ids wait => .ofStatuses ((client.rest.statuses node ids wait).run.run s).1
  | submit signer nonce action inputs outputs =>
    client.submitNews node (client.batch signer nonce action inputs outputs) s
  | createAgent signer nonce name timestamp =>
    let address := Address.ofAgent signer.publicKeyHex
    client.submitNews node
      (client.batch signer nonce (.createAgent name timestamp) [address] [address]) s
  | waitForCommit batchId seconds =>
    let deadline : Deadline :=
      { time := s.clock + 1000 * seconds, fault := .stillPending batchId seconds }
    client.pollNews node batchId (min client.statusWaitSeconds seconds) deadline s.clock
      (1000 * seconds / pollInterval + 1) 0 s
  | _ => {}

theorem pollFrom_asks (batchId : String) (wait : Nat) (deadline : Deadline) (start left poll : Nat)
    (s : Session σ) : ∃ result s',
    (client.pollFrom node batchId wait deadline start left poll).run.run s = (result, s') ∧
      s.Asks s' .get True (some .batchStatuses) Ending.isSuccess
        (client.pollNews node batchId wait deadline start left poll s) := by
  induction left generalizing poll s with
  | zero => exact ⟨_, _, rfl, .of_eq rfl rfl⟩
  | succ left ih =>
    have hslept : s.Asks { s with clock := max s.clock (start + pollInterval * poll) } .get True
        (some .batchStatuses) Ending.isSuccess {} := .later s _
    obtain ⟨answered, s₁, hrun, hasks⟩ := Client.statuses_asks node client.rest
      { s with clock := max s.clock (start + pollInterval * poll) } [batchId] (some wait)
      (some deadline)
    have hpolled := hslept.trans (hasks.imp fun _ => trivial)
    rw [News.empty_add] at hpolled
    unfold pollFrom pollNews
    simp only [Talk.run_bind, Talk.run_sleepUntil, hrun]
    cases answered with
    | error fault => exact ⟨_, _, rfl, hpolled⟩
    | ok told =>
      simp only
      cases hfind : told.find? (·.id = batchId) with
      | none => exact ⟨_, _, rfl, hpolled⟩
      | some status =>
        simp only [Option.any_some]
        by_cases hfinal : status.status.isFinal
        · simp only [hfinal, if_true]
          exact ⟨_, _, rfl, hpolled⟩
        · simp only [hfinal, Bool.not_false, if_true]
          obtain ⟨result, s₂, hmore, hasks'⟩ := ih (poll + 1) s₁
          exact ⟨result, s₂, hmore, hpolled.trans hasks'⟩

/-! ## Acts -/

/-- What an act adds to a session: attempts that are counted as those of the act are, and what is
learned. Only where there may be a deadline does one cut attempts short. -/
structure Act.Adds (act : Act) (s s' : Session σ) (news : News) : Prop where
  exists_attempts : ∃ attempts,
    s.Adds s' (fun a => act.resource? a.method) act.succeeds attempts news ∧
      ∀ a ∈ attempts, a.ending = .abandoned → act.HasDeadline

namespace Act.Adds

variable {act : Act} {s s₁ s₂ : Session σ} {news more : News}

theorem of_asks {method : Method} {mayEnd : Prop} {resource : Option Resource}
    {succeeds : Ending → Bool} (h : s.Asks s₁ method mayEnd resource succeeds news)
    (hresource : resource = act.resource? method) (hsucceeds : succeeds = act.succeeds)
    (hend : mayEnd → act.HasDeadline) : act.Adds s s₁ news := by
  obtain ⟨attempts, hall, hadds⟩ := h
  refine ⟨attempts, hadds.congr (fun a ha => ?_) (fun a _ => ?_), fun a ha hending => ?_⟩
  · rw [(hall a ha).1, hresource]
  · rw [hsucceeds]
  · exact hend ((hall a ha).2 hending)

theorem trans (h : act.Adds s s₁ news) (h' : act.Adds s₁ s₂ more) :
    act.Adds s s₂ (news.add more) := by
  obtain ⟨attempts, hadds, hend⟩ := h
  obtain ⟨attempts', hadds', hend'⟩ := h'
  refine ⟨attempts' ++ attempts, hadds.trans hadds', fun a ha => ?_⟩
  rcases List.mem_append.mp ha with ha | ha
  · exact hend' a ha
  · exact hend a ha

end Act.Adds

theorem submit_adds (signer : Signer) (nonce : Bytes) (action : Action)
    (inputs outputs : List String) {act : Act} (hpost : act.resource? .post = some .batches)
    (hget : act.resource? .get = some .batchStatuses) (hsucceeds : act.succeeds = Ending.isSuccess)
    (s : Session σ) :
    act.Adds s ((client.submit node signer nonce action inputs outputs).run.run s).2
      (client.submitNews node (client.batch signer nonce action inputs outputs) s) := by
  obtain ⟨received, s₁, hrun, hasks⟩ := Client.sendBatches_asks node client.rest s
    { batches := [client.batch signer nonce action inputs outputs] }
  have hsent : act.Adds s s₁ _ := .of_asks hasks hpost.symm hsucceeds.symm nofun
  unfold submit submitNews
  simp only [Talk.run_bind, hrun]
  cases received with
  | error fault => exact hsent
  | ok link =>
    obtain ⟨answered, s₂, hrun', hasks'⟩ := Client.statuses_asks node client.rest s₁
      [(client.batch signer nonce action inputs outputs).headerSignature]
      (some client.statusWaitSeconds) none
    simp only [hrun']
    exact hsent.trans (.of_asks hasks' hget.symm hsucceeds.symm nofun)

/-- What one act does to the attempts and the counters. -/
theorem after_adds (act : Act) (s : Session σ) :
    act.Adds s (act.after node client s) (act.news node client s) := by
  cases act with
  | sendBatches batches =>
    obtain ⟨result, s', hrun, hasks⟩ := Client.sendBatches_asks node client.rest s batches
    simp only [Act.after, Act.news, hrun]
    exact .of_asks hasks rfl rfl nofun
  | statuses ids wait =>
    obtain ⟨result, s', hrun, hasks⟩ := Client.statuses_asks node client.rest s ids wait none
    simp only [Act.after, Act.news, hrun]
    exact .of_asks hasks rfl rfl nofun
  | listState pages subtree =>
    obtain ⟨result, s', hrun, hasks⟩ :=
      Client.statePages_asks node client.rest s pages (client.rest.stateUrl subtree)
    simp only [Act.after, Act.news, Client.listState, hrun]
    exact .of_asks hasks rfl rfl nofun
  | readState address =>
    obtain ⟨result, s', hrun, hasks⟩ := Client.readState_asks node client.rest s address
    simp only [Act.after, Act.news, hrun]
    exact .of_asks hasks rfl rfl nofun
  | listBlocks =>
    obtain ⟨result, s', hrun, hasks⟩ := Client.listBlocks_asks node client.rest s
    simp only [Act.after, Act.news, hrun]
    exact .of_asks hasks rfl rfl nofun
  | isAvailable =>
    obtain ⟨result, s', hrun, hasks⟩ := Client.isAvailable_asks node client.rest s
    simp only [Act.after, Act.news, hrun]
    exact .of_asks hasks rfl rfl nofun
  | waitForNode endpoint tries step =>
    obtain ⟨result, s', hrun, hasks⟩ :=
      Client.waitForNode_asks node client.rest s endpoint tries step
    simp only [Act.after, Act.news, hrun]
    exact .of_asks hasks rfl rfl nofun
  | submit signer nonce action inputs outputs =>
    exact submit_adds node client signer nonce action inputs outputs rfl rfl rfl s
  | createAgent signer nonce name timestamp =>
    exact submit_adds node client signer nonce _ _ _ rfl rfl rfl s
  | fetchAgent pages publicKey =>
    obtain ⟨result, s', hrun, hasks⟩ := Client.statePages_asks node client.rest s pages
      (client.rest.stateUrl (some (Address.ofAgent publicKey)))
    have hafter : (Act.fetchAgent pages publicKey).after node client s = s' := by
      unfold Act.after fetchAgent Client.listState
      simp only
      rw [Talk.run_bind_snd s _ fun entries _ => by cases agentsOf entries <;> rfl, hrun]
    rw [hafter]
    exact .of_asks hasks rfl rfl nofun
  | listAgents pages =>
    obtain ⟨result, s', hrun, hasks⟩ := Client.statePages_asks node client.rest s pages
      (client.rest.stateUrl (some (Address.typePrefix .agent)))
    have hafter : (Act.listAgents pages).after node client s = s' := by
      unfold Act.after listAgents Client.listState
      simp only
      rw [Talk.run_bind_snd s _ fun entries _ => by cases agentsOf entries <;> rfl, hrun]
    rw [hafter]
    exact .of_asks hasks rfl rfl nofun
  | waitForCommit batchId seconds =>
    obtain ⟨result, s', hrun, hasks⟩ := pollFrom_asks node client batchId
      (min client.statusWaitSeconds seconds)
      { time := s.clock + 1000 * seconds, fault := .stillPending batchId seconds } s.clock
      (1000 * seconds / pollInterval + 1) 0 s
    simp only [Act.after, Act.news, waitForCommit, Talk.run_bind, Talk.run_get, hrun]
    exact .of_asks hasks rfl rfl fun _ => ⟨batchId, seconds, rfl⟩

/-! ## Runs -/

/-- What happened while clients were asked to do things, one after the other. -/
structure History (σ : Type) where
  session : Session σ
  /-- The requests that were made, the last one first, each with the act that it was made for. -/
  requests : List (Act × Attempt) := []
  news : News := {}

namespace History

/-- One act more. Its requests are the attempts that the session did not have before. -/
def call (history : History σ) (client : RegistryClient) (act : Act) : History σ :=
  let before := history.session
  let after := act.after node client before
  { session := after
    requests := (after.attemptsSince before).map (act, ·) ++ history.requests
    news := history.news.add (act.news node client before) }

/-- What happened in calls of clients, the first one first, that found the node in some state. -/
def ofCalls (start : σ) (now : Nat) (calls : List (RegistryClient × Act)) : History σ :=
  calls.foldl (fun history entry => history.call node entry.1 entry.2)
    { session := { node := start, clock := now } }

/-- How often a request for a resource ended, well or not. -/
def ended (history : History σ) (resource : Resource) : Nat :=
  history.requests.countP fun (act, a) =>
    act.resource? a.method = some resource && a.ending ≠ .abandoned

/-- How often a request for a resource was carried out. -/
def succeeded (history : History σ) (resource : Resource) : Nat :=
  history.requests.countP fun (act, a) =>
    act.resource? a.method = some resource && act.succeeds a.ending

/-- The counters say what happened. -/
structure AddsUp (history : History σ) : Prop where
  attempts_eq : history.session.attempts = history.requests.map (·.2)
  ended_eq : ∀ resource, history.session.tally.total (.requests resource true) +
    history.session.tally.total (.requests resource false) = history.ended resource
  succeeded_eq : ∀ resource,
    history.session.tally.total (.requests resource true) = history.succeeded resource
  hasDeadline_of_abandoned : ∀ entry ∈ history.requests,
    entry.2.ending = .abandoned → entry.1.HasDeadline
  submitted_eq : history.session.tally.total .batchesSubmitted = history.news.submitted
  told_eq : ∀ kind, history.session.tally.total (.status kind) =
    history.news.told.countP (·.status = kind)

/-- How often a request for a resource ended well, or how often not. -/
def endedWith (history : History σ) (resource : Resource) (success : Bool) : Nat :=
  history.requests.countP fun entry =>
    Tally.counts (fun a => entry.1.resource? a.method) entry.1.succeeds resource success entry.2

/-- How much a counter should show. -/
def total (history : History σ) : Counter → Nat
  | .requests resource success => history.endedWith resource success
  | c => history.news.total c

/-- What every act preserves. -/
structure Agrees (history : History σ) : Prop where
  attempts_eq : history.session.attempts = history.requests.map (·.2)
  total_eq : ∀ c, history.session.tally.total c = history.total c
  hasDeadline_of_abandoned : ∀ entry ∈ history.requests,
    entry.2.ending = .abandoned → entry.1.HasDeadline

variable {history : History σ}

theorem total_call {attempts : List Attempt} (act : Act)
    (hnew : (history.call node client act).requests = attempts.map (act, ·) ++ history.requests)
    (c : Counter) : (history.call node client act).total c = history.total c +
      (Tally.ofAttempts (fun a => act.resource? a.method) act.succeeds attempts).total c +
      (act.news node client history.session).total c := by
  cases c with
  | requests resource success =>
    simp only [total, endedWith, News.total, hnew, List.countP_append, List.countP_map,
      Tally.total_ofAttempts_requests]
    exact Nat.add_comm _ _
  | batchesSubmitted =>
    rw [Tally.total_ofAttempts_of_ne (by simp), Nat.add_zero]
    exact News.total_add history.news _ .batchesSubmitted
  | status kind =>
    rw [Tally.total_ofAttempts_of_ne (by simp), Nat.add_zero]
    exact News.total_add history.news _ (.status kind)

theorem Agrees.call (h : history.Agrees) (act : Act) : (history.call node client act).Agrees := by
  obtain ⟨attempts, hadds, hdeadline⟩ := after_adds node client act history.session
  have hnew : (history.call node client act).requests =
      attempts.map (act, ·) ++ history.requests := by
    rw [← Session.attemptsSince_eq hadds.attempts_eq]
    rfl
  constructor
  · rw [hnew, List.map_append, List.map_map, ← h.attempts_eq]
    exact hadds.attempts_eq.trans (by simp [Function.comp_def])
  · intro c
    rw [total_call node client act hnew, ← h.total_eq]
    exact hadds.total_eq c
  · rw [hnew]
    intro entry hentry hending
    rcases List.mem_append.mp hentry with hentry | hentry
    · obtain ⟨a, ha, rfl⟩ := List.mem_map.mp hentry
      exact hdeadline a ha hending
    · exact h.hasDeadline_of_abandoned entry hentry hending

theorem Agrees.foldl (h : history.Agrees) (calls : List (RegistryClient × Act)) :
    (calls.foldl (fun history entry => history.call node entry.1 entry.2) history).Agrees := by
  induction calls generalizing history with
  | nil => exact h
  | cons entry calls ih => exact ih (h.call node entry.1 entry.2)

theorem agrees_ofCalls (start : σ) (now : Nat) (calls : List (RegistryClient × Act)) :
    (ofCalls node start now calls).Agrees := by
  refine Agrees.foldl node ⟨rfl, fun c => ?_, List.forall_mem_nil _⟩ calls
  cases c <;> rfl

theorem endedWith_add_endedWith (history : History σ) (resource : Resource) :
    history.endedWith resource true + history.endedWith resource false =
      history.ended resource := by
  let ends (entry : Act × Attempt) : Bool :=
    entry.1.resource? entry.2.method = some resource && entry.2.ending ≠ .abandoned
  have hwith (success : Bool) : history.endedWith resource success =
      (history.requests.filter ends).countP (fun entry =>
        entry.1.succeeds entry.2.ending = success) := by
    rw [List.countP_filter]
    refine List.countP_congr fun entry _ => ?_
    simp [Tally.counts, ends, and_comm]
  have hended : history.ended resource = (history.requests.filter ends).length :=
    List.countP_eq_length_filter
  rw [hended, hwith, hwith, List.length_eq_countP_add_countP fun entry =>
    entry.1.succeeds entry.2.ending = true]
  simp

theorem endedWith_true (history : History σ) (resource : Resource) :
    history.endedWith resource true = history.succeeded resource := by
  refine List.countP_congr fun entry _ => ?_
  have hne (h : entry.1.succeeds entry.2.ending = true) : entry.2.ending ≠ .abandoned := by
    intro hending
    rw [hending, Act.succeeds_abandoned] at h
    cases h
  simpa [Tally.counts] using fun h _ => hne h

theorem Agrees.addsUp (h : history.Agrees) : history.AddsUp where
  attempts_eq := h.attempts_eq
  ended_eq resource := by
    rw [h.total_eq, h.total_eq]
    exact history.endedWith_add_endedWith resource
  succeeded_eq resource := by
    rw [h.total_eq]
    exact history.endedWith_true resource
  hasDeadline_of_abandoned := h.hasDeadline_of_abandoned
  submitted_eq := h.total_eq _
  told_eq _ := h.total_eq _

/-- Whatever clients are asked to do, one thing after the other, and whatever the node makes of
it, the counters say what happened. -/
theorem addsUp_ofCalls (start : σ) (now : Nat) (calls : List (RegistryClient × Act)) :
    (ofCalls node start now calls).AddsUp :=
  (agrees_ofCalls node start now calls).addsUp

end History

end RegistryClient

end CertRegistry
