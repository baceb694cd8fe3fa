import CertRegistry.Proofs.Node.Agents

/-!
# What requests do to the state of a node

No request spoils the state: an agent gets in with a transaction that is applied, and nothing else
changes what is stored. So any number of requests, whatever octets they carry, leaves every stored
agent where it was put.
-/

namespace CertRegistry.Ledger

open Wire

/-- The agents in what is stored under an address; what cannot be read counts as none. -/
def agentsIn (data : Bytes) : List Agent :=
  ((AgentContainer.schema.decode data).toOption.getD {}).entries

/-- All agents, in the order of the addresses. -/
def agents (state : List (String × Bytes)) : List Agent :=
  state.flatMap fun entry => agentsIn entry.2

/-- The ledger after requests, one after the other. -/
def serve (ledger : Ledger) (requests : List Rest.Request) : Ledger :=
  requests.foldl (fun ledger request => (ledger.handle request).2) ledger

namespace Sound

variable {state : List (String × Bytes)}

theorem agentsIn_of_mem (hs : Sound state) {entry : String × Bytes} (h : entry ∈ state) :
    agentsIn entry.2 = agentsAt state entry.1 := by
  simp [agentsIn, hs.decode_of_mem h, Except.toOption]

/-- An agent with some key can only be in one entry, and there only once. -/
theorem nodup_agents (hs : Sound state) : ((agents state).map (·.publicKey)).Nodup := by
  rw [agents, List.map_flatMap, List.nodup_flatMap]
  constructor
  · intro entry hentry
    rw [hs.agentsIn_of_mem hentry]
    exact (hs.agentsAt_of_mem hentry).1.distinct
  · refine List.Pairwise.imp_of_mem ?_ hs.ordered
    intro e e' he he' hlt key hkey hkey'
    obtain ⟨agent, hagent, rfl⟩ := List.mem_map.mp hkey
    obtain ⟨agent', hagent', heq⟩ := List.mem_map.mp hkey'
    rw [hs.agentsIn_of_mem he] at hagent
    rw [hs.agentsIn_of_mem he'] at hagent'
    have haddress := (hs.agentsAt_of_mem he).1.addressed _ hagent
    have haddress' := (hs.agentsAt_of_mem he').1.addressed _ hagent'
    rw [heq, haddress] at haddress'
    rw [haddress'] at hlt
    exact String.lt_irrefl _ hlt

theorem mem_agents (hs : Sound state) {agent : Agent} :
    agent ∈ agents state ↔ agent ∈ agentsAt state (Address.ofAgent agent.publicKey) := by
  rw [agents, List.mem_flatMap]
  constructor
  · rintro ⟨entry, hentry, hagent⟩
    rw [hs.agentsIn_of_mem hentry] at hagent
    rwa [(hs.agentsAt_of_mem hentry).1.addressed _ hagent]
  · intro hagent
    cases hlookup : state.lookup (Address.ofAgent agent.publicKey) with
    | none =>
      simp [agentsAt, hlookup] at hagent
    | some data =>
      have hentry := hs.ordered.lookup_eq_some_iff.mp hlookup
      exact ⟨_, hentry, by rwa [hs.agentsIn_of_mem hentry]⟩

end Sound

/-! ## Transactions -/

/-- When a transaction is applied: its header and its payload can be read, there is a name in it,
and the key of its signer is not taken. -/
theorem apply_eq_ok {state state' : List (String × Bytes)} {t : Transaction} :
    apply state t = .ok state' ↔ ∃ header name timestamp,
      TransactionHeader.schema.decode t.header = .ok header ∧
      Action.decode t.payload = .ok (.createAgent (some name) timestamp) ∧
      addAgent state { publicKey := header.signerPublicKey, name, timestamp } = .ok state' := by
  constructor
  · intro h
    unfold apply at h
    split at h
    · cases h
    · next header hheader =>
      split at h
      · cases h
      · cases h
      · next name timestamp hpayload => exact ⟨header, name, timestamp, hheader, hpayload, h⟩
  · rintro ⟨header, name, timestamp, hheader, hpayload, h⟩
    simpa [apply, hheader, hpayload] using h

theorem length_put_agent_lt {key name : String} {timestamp : UInt64}
    (h : (Bytes.ofText key).length + (Bytes.ofText name).length < 0x8000000000000000) :
    (Agent.schema.codec.put { publicKey := key, name, timestamp }).length < UInt64.size := by
  have hsize : UInt64.size = 18446744073709551616 := rfl
  have hkey := Codec.length_put_text_le (v := key) (by omega)
  have hname := Codec.length_put_text_le (v := name) (by omega)
  have htimestamp : (Codec.uint64.put timestamp).length ≤ 10 :=
    length_putVarint_le timestamp.toNat_lt
  have hlength : (Agent.schema.encode { publicKey := key, name, timestamp }).length ≤
      80 + (Bytes.ofText key).length + (Bytes.ofText name).length := by
    simp only [Schema.encode, Agent.schema, List.flatMap_cons, List.flatMap_nil, List.append_nil,
      List.length_append]
    refine Nat.le_trans (Nat.add_le_add (Field.length_put_single_le (by decide) hkey) <|
      Nat.add_le_add (Field.length_put_single_le (by decide) hname) <|
      Nat.add_le_add (Field.length_put_single_le (by decide)
        (show (Codec.text.put "").length ≤ 1 by decide +kernel)) <|
      Field.length_put_single_le (by decide) htimestamp) ?_
    omega
  have := Schema.length_put_codec_le (S := Agent.schema)
    (m := { publicKey := key, name, timestamp }) (by omega)
  omega

/-- The agent that a transaction brings along has a name, and its octets can be counted. -/
theorem agent_of_decode {t : Transaction} (ht : Bytes.Storable (t.header ++ t.payload))
    {header : TransactionHeader} {name : String} {timestamp : UInt64}
    (hheader : TransactionHeader.schema.decode t.header = .ok header)
    (hpayload : Action.decode t.payload = .ok (.createAgent (some name) timestamp)) :
    name ≠ "" ∧ (Agent.schema.codec.put
      { publicKey := header.signerPublicKey, name, timestamp }).length < UInt64.size := by
  have hkey := TransactionHeader.length_key_le_of_decode hheader
  obtain ⟨hname, hlength⟩ := Action.name_of_decode hpayload
  refine ⟨hname, length_put_agent_lt ?_⟩
  rw [Bytes.Storable, List.length_append] at ht
  omega

theorem Sound.apply {state state' : List (String × Bytes)} {t : Transaction} (hs : Sound state)
    (ht : Bytes.Storable (t.header ++ t.payload)) (h : apply state t = .ok state') :
    Sound state' ∧ Grows state state' := by
  obtain ⟨header, name, timestamp, hheader, hpayload, hadd⟩ := apply_eq_ok.mp h
  obtain ⟨hname, hsize⟩ := agent_of_decode ht hheader hpayload
  exact ⟨hs.addAgent hname hsize hadd, grows_addAgent hs hname hsize hadd⟩

/-! ## Batches and requests -/

theorem Sound.applyAll {transactions : List Transaction}
    (ht : ∀ t ∈ transactions, Bytes.Storable (t.header ++ t.payload))
    {state : List (String × Bytes)} (hs : Sound state) :
    Sound (applyAll state transactions).1 ∧ Grows state (applyAll state transactions).1 := by
  induction transactions generalizing state with
  | nil => exact ⟨hs, Grows.refl state⟩
  | cons t rest ih =>
    unfold Ledger.applyAll
    split
    · next state' h =>
      obtain ⟨hs', hgrows⟩ := hs.apply (ht t List.mem_cons_self) h
      obtain ⟨hend, hgrows'⟩ := ih (fun t h => ht t (List.mem_cons_of_mem _ h)) hs'
      exact ⟨hend, hgrows.trans hgrows'⟩
    · -- What was applied before stays, and what comes after is not tried.
      exact ⟨hs, Grows.refl state⟩

theorem state_submit (ledger : Ledger) (batch : Batch) :
    (ledger.submit batch).state = (applyAll ledger.state batch.transactions).1 := rfl

section Submit

variable {ledger : Ledger} {batch : Batch} {t : Transaction}

/-- A batch of one transaction that is applied. -/
theorem submit_of_apply_eq_ok {state' : List (String × Bytes)} (ht : batch.transactions = [t])
    (h : apply ledger.state t = .ok state') :
    (ledger.submit batch).state = state' ∧
      (ledger.submit batch).statusOf batch.headerSignature =
        { id := batch.headerSignature, status := .committed } := by
  simp [submit, statusOf, ht, applyAll, h]

/-- A batch of one transaction that is not applied. -/
theorem submit_of_apply_eq_error {objection : Objection} (ht : batch.transactions = [t])
    (h : apply ledger.state t = .error objection) :
    (ledger.submit batch).state = ledger.state ∧
      (ledger.submit batch).statusOf batch.headerSignature =
        { id := batch.headerSignature, status := .invalid
          invalidTransactions := [{ id := t.headerSignature, message := objection.message
                                    extendedData := some "" }] } := by
  simp [submit, statusOf, ht, applyAll, h]

theorem id_statusOf (ledger : Ledger) (id : String) : (ledger.statusOf id).id = id := by
  unfold statusOf
  cases h : ledger.statuses.find? (·.id = id) with
  | none => rfl
  | some status => simpa using List.find?_some h

/-- A batch has no part in what is known about others. -/
theorem statusOf_submit_of_ne {id : String} (h : batch.headerSignature ≠ id) :
    (ledger.submit batch).statusOf id = ledger.statusOf id := by
  unfold submit statusOf
  rcases applyAll ledger.state batch.transactions with ⟨state, failed⟩
  cases failed with
  | none => simp [h]
  | some objection => simp [h]

end Submit

theorem Sound.submitAll {batches : List Batch}
    (ht : ∀ b ∈ batches, ∀ t ∈ b.transactions, Bytes.Storable (t.header ++ t.payload))
    {ledger : Ledger} (hs : Sound ledger.state) :
    Sound (batches.foldl submit ledger).state ∧
      Grows ledger.state (batches.foldl submit ledger).state := by
  induction batches generalizing ledger with
  | nil => exact ⟨hs, Grows.refl _⟩
  | cons b rest ih =>
    obtain ⟨hs', hgrows⟩ := hs.applyAll (ht b List.mem_cons_self)
    rw [← state_submit] at hs' hgrows
    obtain ⟨hend, hgrows'⟩ := ih (fun b h => ht b (List.mem_cons_of_mem _ h)) hs'
    exact ⟨hend, hgrows.trans hgrows'⟩

/-- The batches that a request brings. -/
def brought (request : Rest.Request) : List Batch :=
  if request.method = .post ∧ String.ofList request.url.path = "/batches" then
    ((BatchList.schema.decode request.body).toOption.getD {}).batches
  else []

section Requests

variable {request : Rest.Request} {requests : List Rest.Request}

/-- A request leaves the ledger as it is but for the batches that it brings. -/
theorem handle_eq_submit (ledger : Ledger) (request : Rest.Request) :
    (ledger.handle request).2 = (brought request).foldl submit ledger := by
  unfold handle brought
  simp only
  split
  · next hmethod hpath => simp [hmethod]
  · next hmethod hpath =>
    rw [if_pos ⟨hmethod, hpath⟩, takeBatches]
    cases BatchList.schema.decode request.body <;> rfl
  · next hmethod hpath => simp [hmethod]
  · next hmethod hpath => simp [hmethod]
  · next hmethod _ _ _ =>
    rw [if_neg (by simp [hmethod])]
    split <;> rfl
  · next _ _ hpost _ _ =>
    rw [if_neg fun h => hpost h.1 h.2]
    rfl

theorem serve_append (ledger : Ledger) (requests later : List Rest.Request) :
    ledger.serve (requests ++ later) = (ledger.serve requests).serve later :=
  List.foldl_append

theorem serve_eq_submit (ledger : Ledger) (requests : List Rest.Request) :
    ledger.serve requests = (requests.flatMap brought).foldl submit ledger := by
  induction requests generalizing ledger with
  | nil => rfl
  | cons request rest ih =>
    rw [List.flatMap_cons, List.foldl_append, ← handle_eq_submit]
    exact ih _

theorem storable_of_brought (hbody : request.body.Storable) {batch : Batch}
    (hbatch : batch ∈ brought request) :
    ∀ t ∈ batch.transactions, Bytes.Storable (t.header ++ t.payload) := by
  intro t ht
  unfold brought at hbatch
  split at hbatch
  · cases hdecode : BatchList.schema.decode request.body with
    | error fault =>
      rw [hdecode] at hbatch
      cases hbatch
    | ok list =>
      rw [hdecode] at hbatch
      have hweight := Transaction.weight_le_of_decode hdecode hbatch ht
      rw [Bytes.Storable] at hbody ⊢
      rw [List.length_append]
      omega
  · cases hbatch

theorem storable_of_flatMap_brought (hbody : ∀ r ∈ requests, r.body.Storable) {batch : Batch}
    (hbatch : batch ∈ requests.flatMap brought) :
    ∀ t ∈ batch.transactions, Bytes.Storable (t.header ++ t.payload) := by
  obtain ⟨request, hrequest, hmem⟩ := List.mem_flatMap.mp hbatch
  exact storable_of_brought (hbody request hrequest) hmem

theorem Sound.serve (hbody : ∀ r ∈ requests, r.body.Storable) {ledger : Ledger}
    (hs : Sound ledger.state) :
    Sound (ledger.serve requests).state ∧ Grows ledger.state (ledger.serve requests).state := by
  rw [serve_eq_submit]
  exact hs.submitAll fun b => storable_of_flatMap_brought hbody

theorem sound_serve (hbody : ∀ r ∈ requests, r.body.Storable) :
    Sound (serve {} requests).state :=
  (sound_nil.serve hbody).1

end Requests

/-- Whatever is sent to a node that starts empty, what it stores are agents with names, each under
the address of its key and no key twice, and later requests only add others behind them. -/
theorem stored_agents_stay (requests later : List Rest.Request)
    (hbody : ∀ r ∈ requests ++ later, r.body.Storable) :
    (∀ entry ∈ (serve {} requests).state, ∃ container,
      AgentContainer.schema.decode entry.2 = .ok container ∧ container.entries ≠ [] ∧
      ∀ agent ∈ container.entries,
        Address.ofAgent agent.publicKey = entry.1 ∧ agent.name ≠ "") ∧
    ((agents (serve {} requests).state).map (·.publicKey)).Nodup ∧
    ∀ address, agentsAt (serve {} requests).state address <+:
      agentsAt (serve {} (requests ++ later)).state address := by
  have hs : Sound (serve {} requests).state :=
    (sound_nil.serve fun r h => hbody r (List.mem_append_left _ h)).1
  refine ⟨?_, hs.nodup_agents, ?_⟩
  · intro entry hentry
    obtain ⟨hkept, -⟩ := hs.agentsAt_of_mem hentry
    exact ⟨_, hs.decode_of_mem hentry, hkept.nonempty,
      fun agent h => ⟨hkept.addressed agent h, hkept.named agent h⟩⟩
  · have happend : serve {} (requests ++ later) = (serve {} requests).serve later :=
      List.foldl_append
    rw [happend]
    exact (hs.serve fun r h => hbody r (List.mem_append_right _ h)).2

/-- A request to register the owner of a key under a name. -/
def registration (publicKey name : String) : Rest.Request where
  method := .post
  url := { scheme := "http".toList, path := "/batches".toList }
  body := BatchList.schema.encode
    { batches := [{ transactions := [
      { header := TransactionHeader.schema.encode { signerPublicKey := publicKey }
        payload := (Action.createAgent (some name) 1).encode }] }] }

/-- Whoever registers again or after someone else, the first one stays. -/
theorem stored_agents_stay_registrations :
    agents (serve {} [registration "a" "A", registration "a" "B"]).state =
      [{ publicKey := "a", name := "A", timestamp := 1 }] ∧
    ∀ address, agentsAt (serve {} [registration "a" "A", registration "a" "B"]).state address <+:
      agentsAt (serve {} ([registration "a" "A", registration "a" "B"] ++
        [registration "b" "B"])).state address :=
  ⟨by decide +kernel, (stored_agents_stay [registration "a" "A", registration "a" "B"]
    [registration "b" "B"] (by decide +kernel)).2.2⟩

end CertRegistry.Ledger
