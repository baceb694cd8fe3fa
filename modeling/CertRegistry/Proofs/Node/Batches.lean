import CertRegistry.Proofs.Node.Answers
import CertRegistry.Proofs.Registry.Registrations

/-!
# What becomes of batches

A node applies the transactions of a batch one after the other, up to the first that breaks a rule
of the registry. If there is none, the batch is committed. Otherwise it is invalid and its status
says which transaction it was, but the agents that came before it stay: only a batch that starts
with such a transaction leaves nothing behind.
-/

namespace CertRegistry.Ledger

open Json Rest Wire

/-! ## The rules of the registry -/

/-- Whether a transaction asks for an agent to be stored. -/
structure Brings (t : Transaction) (agent : Agent) : Prop where
  header : ∃ header, TransactionHeader.schema.decode t.header = .ok header ∧
    header.signerPublicKey = agent.publicKey
  payload : Action.decode t.payload = .ok (.createAgent (some agent.name) agent.timestamp)
  organization : agent.organizationId = ""

/-- The rules that a transaction can break, each with what is said about it. -/
inductive Breaks (state : List (String × Bytes)) (t : Transaction) : Objection → Prop
  | badHeader {fault : Wire.Fault}
      (header : TransactionHeader.schema.decode t.header = .error fault) :
      Breaks state t .badHeader
  | badAction {h : TransactionHeader} {rejection : Action.Rejection}
      (header : TransactionHeader.schema.decode t.header = .ok h)
      (payload : Action.decode t.payload = .error rejection) :
      Breaks state t (.badAction rejection)
  | noName {h : TransactionHeader} {timestamp : UInt64}
      (header : TransactionHeader.schema.decode t.header = .ok h)
      (payload : Action.decode t.payload = .ok (.createAgent none timestamp)) :
      Breaks state t .noName
  | agentExists {agent other : Agent} (brings : Brings t agent) (stored : other ∈ agents state)
      (same : other.publicKey = agent.publicKey) :
      Breaks state t (.agentExists agent.publicKey)

section Rules

variable {state state' : List (String × Bytes)} {t : Transaction} {agent : Agent}

theorem apply_of_brings (h : Brings t agent) : apply state t = addAgent state agent := by
  obtain ⟨⟨header, hheader, hkey⟩, hpayload, horganization⟩ := h
  have hagent : agent = { publicKey := header.signerPublicKey, name := agent.name
                          timestamp := agent.timestamp } := by
    rw [hkey, ← horganization]
  simp only [apply, hheader, hpayload]
  rw [← hagent]

theorem brings_of_apply (h : apply state t = .ok state') :
    ∃ agent, Brings t agent ∧ addAgent state agent = .ok state' := by
  obtain ⟨header, name, timestamp, hheader, hpayload, hadd⟩ := apply_eq_ok.mp h
  exact ⟨_, ⟨⟨header, hheader, rfl⟩, hpayload, rfl⟩, hadd⟩

/-- The agent behind those under its address, if the transaction is applied. -/
theorem agentsAt_of_brings (hs : Sound state) (ht : Bytes.Storable (t.header ++ t.payload))
    (h : Brings t agent) (hadd : addAgent state agent = .ok state') (address : String) :
    agentsAt state' address = agentsAt state address ++
      [agent].filter fun agent => Address.ofAgent agent.publicKey = address := by
  obtain ⟨⟨header, hheader, hkey⟩, hpayload, horganization⟩ := h
  obtain ⟨hname, hsize⟩ := agent_of_decode ht hheader hpayload
  rw [hkey, ← horganization] at hsize
  rw [agentsAt_addAgent hs hname hsize hadd, List.filter_cons]
  by_cases haddress : address = Address.ofAgent agent.publicKey
  · simp [haddress]
  · simp [haddress, Ne.symm haddress]

theorem Sound.taken_iff (hs : Sound state) (key : String) :
    (∃ other ∈ agents state, other.publicKey = key) ↔
      ∃ other ∈ agentsAt state (Address.ofAgent key), other.publicKey = key := by
  constructor
  · rintro ⟨other, hother, rfl⟩
    exact ⟨other, hs.mem_agents.mp hother, rfl⟩
  · rintro ⟨other, hother, rfl⟩
    exact ⟨other, hs.mem_agents.mpr hother, rfl⟩

/-- A transaction is not applied exactly if it breaks a rule. -/
theorem apply_eq_error (hs : Sound state) {objection : Objection} :
    apply state t = .error objection ↔ Breaks state t objection := by
  constructor
  · intro h
    unfold apply at h
    split at h
    · next hheader =>
      cases h
      exact .badHeader hheader
    · next header hheader =>
      split at h
      · next hpayload =>
        cases h
        exact .badAction hheader hpayload
      · next hpayload =>
        cases h
        exact .noName hheader hpayload
      · next name timestamp hpayload =>
        by_cases htaken : ∃ other ∈ agents state, other.publicKey = header.signerPublicKey
        · rw [addAgent_of_taken ((hs.taken_iff _).mp htaken)] at h
          cases h
          obtain ⟨other, hother, hkey⟩ := htaken
          exact .agentExists ⟨⟨header, hheader, rfl⟩, hpayload, rfl⟩ hother hkey
        · rw [addAgent_of_free] at h
          · cases h
          · intro other hother hkey
            exact htaken ((hs.taken_iff _).mpr ⟨other, hother, hkey⟩)
  · intro h
    cases h with
    | badHeader hheader => simp only [apply, hheader]
    | badAction hheader hpayload => simp only [apply, hheader, hpayload]
    | noName hheader hpayload => simp only [apply, hheader, hpayload]
    | agentExists hbrings hother hsame =>
      rw [apply_of_brings hbrings]
      exact addAgent_of_taken ((hs.taken_iff _).mp ⟨_, hother, hsame⟩)

end Rules

/-! ## Transactions in a row -/

/-- Whether transactions are applied in a row, each with an agent that is stored behind those that
are there. -/
structure Adds (before : List (String × Bytes)) (transactions : List Transaction)
    (added : List Agent) (after : List (String × Bytes)) : Prop where
  applied : transactions.foldlM apply before = .ok after
  brought : List.Forall₂ Brings transactions added
  stored : ∀ address, agentsAt after address = agentsAt before address ++
    added.filter fun agent => Address.ofAgent agent.publicKey = address

section Rows

variable {before after : List (String × Bytes)} {transactions : List Transaction}

theorem foldlM_apply_cons {t : Transaction} : (t :: transactions).foldlM apply before = .ok after ↔
    ∃ middle, apply before t = .ok middle ∧ transactions.foldlM apply middle = .ok after := by
  rw [List.foldlM_cons, bind_eq_ok]

theorem exists_adds (hs : Sound before)
    (ht : ∀ t ∈ transactions, Bytes.Storable (t.header ++ t.payload))
    (h : transactions.foldlM apply before = .ok after) :
    ∃ added, Adds before transactions added after := by
  induction transactions generalizing before with
  | nil =>
    cases h
    exact ⟨[], rfl, .nil, fun _ => (List.append_nil _).symm⟩
  | cons t rest ih =>
    obtain ⟨middle, hfirst, hrest⟩ := foldlM_apply_cons.mp h
    have htfirst := ht t List.mem_cons_self
    obtain ⟨agent, hbrings, hadd⟩ := brings_of_apply hfirst
    obtain ⟨added, hadds⟩ := ih (hs.apply htfirst hfirst).1
      (fun t h => ht t (List.mem_cons_of_mem _ h)) hrest
    refine ⟨agent :: added, h, .cons hbrings hadds.brought, fun address => ?_⟩
    rw [hadds.stored, agentsAt_of_brings hs htfirst hbrings hadd, List.append_assoc,
      ← List.filter_append, List.singleton_append]

theorem applyAll_eq_none (h : applyAll before transactions = (after, none)) :
    transactions.foldlM apply before = .ok after := by
  induction transactions generalizing before with
  | nil =>
    cases h
    rfl
  | cons t rest ih =>
    unfold applyAll at h
    split at h
    · next middle hfirst =>
      exact foldlM_apply_cons.mpr ⟨middle, hfirst, ih h⟩
    · cases h

theorem applyAll_eq_some {t : Transaction} {objection : Objection}
    (h : applyAll before transactions = (after, some (t, objection))) :
    ∃ first rest, transactions = first ++ t :: rest ∧ first.foldlM apply before = .ok after ∧
      apply after t = .error objection := by
  induction transactions generalizing before with
  | nil => cases h
  | cons t' rest ih =>
    unfold applyAll at h
    split at h
    · next middle hfirst =>
      obtain ⟨first, rest, rfl, hrow, ht⟩ := ih h
      exact ⟨t' :: first, rest, rfl, foldlM_apply_cons.mpr ⟨middle, hfirst, hrow⟩, ht⟩
    · next hfirst =>
      cases h
      exact ⟨[], rest, rfl, rfl, hfirst⟩

/-- Nothing is changed only if there is nothing to be done. -/
theorem Adds.same_iff {added : List Agent} (h : Adds before transactions added after) :
    (∀ address, agentsAt after address = agentsAt before address) ↔ transactions = [] := by
  constructor
  · intro hsame
    cases hrow : h.brought with
    | nil => rfl
    | @cons t agent rest added _ _ =>
      have hstored := h.stored (Address.ofAgent agent.publicKey)
      rw [hsame, List.filter_cons_of_pos (by simp)] at hstored
      exact absurd hstored (by simp)
  · rintro rfl
    cases h.applied
    exact fun _ => rfl

end Rows

/-! ## Decisions -/

/-- What a node decides on a batch: what is stored after it, and the status. -/
inductive Decision (before : List (String × Bytes)) (batch : Batch) :
    List (String × Bytes) → BatchStatus → Prop
  | committed {added : List Agent} {after : List (String × Bytes)}
      (adds : Adds before batch.transactions added after) :
      Decision before batch after { id := batch.headerSignature, status := .committed }
  | invalid {first rest : List Transaction} {t : Transaction} {objection : Objection}
      {added : List Agent} {after : List (String × Bytes)}
      (split : batch.transactions = first ++ t :: rest) (adds : Adds before first added after)
      (breaks : Breaks after t objection) :
      Decision before batch after
        { id := batch.headerSignature, status := .invalid
          invalidTransactions := [
            { id := t.headerSignature, message := objection.message, extendedData := some "" }] }

/-- Whether the first transaction of a batch breaks a rule. -/
def BreaksAtOnce (state : List (String × Bytes)) (batch : Batch) : Prop :=
  ∃ t rest objection, batch.transactions = t :: rest ∧ Breaks state t objection

section Decisions

variable {ledger : Ledger} {batch : Batch} {before after : List (String × Bytes)}
  {status : BatchStatus}

theorem statusOf_submit_self (ledger : Ledger) (batch : Batch) :
    (ledger.submit batch).statusOf batch.headerSignature =
      match (applyAll ledger.state batch.transactions).2 with
      | none => { id := batch.headerSignature, status := .committed }
      | some (t, objection) =>
        { id := batch.headerSignature, status := .invalid
          invalidTransactions := [
            { id := t.headerSignature, message := objection.message
              extendedData := some "" }] } := by
  unfold submit statusOf
  rcases applyAll ledger.state batch.transactions with ⟨state, failed⟩
  cases failed with
  | none => simp
  | some failure => simp

theorem submit_decision (hs : Sound ledger.state)
    (ht : ∀ t ∈ batch.transactions, Bytes.Storable (t.header ++ t.payload)) :
    Decision ledger.state batch (ledger.submit batch).state
      ((ledger.submit batch).statusOf batch.headerSignature) := by
  rw [state_submit, statusOf_submit_self]
  rcases hall : applyAll ledger.state batch.transactions with ⟨after, failed⟩
  cases failed with
  | none =>
    obtain ⟨added, hadds⟩ := exists_adds hs ht (applyAll_eq_none hall)
    exact .committed hadds
  | some failure =>
    obtain ⟨t, objection⟩ := failure
    obtain ⟨first, rest, hsplit, hrow, hfails⟩ := applyAll_eq_some hall
    have hfirst : ∀ t ∈ first, Bytes.Storable (t.header ++ t.payload) := by
      intro t h
      exact ht t (hsplit ▸ List.mem_append_left _ h)
    obtain ⟨added, hadds⟩ := exists_adds hs hfirst hrow
    have hsound : Sound after := by
      have happlied := (hs.applyAll ht).1
      rwa [hall] at happlied
    exact .invalid hsplit hadds ((apply_eq_error hsound).mp hfails)

/-- What breaks a rule at once has nothing in front that is applied. -/
theorem Adds.eq_nil_of_breaksAtOnce (hs : Sound before) {first rest : List Transaction}
    {added : List Agent} (hsplit : batch.transactions = first ++ rest)
    (hadds : Adds before first added after) (h : BreaksAtOnce before batch) : first = [] := by
  obtain ⟨t, rest', objection, hcons, hbreaks⟩ := h
  cases first with
  | nil => rfl
  | cons t' first =>
    obtain ⟨rfl, -⟩ := List.cons.inj (hcons.symm.trans hsplit)
    obtain ⟨middle, hfirst, -⟩ := foldlM_apply_cons.mp hadds.applied
    rw [(apply_eq_error hs).mpr hbreaks] at hfirst
    cases hfirst

/-- A batch leaves nothing behind exactly if there is nothing in it or it breaks a rule at
once. -/
theorem Decision.same_iff (hs : Sound before) (h : Decision before batch after status) :
    (∀ address, agentsAt after address = agentsAt before address) ↔
      batch.transactions = [] ∨ BreaksAtOnce before batch := by
  cases h with
  | committed hadds =>
    rw [hadds.same_iff]
    refine ⟨Or.inl, ?_⟩
    rintro (hnone | hbreaks)
    · exact hnone
    · exact hadds.eq_nil_of_breaksAtOnce hs (List.append_nil _).symm hbreaks
  | @invalid first rest t objection _ _ hsplit hadds hbreaks =>
    rw [hadds.same_iff]
    constructor
    · rintro rfl
      cases hadds.applied
      exact Or.inr ⟨t, rest, objection, hsplit, hbreaks⟩
    · rintro (hnone | hbreaks)
      · rw [hsplit] at hnone
        exact absurd hnone (by simp)
      · exact hadds.eq_nil_of_breaksAtOnce hs hsplit hbreaks

end Decisions

/-! ## Requests that bring batches -/

/-- The request that brings batches. -/
def posting (url : Url) (batches : List Batch) : Request where
  method := .post
  url := url
  body := BatchList.schema.encode { batches }

theorem brought_posting {url : Url} {batches : List Batch}
    (hpath : String.ofList url.path = "/batches") (hbody : (posting url batches).body.Storable) :
    brought (posting url batches) = batches := by
  have hdecode := Schema.decode_encode_of_fits BatchList.lawful_schema (by decide)
    (Schema.fits_of_length_encode (Nat.lt_trans hbody (by decide)))
  unfold brought
  rw [if_pos ⟨rfl, hpath⟩, posting, hdecode]
  rfl

/-! ## Requests for statuses -/

/-- The batches that a request asks about. -/
def inquiry? (request : Request) : Option (List String) :=
  if request.method = .get ∧ String.ofList request.url.path = "/batch_statuses" then
    ((parameter? (request.url.query.getD []) "id").filter (· ≠ "")).map fun ids =>
      (ids.toList.splitOn ',').map String.ofList
  else none

/-- The first status of a batch that a client reads in the answer to a request. -/
def reported (ledger : Ledger) (request : Request) (id : String) : Option BatchStatus :=
  let ((status, body), _) := ledger.handle request
  if status = 200 then
    let text := Bytes.lenientText (Bytes.ofText body.compact)
    match (Envelope.shape [] (.list BatchStatus.shape.reader)).reader.parse text with
    | .ok envelope => envelope.data.find? (·.id = id)
    | .error _ => none
  else none

/-- Whether all who ask about a batch are told this status. -/
def Tells (ledger : Ledger) (id : String) (status : BatchStatus) : Prop :=
  ∀ request ids, inquiry? request = some ids → id ∈ ids → reported ledger request id = some status

section Inquiries

variable {request : Request} {ids : List String} {id : String}

theorem handle_inquiry (h : inquiry? request = some ids) (ledger : Ledger) :
    ledger.handle request =
      ((200, .record [("data", .list ((ids.map ledger.statusOf).map (·.toJson)))]), ledger) := by
  unfold inquiry? at h
  split at h
  · next hget =>
    obtain ⟨text, htext, rfl⟩ := Option.map_eq_some_iff.mp h
    unfold handle
    simp only [hget.1, hget.2, showStatuses, htext, List.map_map]
    rfl
  · cases h

theorem find?_statusOf (ledger : Ledger) (h : id ∈ ids) :
    (ids.map ledger.statusOf).find? (·.id = id) = some (ledger.statusOf id) := by
  induction ids with
  | nil => cases h
  | cons first rest ih =>
    rw [List.map_cons, List.find?_cons, id_statusOf]
    by_cases heq : first = id
    · simp [heq]
    · simp [heq, ih ((List.mem_cons.mp h).resolve_left (Ne.symm heq))]

/-- Who asks about a batch is told what was recorded last. -/
theorem reported_eq (h : inquiry? request = some ids) (hid : id ∈ ids) (ledger : Ledger) :
    reported ledger request id = some (ledger.statusOf id) := by
  have htext (members : List (String × Value)) :
      Bytes.lenientText (Bytes.ofText (Value.record members).compact) =
        (Value.record members).compact := lenientText_compact _
  unfold reported
  rw [handle_inquiry h]
  simp only [if_pos, htext, Envelope.parse_statuses]
  exact find?_statusOf ledger hid

theorem tells_statusOf (ledger : Ledger) (id : String) : Tells ledger id (ledger.statusOf id) :=
  fun _ _ h hid => reported_eq h hid ledger

/-- What is known about a batch stays while only others come. -/
theorem statusOf_submitAll_of_ne {batches : List Batch}
    (h : ∀ batch ∈ batches, batch.headerSignature ≠ id) (ledger : Ledger) :
    (batches.foldl submit ledger).statusOf id = ledger.statusOf id := by
  induction batches generalizing ledger with
  | nil => rfl
  | cons batch rest ih =>
    rw [List.foldl_cons, ih fun b hb => h b (List.mem_cons_of_mem _ hb)]
    exact statusOf_submit_of_ne (h batch List.mem_cons_self)

end Inquiries

/-! ## Lists of batches that are built from transactions -/

/-- Batches of transactions that are signed already. -/
def built (lots : List (Signer × List Transaction)) : List Batch :=
  lots.map fun lot => Batch.ofTransactions lot.1 lot.2

/-- Whatever a node was sent before, each batch of a list is decided in its turn. Its transactions
are applied in order, up to the first that breaks a rule, and the status tells which one that was.
The agents are the same after it exactly if no transaction was applied. Whoever asks for the batch
is told this status, unless another one under the same id came after it. -/
theorem batches_decided (requests : List Request) (hrequests : ∀ r ∈ requests, r.body.Storable)
    (lots : List (Signer × List Transaction)) (url : Url)
    (hpath : String.ofList url.path = "/batches")
    (hbody : (posting url (built lots)).body.Storable) {first rest : List Batch} {batch : Batch}
    (hsplit : built lots = first ++ batch :: rest) :
    ∃ before after status,
      before = first.foldl submit (serve {} requests) ∧ after = before.submit batch ∧
      serve {} (requests ++ [posting url (built lots)]) = rest.foldl submit after ∧
      Decision before.state batch after.state status ∧
      ((∀ address, agentsAt after.state address = agentsAt before.state address) ↔
        batch.transactions = [] ∨ BreaksAtOnce before.state batch) ∧
      ((∀ later ∈ rest, later.headerSignature ≠ batch.headerSignature) →
        Tells (serve {} (requests ++ [posting url (built lots)])) batch.headerSignature
          status) := by
  have hbrought := brought_posting hpath hbody
  have hstorable : ∀ b ∈ built lots,
      ∀ t ∈ b.transactions, Bytes.Storable (t.header ++ t.payload) :=
    fun b hb => storable_of_brought hbody (hbrought.symm ▸ hb)
  have hend : serve {} (requests ++ [posting url (built lots)]) =
      rest.foldl submit ((first.foldl submit (serve {} requests)).submit batch) := by
    rw [serve_append, serve_eq_submit _ [_], List.flatMap_singleton, hbrought, hsplit,
      List.foldl_append, List.foldl_cons]
  have hsound : Sound (first.foldl submit (serve {} requests)).state := by
    refine (Sound.submitAll (fun b hb => ?_) (sound_serve hrequests)).1
    exact hstorable b (hsplit ▸ List.mem_append_left _ hb)
  have hdecision := submit_decision hsound
    (hstorable batch (hsplit ▸ List.mem_append_right _ List.mem_cons_self))
  refine ⟨_, _, _, rfl, rfl, hend, hdecision, hdecision.same_iff hsound, ?_⟩
  intro hothers
  rw [hend, ← statusOf_submitAll_of_ne hothers]
  exact tells_statusOf _ _

/-- Someone registers twice in a batch. -/
def twice : List Transaction :=
  ["Ada", "Eve"].map fun name =>
    (Registration.sample (some name)).transaction RegistryClient.sample.family

def batchesUrl : Url where
  scheme := "http".toList
  path := "/batches".toList

theorem length_of_mem_twice {t : Transaction} (ht : t ∈ twice) :
    (Transaction.schema.encode t).length ≤ 1900 := by
  obtain ⟨name, hname, rfl⟩ := List.mem_map.mp ht
  have hsmall : ∀ name ∈ ["Ada", "Eve"], RegistryClient.sample.family.size +
      (Registration.sample (some name)).order.payload.length ≤ 1000 := by decide +kernel
  have hlength := Registration.length_transaction_le
    (show (Registration.sample (some name)).nonce.length = 16 from rfl)
    (Nat.lt_of_le_of_lt (hsmall name hname) (by decide))
  rw [Nat.add_assoc] at hlength
  exact Nat.le_trans hlength (Nat.add_le_add_left (hsmall name hname) 900)

theorem storable_posting_twice :
    (posting batchesUrl (built [(.least, twice)])).body.Storable := by
  have hids : ∀ t ∈ twice, (Bytes.ofText t.headerSignature).length = 128 := by
    intro t ht
    obtain ⟨name, -, rfl⟩ := List.mem_map.mp ht
    exact Signer.length_sign _ _
  have hbatch := Batch.length_ofTransactions_le .least hids (fun t => length_of_mem_twice)
    (show 300 + 2 * (200 + 1900) < _ by decide)
  have hlist := BatchList.length_encode_singleton_le (Nat.lt_of_le_of_lt hbatch (by decide))
  exact Nat.lt_of_le_of_lt (Nat.le_trans hlist (Nat.add_le_add_left hbatch 20)) (by decide)

theorem batches_decided_twice : ∃ before after status,
    before = serve {} [registration "b" "B"] ∧
    after = before.submit (Batch.ofTransactions .least twice) ∧
    serve {} ([registration "b" "B"] ++ [posting batchesUrl (built [(.least, twice)])]) = after ∧
    Decision before.state (Batch.ofTransactions .least twice) after.state status := by
  obtain ⟨before, after, status, hbefore, hafter, hserve, hdecision, -, -⟩ :=
    batches_decided [registration "b" "B"] (by decide +kernel) [(.least, twice)] batchesUrl rfl
      storable_posting_twice (List.nil_append _).symm
  exact ⟨before, after, status, hbefore, hafter, hserve, hdecision⟩

/-- Of two registrations of one signer in a batch the first is applied and the second is not. -/
theorem applyAll_of_same_key {family : Family} {r r' : Registration}
    (h : (r.body family).Storable) (h' : (r'.body family).Storable) (hname : r.agent.name ≠ "")
    (hname' : r'.agent.name ≠ "") (hkey : r'.agent.publicKey = r.agent.publicKey) :
    ∃ state, applyAll [] [r.transaction family, r'.transaction family] =
        (state, some (r'.transaction family, .agentExists r'.agent.publicKey)) ∧
      agentsAt state (Address.ofAgent r.agent.publicKey) = [r.agent] := by
  have hfirst : apply [] (r.transaction family) = .ok (put (Address.ofAgent r.agent.publicKey)
      (AgentContainer.schema.encode { entries := [r.agent] }) []) := by
    rw [Registration.apply_named h hname]
    exact addAgent_of_free (List.forall_mem_nil _)
  generalize hstate : put _ _ _ = state at hfirst
  have hstored : agentsAt state (Address.ofAgent r.agent.publicKey) = [r.agent] := by
    rw [← hstate, agentsAt_put (List.forall_mem_singleton.mpr
      (Registration.length_put_agent_lt h hname)), if_pos rfl]
  have hsecond : apply state (r'.transaction family) =
      .error (.agentExists r'.agent.publicKey) := by
    rw [Registration.apply_named h' hname']
    refine addAgent_of_taken ⟨r.agent, ?_, hkey.symm⟩
    rw [hkey, hstored]
    exact List.mem_singleton_self _
  refine ⟨state, ?_, hstored⟩
  simp only [applyAll, hfirst, hsecond]

/-- A batch that is refused need not leave the agents as they were. -/
theorem refused_batch_leaves_agent :
    ((serve {} [posting batchesUrl (built [(.least, twice)])]).statusOf
      (Batch.ofTransactions .least twice).headerSignature).status = .invalid ∧
    (∀ address, agentsAt ({} : Ledger).state address = []) ∧
    agentsAt (serve {} [posting batchesUrl (built [(.least, twice)])]).state
      (Address.ofAgent (Registration.sample (some "Ada")).agent.publicKey) =
      [(Registration.sample (some "Ada")).agent] := by
  have hbody : ∀ name ∈ ["Ada", "Eve"],
      ((Registration.sample (some name)).body RegistryClient.sample.family).Storable :=
    fun name hname => Registration.storable_body rfl (by revert name; decide +kernel)
  obtain ⟨state, hall, hstored⟩ := applyAll_of_same_key (hbody "Ada" (by simp))
    (hbody "Eve" (by simp)) (by decide) (by decide) rfl
  change applyAll ({} : Ledger).state (Batch.ofTransactions .least twice).transactions = _ at hall
  rw [serve_eq_submit, List.flatMap_singleton, brought_posting rfl storable_posting_twice, built,
    List.map_singleton, List.foldl_cons, List.foldl_nil, statusOf_submit_self, state_submit, hall]
  exact ⟨rfl, fun _ => rfl, hstored⟩

end CertRegistry.Ledger
