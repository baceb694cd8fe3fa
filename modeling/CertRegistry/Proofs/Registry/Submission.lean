import CertRegistry.Proofs.Registry.Registrations
import CertRegistry.Proofs.Rest.Accounts
import CertRegistry.Proofs.Rest.Redirects

/-!
# What a registration sends

A registration is one request with one batch and, if that is taken, one question for its status. The
client itself repeats neither and does not go on after a fault. A server may lead both of them
elsewhere, and by two of its statuses have the batch posted again, the same one each time.
-/

namespace CertRegistry

open Rest Wire

namespace Registration

variable {family : Family} {r : Registration} {body : Bytes} {batchId : String}

/-- Whether octets ask for a registration: they are a list of one batch with one transaction, which
asks for the agent and touches its address alone. -/
structure IsSentAs (family : Family) (r : Registration) (body : Bytes) (batchId : String) :
    Prop where
  exists_batch : ∃ batch transaction header,
    BatchList.schema.decode body = .ok { batches := [batch] } ∧
      batch.headerSignature = batchId ∧ batch.transactions = [transaction] ∧
      TransactionHeader.schema.decode transaction.header = .ok header ∧
      header.familyName = family.name ∧ header.familyVersion = family.version ∧
      header.inputs = [Address.ofAgent r.signer.publicKeyHex] ∧
      header.outputs = [Address.ofAgent r.signer.publicKeyHex] ∧
      Action.decode transaction.payload =
        .ok (.createAgent (r.name.filter (· ≠ "")) r.timestamp)

/-- An empty name is as good as none. -/
theorem name_filter (r : Registration) :
    (if r.agent.name = "" then none else some r.agent.name) = r.name.filter (· ≠ "") := by
  unfold agent
  cases r.name with
  | none => rfl
  | some name => by_cases h : name = "" <;> simp [Option.filter, h]

theorem isSentAs_body (h : (r.body family).Storable) :
    r.IsSentAs family (r.body family) (r.batch family).headerSignature := by
  have hbody := Schema.decode_encode_of_fits BatchList.lawful_schema (by decide)
    (fits_of_storable h)
  have hpayload := decode_payload h
  rw [name_filter] at hpayload
  exact ⟨_, r.transaction family, _, hbody, rfl, rfl, decode_header h, rfl, rfl, rfl, rfl, hpayload⟩

end Registration

namespace RegistryClient

variable {σ : Type} {node : Node σ} {client : RegistryClient} {body : Bytes} {batchId : String}
  {s s₁ s' : Session σ} {result : Except Rest.Fault (List BatchStatus)}

/-- The request that submits a list of batches. -/
def submission (client : RegistryClient) (body : Bytes) : Call where
  method := .post
  url := client.rest.base ++ "/batches"
  body := body
  counted := some .batches

/-- The request for the status of a batch, which the node may keep waiting. -/
def inquiry (client : RegistryClient) (batchId : String) : Call where
  url := client.rest.base ++ "/batch_statuses?id=" ++ batchId ++ "&wait=" ++
    toString client.statusWaitSeconds
  counted := some .batchStatuses

/-- Whether the node takes batches and tells where to ask for them. -/
def Takes (node : Node σ) (client : RegistryClient) (body : Bytes) (before : σ) : Prop :=
  ∃ receipt after, (client.submission body).Succeeds node client.rest.timeoutSeconds
    Receipt.shape.reader before receipt after

/-- Whether a submission, made once, comes to a result. -/
def Submits (node : Node σ) (client : RegistryClient) (body : Bytes) (s : Session σ)
    (result : Except Rest.Fault Receipt) (s' : Session σ) : Prop :=
  (client.submission body).Makes node client.rest.timeoutSeconds Receipt.shape.reader s result s'

/-- Whether a question for the status of a batch, asked once, comes to a result. -/
def Inquires (node : Node σ) (client : RegistryClient) (batchId : String) (s : Session σ)
    (result : Except Rest.Fault (Envelope (List BatchStatus))) (s' : Session σ) : Prop :=
  (client.inquiry batchId).Makes node (client.rest.timeoutSeconds + client.statusWaitSeconds)
    (Envelope.shape [] (.list BatchStatus.shape.reader)).reader s result s'

/-- How it goes to submit batches and to ask what became of one. -/
inductive Course (node : Node σ) (client : RegistryClient) (body : Bytes) (batchId : String)
    (s : Session σ) : Except Rest.Fault (List BatchStatus) → Session σ → Prop
  | refused {fault : Rest.Fault} {s' : Session σ}
    (post : client.Submits node body s (.error fault) s') :
    Course node client body batchId s (.error fault) s'
  | untold {receipt : Receipt} {fault : Rest.Fault} {s₁ s' : Session σ}
    (post : client.Submits node body s (.ok receipt) s₁)
    (get : client.Inquires node batchId s₁ (.error fault) s') :
    Course node client body batchId s (.error fault) s'
  | told {receipt : Receipt} {envelope : Envelope (List BatchStatus)} {s₁ s' : Session σ}
    (post : client.Submits node body s (.ok receipt) s₁)
    (get : client.Inquires node batchId s₁ (.ok envelope) s') :
    Course node client body batchId s (.ok envelope.data) s'

/-! ## Which requests are made -/

theorem Submits.takes_iff {posted : Except Rest.Fault Receipt}
    (h : client.Submits node body s posted s') :
    client.Takes node body s.node ↔ ∃ receipt, posted = .ok receipt := by
  obtain ⟨ending, hcomes, -⟩ := h
  constructor
  · rintro ⟨receipt, after, hsucceeds⟩
    exact ⟨receipt, (hcomes.of_succeeds hsucceeds).1⟩
  · rintro ⟨receipt, rfl⟩
    exact ⟨receipt, s'.node, hcomes.succeeds⟩

theorem Submits.attemptsSince_eq {posted : Except Rest.Fault Receipt}
    (h : client.Submits node body s posted s') : ∃ ending,
    s'.attemptsSince s = [(client.submission body).attempt s.clock ending] := by
  obtain ⟨ending, -, hattempts⟩ := h
  exact ⟨ending, Session.attemptsSince_eq hattempts⟩

/-- The attempts of a submission and of a question after it, the last one first. -/
theorem Inquires.attemptsSince_eq {posted : Except Rest.Fault Receipt}
    {told : Except Rest.Fault (Envelope (List BatchStatus))}
    (hpost : client.Submits node body s posted s₁)
    (hget : client.Inquires node batchId s₁ told s') :
    ∃ ending ending', s'.attemptsSince s = [(client.inquiry batchId).attempt s₁.clock ending',
      (client.submission body).attempt s.clock ending] := by
  obtain ⟨ending, -, hpost⟩ := hpost
  obtain ⟨ending', -, hget⟩ := hget
  rw [hpost] at hget
  exact ⟨ending, ending', Session.attemptsSince_eq hget⟩

/-- The requests of a session from another one on, the last one first: the submission, and the
question for the status if and only if the node takes the batches. -/
structure AsksOnce (node : Node σ) (client : RegistryClient) (body : Bytes) (batchId : String)
    (s s' : Session σ) : Prop where
  asked : client.Takes node body s.node → ∃ ending later ending', s'.attemptsSince s =
    [(client.inquiry batchId).attempt later ending',
      (client.submission body).attempt s.clock ending]
  refused : ¬ client.Takes node body s.node → ∃ ending, s'.attemptsSince s =
    [(client.submission body).attempt s.clock ending]

/-- Either the submission is all, or it is taken and the question comes after it. -/
theorem Course.refused_or_asked (h : client.Course node body batchId s result s') :
    (∃ fault, client.Submits node body s (.error fault) s') ∨
    ∃ receipt s₁ told, client.Submits node body s (.ok receipt) s₁ ∧
      client.Inquires node batchId s₁ told s' := by
  cases h with
  | refused post => exact .inl ⟨_, post⟩
  | untold post get => exact .inr ⟨_, _, _, post, get⟩
  | told post get => exact .inr ⟨_, _, _, post, get⟩

theorem Submits.not_takes {fault : Rest.Fault} (h : client.Submits node body s (.error fault) s') :
    ¬ client.Takes node body s.node := by
  intro htakes
  obtain ⟨receipt, hok⟩ := h.takes_iff.mp htakes
  cases hok

theorem Course.asksOnce (h : client.Course node body batchId s result s') :
    client.AsksOnce node body batchId s s' := by
  rcases h.refused_or_asked with ⟨fault, post⟩ | ⟨receipt, s₁, told, post, get⟩
  · exact ⟨fun htakes => absurd htakes post.not_takes, fun _ => post.attemptsSince_eq⟩
  · obtain ⟨ending, ending', hattempts⟩ := Inquires.attemptsSince_eq post get
    exact ⟨fun _ => ⟨ending, _, ending', hattempts⟩,
      fun hnot => absurd (post.takes_iff.mpr ⟨receipt, rfl⟩) hnot⟩

/-- If the submission does not go out, the node is left alone. -/
theorem Course.node_eq (h : client.Course node body batchId s result s')
    (hnever : ∀ url,
      ¬ (client.submission body).GoesOut node client.rest.timeoutSeconds s.node url) :
    s'.node = s.node := by
  rcases h.refused_or_asked with ⟨fault, _, hcomes, -⟩ | ⟨receipt, s₁, told, post, -⟩
  · exact hcomes.eq_before hnever
  · obtain ⟨_, _, delay, answer, text, hanswered, -⟩ := post.takes_iff.mpr ⟨receipt, rfl⟩
    obtain ⟨url, hgoes, -⟩ := hanswered.reply
    exact absurd hgoes (hnever url)

/-! ## What is returned -/

variable (node client) (s)

/-- What is counted in the end is no part of how the request went. -/
theorem sendBatches_submits (batches : BatchList) : ∃ posted s',
    (client.rest.sendBatches node batches).run.run s = (posted.map (·.link), s') ∧
      client.Submits node (BatchList.schema.encode batches) s posted s' := by
  obtain ⟨posted, s', hrun, hmakes⟩ := Talk.request_makes s node
    { method := .post, url := client.rest.base ++ "/batches"
      body := BatchList.schema.encode batches }
    (show (client.rest.limits 0 none).deadline = none from rfl) .batches Receipt.shape.reader
  unfold Client.sendBatches
  rw [Talk.run_bind, hrun]
  cases posted with
  | ok receipt => exact ⟨.ok receipt, { s' with tally := _ }, rfl, hmakes⟩
  | error fault => exact ⟨.error fault, s', rfl, hmakes⟩

theorem inquiry_url (batchId : String) :
    client.rest.statusesUrl [batchId] (some client.statusWaitSeconds) =
      (client.inquiry batchId).url := by
  simp [Client.statusesUrl, inquiry, String.append_assoc]

theorem statuses_inquires (batchId : String)
    (hwait : client.rest.timeoutSeconds + client.statusWaitSeconds < UInt64.size) : ∃ told s',
    (client.rest.statuses node [batchId] (some client.statusWaitSeconds)).run.run s =
        (told.map (·.data), s') ∧
      client.Inquires node batchId s told s' := by
  obtain ⟨told, s', hrun, hmakes⟩ := Talk.request_makes s node
    { url := (client.inquiry batchId).url }
    (show (client.rest.limits client.statusWaitSeconds none).deadline = none from rfl)
    .batchStatuses (Envelope.shape [] (.list BatchStatus.shape.reader)).reader
  unfold Client.statuses
  rw [Option.getD_some, if_neg (Nat.not_le.mpr hwait), inquiry_url]
  simp only [Client.requestData]
  rw [Talk.run_bind, hrun]
  cases told with
  | ok envelope =>
    simp only [Talk.run_bind, Talk.run_forIn_count]
    exact ⟨.ok envelope, { s' with tally := _ }, rfl, hmakes⟩
  | error fault => exact ⟨.error fault, s', rfl, hmakes⟩

/-- How it goes to submit an action, whatever the node does. -/
theorem submit_course (signer : Signer) (nonce : Bytes) (action : Action)
    (inputs outputs : List String)
    (hwait : client.rest.timeoutSeconds + client.statusWaitSeconds < UInt64.size) : ∃ result s',
    (client.submit node signer nonce action inputs outputs).run.run s = (result, s') ∧
      client.Course node
        (BatchList.schema.encode
          { batches := [client.batch signer nonce action inputs outputs] })
        (client.batch signer nonce action inputs outputs).headerSignature s result s' := by
  obtain ⟨posted, s₁, hpost, hsubmits⟩ := sendBatches_submits node client s
    { batches := [client.batch signer nonce action inputs outputs] }
  unfold submit
  rw [Talk.run_bind, hpost]
  cases posted with
  | error fault => exact ⟨_, _, rfl, .refused hsubmits⟩
  | ok receipt =>
    obtain ⟨told, s', hget, hinquires⟩ := statuses_inquires node client s₁
      (client.batch signer nonce action inputs outputs).headerSignature hwait
    refine ⟨_, _, hget, ?_⟩
    cases told with
    | error fault => exact .untold hsubmits hinquires
    | ok envelope => exact .told hsubmits hinquires

/-- How a registration goes, whatever the node does. -/
theorem createAgent_course (r : Registration)
    (hwait : client.rest.timeoutSeconds + client.statusWaitSeconds < UInt64.size) : ∃ result s',
    (client.createAgent node r.signer r.nonce r.name r.timestamp).run.run s = (result, s') ∧
      client.Course node (r.body client.family) (r.batch client.family).headerSignature s result
        s' :=
  submit_course node client s r.signer r.nonce (.createAgent r.name r.timestamp)
    [Address.ofAgent r.signer.publicKeyHex] [Address.ofAgent r.signer.publicKeyHex] hwait

/-! ## What a server gets -/

/-- What a server gets while a client submits batches and asks what became of one: what the
submission leaves there, and what the question does if and only if the batches were taken. Nothing
is posted but these batches, and each request is made once if no answer leads elsewhere. -/
structure ReachesServer (server : Server σ) (client : RegistryClient) (body : Bytes)
    (batchId : String) (before after : σ × List Request) (posts gets : List Request) (middle : σ) :
    Prop where
  record : after.2 = before.2 ++ posts ++ gets
  posted : (client.submission body).Leaves server client.rest.timeoutSeconds before.1 posts middle
  asked : client.Takes (client.nodeAt server.recording) body before →
    (client.inquiry batchId).Leaves server (client.rest.timeoutSeconds + client.statusWaitSeconds)
      middle gets after.1
  refused : ¬ client.Takes (client.nodeAt server.recording) body before →
    gets = [] ∧ after.1 = middle
  body_eq : ∀ r ∈ posts, r.method = .post → r.body = body
  forall_get : ∀ r ∈ gets, r.method = .get ∧ r.body = []
  length_posts_le : posts.length ≤ maxRedirects + 1
  length_gets_le : gets.length ≤ maxRedirects + 1
  length_le_one : server.LeadsNowhere → posts.length ≤ 1 ∧ gets.length ≤ 1

theorem Course.exists_reachesServer {server : Server σ} {client : RegistryClient}
    {s s' : Session (σ × List Request)}
    (h : client.Course (client.nodeAt server.recording) body batchId s result s') :
    ∃ posts gets middle,
      client.ReachesServer server body batchId s.node s'.node posts gets middle := by
  rcases h.refused_or_asked with ⟨fault, post⟩ | ⟨receipt, s₁, told, post, get⟩
  · have hrefused := post.not_takes
    obtain ⟨_, hpost, -⟩ := post
    obtain ⟨posts, hposts, hleft⟩ := hpost.exists_leaves
    exact ⟨posts, [], s'.node.1,
      { record := by rw [hposts, List.append_nil]
        posted := hleft
        asked := fun htakes => absurd htakes hrefused
        refused := fun _ => ⟨rfl, rfl⟩
        body_eq := hleft.body_eq
        forall_get := List.forall_mem_nil _
        length_posts_le := hleft.length_le
        length_gets_le := Nat.zero_le _
        length_le_one := fun hnowhere => ⟨hleft.length_le_one hnowhere, Nat.zero_le _⟩ }⟩
  · have htakes := post.takes_iff.mpr ⟨receipt, rfl⟩
    obtain ⟨_, hpost, -⟩ := post
    obtain ⟨_, hget, -⟩ := get
    obtain ⟨posts, hposts, hleft⟩ := hpost.exists_leaves
    obtain ⟨gets, hgets, hasked⟩ := hget.exists_leaves
    exact ⟨posts, gets, s₁.node.1,
      { record := by rw [hgets, hposts]
        posted := hleft
        asked := fun _ => hasked
        refused := fun hnot => absurd htakes hnot
        body_eq := hleft.body_eq
        forall_get := hasked.forall_get rfl rfl
        length_posts_le := hleft.length_le
        length_gets_le := hasked.length_le
        length_le_one := fun hnowhere =>
          ⟨hleft.length_le_one hnowhere, hasked.length_le_one hnowhere⟩ }⟩

/-- A registration makes one request with its batch, first of all. It asks for the status of that
batch if and only if that is taken, and returns what it is told as it is. The first fault ends it.
A server gets each of the two where its answers have led it, and no batch but this one. -/
theorem registration_goes_where_led (server : Server σ) (client : RegistryClient)
    (s : Session (σ × List Request)) (r : Registration)
    (hwait : client.rest.timeoutSeconds + client.statusWaitSeconds < UInt64.size)
    (hbody : (r.body client.family).Storable) :
    r.IsSentAs client.family (r.body client.family) (r.batch client.family).headerSignature ∧
    ∃ result s' posts gets middle,
      (client.createAgent (client.nodeAt server.recording) r.signer r.nonce r.name
        r.timestamp).run.run s = (result, s') ∧
      client.Course (client.nodeAt server.recording) (r.body client.family)
        (r.batch client.family).headerSignature s result s' ∧
      client.AsksOnce (client.nodeAt server.recording) (r.body client.family)
        (r.batch client.family).headerSignature s s' ∧
      client.ReachesServer server (r.body client.family) (r.batch client.family).headerSignature
        s.node s'.node posts gets middle := by
  obtain ⟨result, s', hrun, hcourse⟩ :=
    createAgent_course (client.nodeAt server.recording) client s r hwait
  obtain ⟨posts, gets, middle, hreaches⟩ := hcourse.exists_reachesServer
  exact ⟨Registration.isSentAs_body hbody, result, s', posts, gets, middle, hrun, hcourse,
    hcourse.asksOnce, hreaches⟩

end RegistryClient

/-! ## A server that leads back -/

namespace Rest.Server

/-- What is said of batches that were taken. -/
def receipt : Bytes := Bytes.ofText (Json.Value.record [("link", .text "")]).compact

theorem parse_receipt :
    Receipt.shape.reader.parse (Bytes.lenientText receipt) = .ok { link := "" } :=
  (Ledger.lenientText_compact _).symm ▸ Receipt.parse_link ""

/-- A server that has whoever comes first ask again, and takes everything after that. -/
def diverting : Server Bool where
  respond diverted request :=
    if diverted then ({ reply := .answer 0 (Talk.promptAnswer 202 receipt) }, true)
    else ({ reply := .answer 0 (Talk.promptAnswer 307 []), location := some request.url }, true)

theorem isHttp_of_isSendable {url : Url} (h : isSendable url = true) : isHttp url = true := by
  simp only [isSendable, Bool.and_eq_true] at h
  exact h.1.1.1

/-- The first request is made twice. -/
theorem reply_diverting {patience : Request → Nat} {request : Request} (log : List Request)
    (hsent : request.sent = request) (hsendable : isSendable request.url = true)
    (hpatience : 0 < patience request) :
    (diverting.recording.following patience).reply (false, log) request =
      (.answer 0 (Talk.promptAnswer 202 receipt), true, log ++ [request] ++ [request]) := by
  have hmiddle : (diverting.recording.respond (false, log) request.sent).2 =
      (true, log ++ [request]) := by
    rw [hsent]
    rfl
  have hnext : (diverting.recording.respond (false, log) request.sent).1.next? (patience request)
      request = some (0, request) := by
    rw [hsent]
    simp [recording_respond, diverting, Response.next?, Request.redirect?, Talk.promptAnswer,
      hpatience, hsendable]
  have hlast : (diverting.recording.respond (true, log ++ [request]) request.sent).1.next?
      (patience request) request = none := Response.next?_eq_none rfl _ _
  have hfirst := carry_of_next?_eq_some 9 hnext (isHttp_of_isSendable hsendable) rfl
  rw [hmiddle, Nat.sub_zero, carry_of_next?_eq_none 9 hlast, hsent] at hfirst
  refine Eq.trans hfirst ?_
  simp only [recording_respond, diverting, if_true, Reply.behind, Nat.add_zero, if_pos hpatience]

end Rest.Server

namespace RegistryClient

variable {body : Bytes} {batchId : String} {result : Except Rest.Fault (List BatchStatus)}
  {s' : Session (Bool × List Request)}

/-- The request in which the sample client posts batches. -/
def samplePost (body : Bytes) : Request :=
  (sample.submission body).request (.ofLocal 8008 "/batches".toList none)

theorem reply_diverting_samplePost (body : Bytes) :
    (sample.nodeAt Server.diverting.recording).reply (false, [])
        ((sample.submission body).request (.ofLocal 8008 "/batches".toList none)) =
      (.answer 0 (Talk.promptAnswer 202 Server.receipt), true,
        [samplePost body, samplePost body]) := by
  have hsendable : isSendable (.ofLocal 8008 "/batches".toList none) = true :=
    Url.isSendable_ofLocal (by decide) (by decide)
  have hpatience : 0 < sample.patience (samplePost body) := show 0 < 1000 * 10 by decide
  exact Server.reply_diverting [] rfl hsendable hpatience

theorem toList_submission_url (body : Bytes) : (sample.submission body).url.toList =
    (Url.localBase 8008).toList ++ ("/batches".toList ++ Url.tail none) := by
  rw [submission, String.toList_append]
  rfl

theorem takes_diverting (body : Bytes) :
    sample.Takes (sample.nodeAt Server.diverting.recording) body (false, []) :=
  ⟨{ link := "" }, _, Call.succeeds_local (by decide) Ledger.isPlainPath_batches
    Url.isPlain_of_none (by decide) (toList_submission_url body) (by decide) rfl
    (reply_diverting_samplePost body) (by decide) Server.parse_receipt⟩

/-- A name of nothing is sent as none. The client makes two requests, and wherever these are led
nothing but its batch is posted. -/
theorem registration_goes_where_led_diverted :
    let body := (Registration.sample (some "")).body sample.family
    let start : Session (Bool × List Request) := { node := (false, []) }
    (∃ batch transaction, BatchList.schema.decode body = .ok { batches := [batch] } ∧
      batch.transactions = [transaction] ∧
      Action.decode transaction.payload = .ok (.createAgent none 1)) ∧
    ∃ result s', (sample.createAgent (sample.nodeAt Server.diverting.recording) .least
        (List.replicate 16 0xab) (some "") 1).run.run start = (result, s') ∧
      (s'.attemptsSince start).map (·.method) = [.get, .post] ∧
      ∀ r ∈ s'.node.2, r.method = .post → r.body = body := by
  intro body start
  have hbody : ((Registration.sample (some "")).body sample.family).Storable :=
    Registration.storable_body rfl (by decide +kernel)
  obtain ⟨hsent, result, s', posts, gets, middle, hrun, -, hasks, hreaches⟩ :=
    registration_goes_where_led Server.diverting sample start (.sample (some "")) (by decide) hbody
  obtain ⟨batch, transaction, header, hdecode, -, htransactions, -, -, -, -, -, haction⟩ :=
    hsent.exists_batch
  obtain ⟨ending, later, ending', hattempts⟩ := hasks.asked (takes_diverting body)
  refine ⟨⟨batch, transaction, hdecode, htransactions, haction⟩, result, s', hrun, ?_,
    fun r hr hpost => ?_⟩
  · rw [hattempts]
    rfl
  · rw [hreaches.record] at hr
    rcases List.mem_append.mp hr with hr | hr
    · exact hreaches.body_eq r hr hpost
    · rw [(hreaches.forall_get r hr).1] at hpost
      cases hpost

theorem Submits.log_diverting {posted : Except Rest.Fault Receipt}
    (h : sample.Submits (sample.nodeAt Server.diverting.recording) body { node := (false, []) }
      posted s') : s'.node.2 = [samplePost body, samplePost body] := by
  have hgoes : (sample.submission body).GoesOut (sample.nodeAt Server.diverting.recording) 10
      (false, []) (.ofLocal 8008 "/batches".toList none) :=
    ⟨Url.parse_local (by decide) Ledger.isPlainPath_batches Url.isPlain_of_none
      (toList_submission_url body), Url.isSendable_ofLocal (by decide) (by decide), by decide, rfl⟩
  obtain ⟨_, hcomes, -⟩ := h
  rw [hcomes.after_eq hgoes, reply_diverting_samplePost]

theorem Course.exists_log_diverting
    (h : sample.Course (sample.nodeAt Server.diverting.recording) body batchId
      { node := (false, []) } result s') :
    ∃ later, s'.node.2 = samplePost body :: samplePost body :: later := by
  rcases h.refused_or_asked with ⟨fault, post⟩ | ⟨receipt, s₁, told, post, _, hget, -⟩
  · exact ⟨[], post.log_diverting⟩
  · obtain ⟨later, hlater, -⟩ := hget.exists_leaves
    rw [post.log_diverting] at hlater
    exact ⟨later, hlater⟩

/-- The sample client at an endpoint that is not for HTTP. -/
def misdirected : RegistryClient :=
  { sample with rest := { sample.rest with base := "tcp://node:4004" } }

theorem not_goesOut_misdirected {σ : Type} {node : Node σ} {seconds : Nat} {before : σ}
    (url : Url) : ¬ (misdirected.submission body).GoesOut node seconds before url := by
  intro hgoes
  have hsendable : (Url.parse (misdirected.submission body).url).toOption.any isSendable = false :=
    show (Url.parse ("tcp://node:4004" ++ "/batches")).toOption.any isSendable = false by
      decide +kernel
  rw [hgoes.parse] at hsendable
  exact Bool.false_ne_true (hsendable.symm.trans hgoes.sendable)

/-- The server that leads back gets the batch twice, and at an endpoint that is not for HTTP nobody
gets it. -/
theorem registration_sent_twice_or_never :
    let body := (Registration.sample (some "")).body sample.family
    let start : Session (Bool × List Request) := { node := (false, []) }
    (∃ result s' posted later,
      (sample.createAgent (sample.nodeAt Server.diverting.recording) .least
        (List.replicate 16 0xab) (some "") 1).run.run start = (result, s') ∧
      s'.node.2 = posted :: posted :: later ∧ posted.method = .post ∧ posted.body = body) ∧
    ∃ result s', (misdirected.createAgent (misdirected.nodeAt Server.diverting.recording) .least
        (List.replicate 16 0xab) (some "") 1).run.run start = (result, s') ∧ s'.node.2 = [] := by
  intro body start
  constructor
  · obtain ⟨result, s', hrun, hcourse⟩ := createAgent_course
      (sample.nodeAt Server.diverting.recording) sample start (.sample (some "")) (by decide)
    obtain ⟨later, hlog⟩ := hcourse.exists_log_diverting
    exact ⟨result, s', samplePost body, later, hrun, hlog, rfl, rfl⟩
  · obtain ⟨result, s', hrun, hcourse⟩ := createAgent_course
      (misdirected.nodeAt Server.diverting.recording) misdirected start (.sample (some ""))
      (by decide)
    refine ⟨result, s', hrun, ?_⟩
    rw [hcourse.node_eq not_goesOut_misdirected]

end RegistryClient

end CertRegistry
