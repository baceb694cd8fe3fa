import CertRegistry.Proofs.Registry.Submission
import CertRegistry.Proofs.Rest.Waits

/-!
# What a submission reports

Who submits a batch gets the statuses that the node tells, as they are. Nobody looks whether the
batch is among them: who waits for a batch is told that it has no status, who submits it is not.
-/

namespace CertRegistry

open Rest

theorem Rest.Call.ComesTo.ne_noStatus {σ α : Type} {node : Node σ} {call : Call} {seconds : Nat}
    {reader : Json.Reader α} {before after : σ} {fault : Rest.Fault} {ending : Ending}
    (h : call.ComesTo node seconds reader before (.error fault) ending after) (batchId : String) :
    fault ≠ .noStatus batchId := by
  cases h <;> exact nofun

namespace RegistryClient

variable {σ : Type} {node : Node σ} {client : RegistryClient} {body : Bytes} {batchId : String}
  {s s' : Session σ} {result : Except Rest.Fault (List BatchStatus)} {statuses : List BatchStatus}

/-- Whether the node takes batches and then tells these statuses when it is asked for the status of
one of them. -/
structure Tells (node : Node σ) (client : RegistryClient) (body : Bytes) (batchId : String)
    (before : σ) (statuses : List BatchStatus) : Prop where
  bounded : client.rest.timeoutSeconds + client.statusWaitSeconds < UInt64.size
  exists_answers : ∃ receipt middle envelope after,
    (client.submission body).Succeeds node client.rest.timeoutSeconds Receipt.shape.reader before
      receipt middle ∧
    (client.inquiry batchId).Succeeds node (client.rest.timeoutSeconds + client.statusWaitSeconds)
      (Envelope.shape [] (.list BatchStatus.shape.reader)).reader middle envelope after ∧
    envelope.data = statuses

/-- Whether a result says what became of a batch: statuses are returned only with one for the batch,
and if the node tells others alone it is said that there is none. -/
structure AccountsFor (batchId : String) (Told : List BatchStatus → Prop)
    (result : Except Rest.Fault (List BatchStatus)) : Prop where
  named : ∀ statuses, result = .ok statuses → ∃ status ∈ statuses, status.id = batchId
  missing : ∀ statuses, Told statuses → (∀ status ∈ statuses, status.id ≠ batchId) →
    result = .error (.noStatus batchId)

/-- What the node tells is what comes of asking it. -/
theorem Course.eq_of_tells (h : client.Course node body batchId s result s')
    (htells : client.Tells node body batchId s.node statuses) : result = .ok statuses := by
  obtain ⟨-, receipt, middle, envelope, after, hsubmission, hinquiry, rfl⟩ := htells
  cases h with
  | refused post =>
    obtain ⟨_, hpost, -⟩ := post
    cases (hpost.of_succeeds hsubmission).1
  | untold post get =>
    obtain ⟨_, hpost, -⟩ := post
    obtain ⟨_, hget, -⟩ := get
    obtain ⟨-, rfl⟩ := hpost.of_succeeds hsubmission
    cases (hget.of_succeeds hinquiry).1
  | told post get =>
    obtain ⟨_, hpost, -⟩ := post
    obtain ⟨_, hget, -⟩ := get
    obtain ⟨-, rfl⟩ := hpost.of_succeeds hsubmission
    cases (hget.of_succeeds hinquiry).1
    rfl

theorem Course.tells (h : client.Course node body batchId s (.ok statuses) s')
    (hbounded : client.rest.timeoutSeconds + client.statusWaitSeconds < UInt64.size) :
    client.Tells node body batchId s.node statuses := by
  cases h with
  | told post get =>
    obtain ⟨_, hpost, -⟩ := post
    obtain ⟨_, hget, -⟩ := get
    exact ⟨hbounded, _, _, _, _, hpost.succeeds, hget.succeeds, rfl⟩

/-- A fault is one of the requests. -/
theorem Course.ne_noStatus (h : client.Course node body batchId s result s') (other : String) :
    result ≠ .error (.noStatus other) := by
  rintro rfl
  cases h with
  | refused post =>
    obtain ⟨_, hpost, -⟩ := post
    exact hpost.ne_noStatus other rfl
  | untold _ get =>
    obtain ⟨_, hget, -⟩ := get
    exact hget.ne_noStatus other rfl

variable (node client s)

/-- A wait that cannot be written down is a fault once the batch is sent. -/
theorem submit_fails_of_le (signer : Signer) (nonce : Bytes) (action : Action)
    (inputs outputs : List String)
    (hwait : UInt64.size ≤ client.rest.timeoutSeconds + client.statusWaitSeconds) : ∃ fault s',
    (client.submit node signer nonce action inputs outputs).run.run s = (.error fault, s') ∧
      ∀ other, fault ≠ .noStatus other := by
  obtain ⟨posted, s₁, hpost, ending, hcomes, -⟩ := sendBatches_submits node client s
    { batches := [client.batch signer nonce action inputs outputs] }
  unfold submit
  rw [Talk.run_bind, hpost]
  cases posted with
  | error fault => exact ⟨fault, s₁, rfl, hcomes.ne_noStatus⟩
  | ok receipt =>
    exact ⟨.waitTooLong, s₁, Client.run_statuses_of_le hwait s₁, nofun⟩

/-- A submission returns what the node tells, if it tells anything, and never says that the batch
has no status. So it accounts for its batch if and only if the node does not leave it out. -/
theorem submit_reports (signer : Signer) (nonce : Bytes) (action : Action)
    (inputs outputs : List String) :
    let batch := client.batch signer nonce action inputs outputs
    let Told := client.Tells node (BatchList.schema.encode { batches := [batch] })
      batch.headerSignature s.node
    ∃ result s', (client.submit node signer nonce action inputs outputs).run.run s = (result, s') ∧
      (∀ statuses, result = .ok statuses ↔ Told statuses) ∧
      (∀ batchId, result ≠ .error (.noStatus batchId)) ∧
      (AccountsFor batch.headerSignature Told result ↔
        ∀ statuses, Told statuses → ∃ status ∈ statuses, status.id = batch.headerSignature) := by
  intro batch Told
  obtain ⟨result, s', hrun, hok, hmissing⟩ : ∃ result s',
      (client.submit node signer nonce action inputs outputs).run.run s = (result, s') ∧
        (∀ statuses, result = .ok statuses ↔ Told statuses) ∧
        ∀ batchId, result ≠ .error (.noStatus batchId) := by
    by_cases hwait : client.rest.timeoutSeconds + client.statusWaitSeconds < UInt64.size
    · obtain ⟨result, s', hrun, hcourse⟩ :=
        submit_course node client s signer nonce action inputs outputs hwait
      refine ⟨result, s', hrun, fun statuses => ⟨?_, hcourse.eq_of_tells⟩, hcourse.ne_noStatus⟩
      rintro rfl
      exact hcourse.tells hwait
    · obtain ⟨fault, s', hrun, hfault⟩ := submit_fails_of_le node client s signer nonce action
        inputs outputs (Nat.le_of_not_lt hwait)
      refine ⟨_, s', hrun, fun statuses => ⟨nofun, fun htells => absurd htells.bounded hwait⟩,
        fun other h => hfault other (Except.error.inj h)⟩
  refine ⟨result, s', hrun, hok, hmissing, fun haccounts statuses htold => ?_, fun hnamed => ?_⟩
  · exact haccounts.named statuses ((hok statuses).mpr htold)
  · refine ⟨fun statuses hresult => hnamed statuses ((hok statuses).mp hresult), ?_⟩
    intro statuses htold hothers
    obtain ⟨status, hstatus, hid⟩ := hnamed statuses htold
    exact absurd hid (hothers status hstatus)

/-- A node that takes a batch and tells the status of another one. -/
theorem submit_reports_another :
    let r := Registration.sample none
    let address := Address.ofAgent r.signer.publicKeyHex
    let batch := RegistryClient.sample.batch r.signer r.nonce (.createAgent r.name r.timestamp)
      [address] [address]
    let other : BatchStatus := { id := "b", status := .committed }
    let reply (status : Nat) (members : List (String × Json.Value)) : Reply :=
      .answer 0 (Talk.promptAnswer status (Bytes.ofText (Json.Value.record members).compact))
    ∃ s', (RegistryClient.sample.submit Node.scripted r.signer r.nonce
        (.createAgent r.name r.timestamp) [address] [address]).run.run
          { node := [reply 202 [("link", .text "")],
            reply 200 [("data", .list ([other].map (·.toJson)))]] } = (.ok [other], s') ∧
      ∀ status ∈ [other], status.id ≠ batch.headerSignature := by
  intro r address batch other reply
  have hlength : batch.headerSignature.length = 128 := r.length_batchId _
  have hdigits : ∀ c ∈ batch.headerSignature.toList, Hex.IsAnyDigit c := r.isAnyDigit_batchId _
  obtain ⟨result, s', hrun, hcourse⟩ := submit_course Node.scripted .sample
    { node := [reply 202 [("link", .text "")],
      reply 200 [("data", .list ([other].map (·.toJson)))]] }
    r.signer r.nonce (.createAgent r.name r.timestamp) [address] [address] (by decide)
  let body := BatchList.schema.encode { batches := [batch] }
  have htells : RegistryClient.sample.Tells Node.scripted
      body batch.headerSignature
      [reply 202 [("link", .text "")], reply 200 [("data", .list ([other].map (·.toJson)))]]
      [other] := by
    have hpost : (RegistryClient.sample.submission body).url.toList =
        (Url.localBase 8008).toList ++ ("/batches".toList ++ Url.tail none) := by
      rw [submission, String.toList_append]
      rfl
    have hget : (RegistryClient.sample.inquiry batch.headerSignature).url.toList =
        (Url.localBase 8008).toList ++ ("/batch_statuses".toList ++
          Url.tail (some (Ledger.statusQuery batch.headerSignature 5))) :=
      inquiry_url _ _ ▸ Ledger.toList_statusesUrl rfl
    have hquery : ∀ cs, some (Ledger.statusQuery batch.headerSignature 5) = some cs →
        ∀ c ∈ cs, Url.IsPlain c := by
      rintro cs ⟨⟩
      exact Ledger.isPlain_statusQuery hdigits
    refine ⟨by decide, { link := "" }, [reply 200 [("data", .list ([other].map (·.toJson)))]],
      { data := [other] }, [], ?_, ?_, rfl⟩
    · exact Call.succeeds_local (by decide) Ledger.isPlainPath_batches Url.isPlain_of_none
        (by decide) hpost (by decide) rfl rfl (by decide)
        ((Ledger.lenientText_compact _).symm ▸ Receipt.parse_link "")
    · exact Call.succeeds_local (by decide) Ledger.isPlainPath_statuses hquery
        (Ledger.length_statusQuery_le (by decide) hlength) hget (by decide) rfl rfl (by decide)
        ((Ledger.lenientText_compact _).symm ▸ Envelope.parse_statuses [other])
  obtain rfl := hcourse.eq_of_tells htells
  refine ⟨s', hrun, List.forall_mem_singleton.mpr fun hid => ?_⟩
  rw [← hid] at hlength
  exact absurd hlength (by decide)

end RegistryClient

end CertRegistry
