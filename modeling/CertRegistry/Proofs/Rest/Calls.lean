import CertRegistry.Proofs.Rest.Accounts

/-!
# Calls of a client and the counters

How the requests of each call are made and counted: with which method, for which resource, and
what their answers tell.
-/

namespace CertRegistry.Rest.Client

variable {σ : Type} (node : Node σ) (client : Client) (s : Session σ)

theorem sendBatches_asks (batches : BatchList) : ∃ result s',
    (client.sendBatches node batches).run.run s = (result, s') ∧
      s.Asks s' .post False (some .batches) Ending.isSuccess (.ofReceipt batches result) := by
  obtain ⟨received, s₁, hrun, hasks⟩ := Talk.request_asks node s (client.limits 0 none)
    { method := .post, url := client.base ++ "/batches", body := BatchList.schema.encode batches }
    .batches Receipt.shape.reader
  unfold sendBatches
  simp only [Talk.run_bind, hrun]
  cases received with
  | error fault => exact ⟨_, _, rfl, hasks.imp nofun⟩
  | ok receipt =>
    refine ⟨_, _, rfl, ?_⟩
    rw [← News.empty_add (News.ofReceipt _ _)]
    refine (hasks.imp nofun).trans (.of_news rfl ?_ (Tally.total_submitted batches.batches.length))
    rfl

theorem statuses_asks (ids : List String) (wait : Option Nat) (deadline : Option Deadline) :
    ∃ result s', (client.statuses node ids wait deadline).run.run s = (result, s') ∧
      s.Asks s' .get (∃ d, deadline = some d) (some .batchStatuses) Ending.isSuccess
        (.ofStatuses result) := by
  unfold statuses
  split
  · exact ⟨_, _, rfl, .of_eq rfl rfl⟩
  · obtain ⟨answered, s₁, hrun, hasks⟩ := Talk.request_asks node s
      (client.limits (wait.getD 0) deadline) { url := client.statusesUrl ids wait } .batchStatuses
      (Envelope.shape [] (.list BatchStatus.shape.reader)).reader
    simp only [requestData, Talk.run_bind, hrun]
    cases answered with
    | error fault => exact ⟨_, _, rfl, hasks⟩
    | ok envelope =>
      simp only [Talk.run_forIn_count]
      refine ⟨_, _, rfl, ?_⟩
      rw [← News.empty_add (News.ofStatuses _)]
      refine hasks.trans (.of_news rfl rfl fun c => ?_)
      exact Tally.total_told envelope.data c

theorem listBlocks_asks : ∃ result s', (client.listBlocks node).run.run s = (result, s') ∧
    s.Asks s' .get False (some .blocks) Ending.isSuccess {} := by
  obtain ⟨answered, s₁, hrun, hasks⟩ := Talk.request_asks node s (client.limits 0 none)
    { url := client.base ++ "/blocks" } .blocks
    (Envelope.shape [] (.list Block.shape.reader)).reader
  unfold listBlocks
  simp only [requestData, Talk.run_bind, hrun]
  cases answered with
  | error fault => exact ⟨_, _, rfl, hasks.imp nofun⟩
  | ok envelope => exact ⟨_, _, rfl, hasks.imp nofun⟩

theorem statePages_asks (pages : Nat) (url : String) :
    ∃ result s', (client.statePages node pages url).run.run s = (result, s') ∧
      s.Asks s' .get False (some .state) Ending.isSuccess {} := by
  induction pages generalizing s url with
  | zero => exact ⟨_, _, rfl, .of_eq rfl rfl⟩
  | succ pages ih =>
    obtain ⟨answered, s₁, hrun, hasks⟩ := Talk.request_asks node s (client.limits 0 none) { url }
      .state (Envelope.shape [] (.list EncodedEntry.shape.reader)).reader
    have hnone : ¬ ∃ d, (client.limits 0 none).deadline = some d := nofun
    replace hasks := hasks.imp hnone
    unfold statePages
    simp only [requestData, Talk.run_bind, hrun]
    cases answered with
    | error fault => exact ⟨_, _, rfl, hasks⟩
    | ok page =>
      simp only
      cases page.data.mapM decodeEntry with
      | error fault => exact ⟨_, _, rfl, hasks⟩
      | ok entries =>
        simp only [ofExcept, Talk.run_pure]
        cases page.next? with
        | none => exact ⟨_, _, rfl, hasks⟩
        | some next =>
          obtain ⟨more, s₂, hmore, hasks'⟩ := ih s₁ next
          have htrans := hasks.trans hasks'
          simp only [Talk.run_bind, hmore]
          cases more with
          | error fault => exact ⟨_, _, rfl, htrans⟩
          | ok entries' => exact ⟨_, _, rfl, htrans⟩

/-- Where nothing is stored, that is an answer too. -/
def readSucceeds (ending : Ending) : Bool := ending.isSuccess || ending = .answered 404

theorem readState_asks (address : String) :
    ∃ result s', (client.readState node address).run.run s = (result, s') ∧
      s.Asks s' .get False (some .state) readSucceeds {} := by
  let call : Call := { url := client.base ++ "/state/" ++ address, counted := some .state }
  obtain ⟨ending, hconcludes, hsend⟩ := Talk.send_concludes s node (client.limits 0 none) call
  unfold readState
  rw [Talk.run_bind, Talk.run_get]
  simp only [Talk.run_bind]
  rcases hrun : (Talk.send node (client.limits 0 none) call).run.run s with ⟨result, s₁⟩
  rw [hrun] at hconcludes hsend
  cases result with
  | error fault =>
    cases hconcludes with
    | abandoned h => cases h
  | ok result =>
    simp only
    split
    next body =>
      cases hconcludes with
      | answered =>
        have htally : Tally.ofAttempts (fun _ => some .state) readSucceeds
            [call.attempt s.clock (.answered 404)] = [(.requests .state true, 1)] := rfl
        refine ⟨_, _, rfl, [call.attempt s.clock (.answered 404)],
          List.forall_mem_singleton.mpr ⟨rfl, nofun⟩, .of_grows ?_⟩
        rw [htally]
        exact ⟨hsend.attempts, congrArg (List.cons (Counter.requests .state true, 1)) hsend.tally⟩
    next hother =>
      have hending : ending ≠ .abandoned ∧ readSucceeds ending = ending.isSuccess := by
        cases hconcludes with
        | failed fault => exact ⟨nofun, rfl⟩
        | answered answer =>
          refine ⟨nofun, ?_⟩
          have hne : answer.status ≠ 404 := by
            rcases answer with ⟨status, body⟩
            rintro rfl
            exact hother body rfl
          simp [readSucceeds, hne]
      have htally : Tally.ofAttempts (fun _ => some .state) readSucceeds
          [call.attempt s.clock ending] = [(.requests .state ending.isSuccess, 1)] := by
        simp [Tally.ofAttempts, Call.attempt, hending]
      obtain ⟨haccept, -⟩ := Talk.accept_run s₁ (client.limits 0 none) .state s.clock hconcludes
      rcases haccepted : (Talk.accept (client.limits 0 none) .state s.clock result :
        Talk σ Answer).run.run s₁ with ⟨accepted, s₂⟩
      rw [haccepted] at haccept
      have hasks : s.Asks s₂ .get False (some .state) readSucceeds {} := by
        refine ⟨[call.attempt s.clock ending], ?_, .of_grows ?_⟩
        · exact List.forall_mem_singleton.mpr ⟨rfl, fun h => hending.1 h⟩
        · rw [htally]
          exact hsend.trans haccept
      simp only [Talk.run_bind, haccepted]
      cases accepted with
      | error fault => exact ⟨_, _, rfl, hasks⟩
      | ok answer =>
        obtain ⟨hdecode, -⟩ := Talk.decode_run s₂ (client.limits 0 none)
          (Envelope.shape "" .text).reader s.clock answer
        rcases hdecoded : (Talk.decode (Envelope.shape "" .text).reader (client.limits 0 none)
          s.clock answer : Talk σ (Envelope String)).run.run s₂ with ⟨decoded, s₃⟩
        rw [hdecoded] at hdecode
        have hasks' := hasks.trans (.of_eq hdecode.attempts hdecode.tally)
        simp only [hdecoded]
        cases decoded with
        | error fault => exact ⟨_, _, rfl, hasks'⟩
        | ok envelope =>
          simp only
          cases decodeData envelope.data with
          | error fault => exact ⟨_, _, rfl, hasks'⟩
          | ok octets => exact ⟨_, _, rfl, hasks'⟩

theorem probe_asks (url : String) : ∃ result s', (client.probe node url).run.run s = (result, s') ∧
    s.Asks s' .get False none Ending.isSuccess {} := by
  obtain ⟨answered, s₁, hrun, hasks⟩ := Talk.send_asks node s (client.limits 0 none) { url }
  unfold probe
  simp only [Talk.run_bind, hrun]
  cases answered with
  | error fault => exact ⟨_, _, rfl, hasks.imp nofun⟩
  | ok answer =>
    cases answer with
    | error fault => exact ⟨_, _, rfl, hasks.imp nofun⟩
    | ok answer => exact ⟨_, _, rfl, hasks.imp nofun⟩

theorem isAvailable_asks : ∃ result s', (client.isAvailable node).run.run s = (result, s') ∧
    s.Asks s' .get False none Ending.isSuccess {} := by
  obtain ⟨shown, s₁, hrun, hasks⟩ := probe_asks node client s (client.base ++ "/blocks")
  unfold isAvailable
  simp only [Talk.run_bind, hrun]
  cases shown with
  | error fault => exact ⟨_, _, rfl, hasks⟩
  | ok status => exact ⟨_, _, rfl, hasks⟩

theorem attemptProbe_asks (url : String) (status : Nat) (step : Duration) (left attempt : Nat) :
    ∃ result s', (client.attemptProbe node url status step left attempt).run.run s = (result, s') ∧
      s.Asks s' .get False none Ending.isSuccess {} := by
  induction left generalizing s attempt with
  | zero => exact ⟨_, _, rfl, .of_eq rfl rfl⟩
  | succ left ih =>
    obtain ⟨shown, s₁, hrun, hasks⟩ := probe_asks node client s url
    unfold attemptProbe
    simp only [Talk.run_bind, hrun]
    cases shown with
    | error fault => exact ⟨_, _, rfl, hasks⟩
    | ok shown =>
      simp only
      split
      · exact ⟨_, _, rfl, hasks⟩
      split
      · simp only [Talk.run_bind, Talk.run_sleep]
        have hslept := hasks.trans
          (.later s₁ (s₁.clock + (linearBackoff (UInt32.ofNat attempt) step).toMillis))
        obtain ⟨result, s₂, hmore, hasks'⟩ := ih _ (attempt + 1)
        exact ⟨_, _, hmore, hslept.trans hasks'⟩
      · obtain ⟨result, s₂, hmore, hasks'⟩ := ih s₁ (attempt + 1)
        exact ⟨_, _, hmore, hasks.trans hasks'⟩

theorem waitForNode_asks (endpoint : String) (tries : UInt32) (step : Duration) :
    ∃ result s', (client.waitForNode node endpoint tries step).run.run s = (result, s') ∧
      s.Asks s' .get False none Ending.isSuccess {} := by
  unfold waitForNode
  cases Endpoint.base endpoint with
  | error problem => exact ⟨_, _, rfl, .of_eq rfl rfl⟩
  | ok base =>
    obtain ⟨shown, s₁, hrun, hasks⟩ :=
      attemptProbe_asks node client s (base ++ "/blocks") 200 step tries.toNat 1
    simp only [waitForStatus, Talk.run_bind, hrun]
    cases shown with
    | error fault => exact ⟨_, _, rfl, hasks⟩
    | ok shown =>
      cases shown with
      | true => exact ⟨_, _, rfl, hasks⟩
      | false => exact ⟨_, _, rfl, hasks⟩

end CertRegistry.Rest.Client
