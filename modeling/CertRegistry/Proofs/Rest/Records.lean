import CertRegistry.Proofs.Rest.Accounts
import CertRegistry.Proofs.Rest.Exchanges
import CertRegistry.Rest.Client

/-!
# Records of requests

A node may keep a record of what it is asked, which changes nothing about its replies. A question
for the statuses of batches leaves one request in the record, or none if it cannot be sent.
-/

namespace CertRegistry.Rest

variable {σ α : Type}

/-- The node that also keeps a record of the requests that it gets, the last one last. -/
def Node.recording (node : Node σ) : Node (σ × List Request) where
  reachable s url := node.reachable s.1 url
  reply s request :=
    let (reply, after) := node.reply s.1 request
    (reply, after, s.2 ++ [request])

/-! ## What a call leaves behind -/

namespace Call

variable {node : Node σ} {seconds : Nat} {reader : Json.Reader α} {call : Call} {before after : σ}
  {result : Except Fault α} {ending : Ending} {url : Url}

theorem Unanswered.after_eq {fault : TransportFault}
    (h : call.Unanswered node seconds before fault after)
    (hgoes : call.GoesOut node seconds before url) :
    after = (node.reply before (call.request url)).2 := by
  cases h with
  | unparsed hparse =>
    rw [hgoes.parse] at hparse
    cases hparse
  | unsendable hparse hsendable =>
    rw [hgoes.parse] at hparse
    cases hparse
    rw [hgoes.sendable] at hsendable
    cases hsendable
  | unreached hparse _ hnever =>
    rw [hgoes.parse] at hparse
    cases hparse
    rcases hnever with hseconds | hreachable
    · exact absurd hseconds hgoes.seconds
    · rw [hgoes.reachable] at hreachable
      cases hreachable
  | late hgoes' hreply =>
    obtain rfl := hgoes.unique hgoes'
    rw [hreply]

theorem Answered.after_eq {delay : Nat} {answer : Answer}
    (h : call.Answered node seconds before delay answer after)
    (hgoes : call.GoesOut node seconds before url) :
    after = (node.reply before (call.request url)).2 := by
  obtain ⟨url', hgoes', hreply⟩ := h.reply
  obtain rfl := hgoes.unique hgoes'
  rw [hreply]

/-- A call that goes out is one request to the node. -/
theorem ComesTo.after_eq (h : call.ComesTo node seconds reader before result ending after)
    (hgoes : call.GoesOut node seconds before url) :
    after = (node.reply before (call.request url)).2 := by
  cases h with
  | unanswered h => exact h.after_eq hgoes
  | refused h => exact h.after_eq hgoes
  | cutOff h => exact h.after_eq hgoes
  | unreadable h => exact h.after_eq hgoes
  | read h => exact h.after_eq hgoes

/-- A call that does not go out leaves the node alone. -/
theorem ComesTo.eq_before (h : call.ComesTo node seconds reader before result ending after)
    (hnever : ∀ url, ¬ call.GoesOut node seconds before url) : after = before := by
  have hunanswered : ∀ {delay answer}, ¬ call.Answered node seconds before delay answer after := by
    intro delay answer hanswered
    obtain ⟨url, hgoes, -⟩ := hanswered.reply
    exact hnever url hgoes
  cases h with
  | unanswered h =>
    cases h with
    | late hgoes => exact absurd hgoes (hnever _)
    | _ => rfl
  | refused h => exact absurd h hunanswered
  | cutOff h => exact absurd h hunanswered
  | unreadable h => exact absurd h hunanswered
  | read h => exact absurd h hunanswered

/-- What a call adds to the record of a node. -/
theorem ComesTo.record {before after : σ × List Request}
    (h : call.ComesTo node.recording seconds reader before result ending after)
    (hseconds : seconds ≠ 0) (hparse : Url.parse call.url = .ok url) :
    after.2 = before.2 ++
      if isSendable url = true ∧ node.reachable before.1 url = true then [call.request url]
      else [] := by
  split
  next hout =>
    have hgoes : call.GoesOut node.recording seconds before url :=
      ⟨hparse, hout.1, hseconds, hout.2⟩
    rw [h.after_eq hgoes]
    rfl
  next hout =>
    have hnever : ∀ url, ¬ call.GoesOut node.recording seconds before url := by
      intro other hgoes
      obtain rfl := Except.ok.inj (hparse.symm.trans hgoes.parse)
      exact hout ⟨hgoes.sendable, hgoes.reachable⟩
    rw [h.eq_before hnever, List.append_nil]

end Call

/-! ## Asking for statuses -/

/-- The statuses of batches are asked for in one request, which has all the ids. -/
theorem Client.statuses_record (node : Node σ) {client : Client} {ids : List String}
    {wait : Option Nat} {url : Url} (hwait : client.timeoutSeconds + wait.getD 0 < UInt64.size)
    (hseconds : client.timeoutSeconds ≠ 0)
    (hparse : Url.parse (client.statusesUrl ids wait) = .ok url)
    (s : Session (σ × List Request)) : ∃ result s',
    (client.statuses node.recording ids wait).run.run s = (result, s') ∧
      s'.node.2 = s.node.2 ++
        if isSendable url = true ∧ node.reachable s.node.1 url = true then
          [{ method := .get, url := { url with credentials := [], fragment := none } }]
        else [] := by
  obtain ⟨received, s', hrun, ending, hcomes, -⟩ := Talk.request_makes s node.recording
    { url := client.statusesUrl ids wait }
    (show (client.limits (wait.getD 0) none).deadline = none from rfl) .batchStatuses
    (Envelope.shape [] (.list BatchStatus.shape.reader)).reader
  have hpatient : (client.limits (wait.getD 0) none).seconds ≠ 0 :=
    fun hzero => hseconds (Nat.eq_zero_of_add_eq_zero_right hzero)
  have hrecord := hcomes.record hpatient hparse
  unfold Client.statuses
  rw [if_neg (Nat.not_le.mpr hwait)]
  simp only [Client.requestData]
  rw [Talk.run_bind, hrun]
  cases received with
  | error fault => exact ⟨_, _, rfl, hrecord⟩
  | ok envelope =>
    simp only [Talk.run_bind, Talk.run_forIn_count]
    exact ⟨_, _, rfl, hrecord⟩

end CertRegistry.Rest
