import CertRegistry.Proofs.Rest.Attempts
import CertRegistry.Proofs.Stages
import CertRegistry.Registry.Client

/-!
# Waits that are too long

Only the request for statuses can ask to wait longer than any duration. It then fails before
anything is sent or counted, and no other request fails that way.
-/

namespace CertRegistry

open Rest

namespace Rest

variable {σ α β : Type}

/-- Whether a conversation never ends because a wait is too long. -/
def Talk.WaitsFit (talk : Talk σ α) : Prop := ∀ s, (talk.run.run s).1 ≠ .error .waitTooLong

namespace Talk.WaitsFit

theorem pure (a : α) : WaitsFit (pure a : Talk σ α) := nofun

theorem throw {fault : Fault} (h : fault ≠ .waitTooLong) : WaitsFit (throw fault : Talk σ α) :=
  fun _ heq => h (Except.error.inj heq)

theorem modify (change : Session σ → Session σ) : WaitsFit (modify change : Talk σ Unit) := nofun

theorem bind {talk : Talk σ α} {next : α → Talk σ β} (h : talk.WaitsFit)
    (h' : ∀ a, (next a).WaitsFit) : (talk >>= next).WaitsFit := by
  intro s
  have hfirst := h s
  rw [Talk.run_bind]
  rcases hrun : talk.run.run s with ⟨result, s'⟩
  rw [hrun] at hfirst
  cases result with
  | ok a => exact h' a s'
  | error fault => exact fun heq => hfirst (congrArg Except.error (Except.error.inj heq))

theorem ofExcept {x : Except Fault α} (h : x ≠ .error .waitTooLong) :
    WaitsFit (ofExcept x : Talk σ α) := by
  cases x with
  | ok a => exact pure a
  | error fault => exact throw fun heq => h (congrArg Except.error heq)

theorem forIn {xs : List α} {body : α → PUnit → Talk σ (ForInStep PUnit)}
    (h : ∀ x u, (body x u).WaitsFit) : WaitsFit (forIn xs PUnit.unit body) := by
  induction xs with
  | nil => exact pure _
  | cons x xs ih =>
    rw [List.forIn_cons]
    refine bind (h x _) fun step => ?_
    cases step with
    | done u => exact pure _
    | yield u => exact ih

end Talk.WaitsFit

/-! ## Requests -/

variable {node : Node σ}

theorem Fault.OfRequest.ne_waitTooLong {limits : Limits} {fault : Fault}
    (h : fault.OfRequest limits) (hdeadline : limits.deadline = none) : fault ≠ .waitTooLong := by
  cases h with
  | deadline h =>
    rw [hdeadline] at h
    cases h
  | _ => nofun

theorem Talk.waitsFit_request {limits : Limits} (hdeadline : limits.deadline = none)
    (resource : Resource) (reader : Json.Reader α) (call : Call) :
    (request node limits resource reader call).WaitsFit := by
  intro s heq
  obtain ⟨_, -, -, -, hfault⟩ := request_run s node limits call resource reader
  exact (hfault _ heq).ne_waitTooLong hdeadline rfl

theorem Talk.waitsFit_send {limits : Limits} (hdeadline : limits.deadline = none) (call : Call) :
    (send node limits call).WaitsFit := by
  intro s heq
  obtain ⟨_, hconcludes, -⟩ := send_concludes s node limits call
  rw [heq] at hconcludes
  generalize hfault : Fault.waitTooLong = fault at hconcludes
  cases hconcludes with
  | abandoned h =>
    rw [hdeadline] at h
    cases h

namespace Client

variable {client : Client}

theorem waitsFit_sendBatches (batches : BatchList) : (client.sendBatches node batches).WaitsFit :=
  .bind (Talk.waitsFit_request rfl _ _ _) fun _ => .bind (.modify _) fun _ => .pure _

/-- A wait that is too long fails before anything is sent or counted. -/
theorem run_statuses_of_le {ids : List String} {wait : Option Nat} {deadline : Option Deadline}
    (h : UInt64.size ≤ client.timeoutSeconds + wait.getD 0) (s : Session σ) :
    (client.statuses node ids wait deadline).run.run s = (.error .waitTooLong, s) := by
  unfold statuses
  rw [if_pos h]
  rfl

theorem waitsFit_statuses {ids : List String} {wait : Option Nat}
    (h : client.timeoutSeconds + wait.getD 0 < UInt64.size) :
    (client.statuses node ids wait : Talk σ _).WaitsFit := by
  unfold statuses
  rw [if_neg (Nat.not_le_of_lt h)]
  refine .bind (Talk.waitsFit_request rfl _ _ _) fun envelope => ?_
  exact .bind (.forIn fun _ _ => .bind (.modify _) fun _ => .pure _) fun _ => .pure _

theorem decodeEntry_ne_waitTooLong (entry : EncodedEntry) :
    decodeEntry entry ≠ .error .waitTooLong := by
  unfold decodeEntry decodeData
  cases Base64.decode entry.data with
  | ok octets => exact nofun
  | error fault => exact nofun

theorem waitsFit_statePages (pages : Nat) (url : String) :
    (client.statePages node pages url).WaitsFit := by
  induction pages generalizing url with
  | zero => exact .throw nofun
  | succ pages ih =>
    refine .bind (Talk.waitsFit_request rfl _ _ _) fun page => ?_
    refine .bind (.ofExcept fun h => ?_) fun entries => ?_
    · obtain ⟨entry, -, hentry⟩ := exists_of_mapM_eq_error h
      exact decodeEntry_ne_waitTooLong entry hentry
    · cases page.next? with
      | none => exact .pure _
      | some next => exact .bind (ih next) fun _ => .pure _

theorem waitsFit_probe (url : String) : (client.probe node url).WaitsFit := by
  refine .bind (Talk.waitsFit_send rfl _) fun result => ?_
  cases result with
  | ok answer => exact .pure _
  | error fault => exact .pure _

theorem waitsFit_attemptProbe (url : String) (status : Nat) (step : Duration) (left attempt : Nat) :
    (client.attemptProbe node url status step left attempt).WaitsFit := by
  induction left generalizing attempt with
  | zero => exact .pure _
  | succ left ih =>
    refine .bind (waitsFit_probe url) fun shown => ?_
    split
    · exact .pure _
    · simp only
      split
      · exact .bind (.modify _) fun _ => ih _
      · exact ih _

theorem waitsFit_waitForNode (endpoint : String) (tries : UInt32) (step : Duration) :
    (client.waitForNode node endpoint tries step).WaitsFit := by
  unfold waitForNode
  cases Endpoint.base endpoint with
  | error problem => exact .throw nofun
  | ok base =>
    refine .bind (waitsFit_attemptProbe _ _ _ _ _) fun available => ?_
    cases available with
    | true => exact .pure _
    | false => exact .throw nofun

end Client

end Rest

namespace RegistryClient

variable {σ : Type} {node : Node σ} {client : RegistryClient}

theorem agentsOf_ne_waitTooLong (entries : List StateEntry) :
    agentsOf entries ≠ .error .waitTooLong := by
  intro h
  rcases bind_eq_error.mp h with h | ⟨containers, -, h⟩
  · obtain ⟨entry, -, hentry⟩ := exists_of_mapM_eq_error h
    split at hentry
    · cases hentry
    · cases hentry
  · cases h

theorem waitsFit_createAgent
    (h : client.rest.timeoutSeconds + client.statusWaitSeconds < UInt64.size)
    (signer : Signer) (nonce : Bytes) (name : Option String) (timestamp : UInt64) :
    (client.createAgent node signer nonce name timestamp).WaitsFit :=
  .bind (Client.waitsFit_sendBatches _) fun _ => Client.waitsFit_statuses h

theorem waitsFit_fetchAgent (pages : Nat) (publicKey : String) :
    (client.fetchAgent node pages publicKey).WaitsFit :=
  .bind (Client.waitsFit_statePages _ _) fun entries =>
    .bind (.ofExcept (agentsOf_ne_waitTooLong entries)) fun _ => .pure _

theorem waitsFit_listAgents (pages : Nat) : (client.listAgents node pages).WaitsFit :=
  .bind (Client.waitsFit_statePages _ _) fun entries =>
    .ofExcept (agentsOf_ne_waitTooLong entries)

end RegistryClient

end CertRegistry
