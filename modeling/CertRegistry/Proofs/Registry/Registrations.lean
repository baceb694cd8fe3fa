import CertRegistry.Proofs.Ledger.Sizes
import CertRegistry.Proofs.Registry.Lookup
import CertRegistry.Registry.Registration
import Mathlib.Data.List.Induction

/-!
# Registering agents

Signers register one after the other at a node that starts empty. The first one with a name and a
key of its own gets in and stays, and all others are told why they do not. The invariant carries
that what is stored under an address are the agents that got in and belong there, in the order in
which they did, so keys may well share an address.
-/

namespace CertRegistry

open Rest Rest.Talk Wire

namespace Registration

/-- The agent that the signer wants to be. -/
def agent (r : Registration) : Agent where
  publicKey := r.signer.publicKeyHex
  name := r.name.getD ""
  organizationId := ""
  timestamp := r.timestamp

/-- Whether there is a name with something in it. -/
def IsNamed (r : Registration) : Prop := ∃ name, r.name = some name ∧ name ≠ ""

theorem isNamed_iff (r : Registration) : r.IsNamed ↔ r.agent.name ≠ "" := by
  constructor
  · rintro ⟨name, hname, hne⟩
    rwa [agent, hname]
  · intro h
    cases hname : r.name with
    | none => simp [agent, hname] at h
    | some name => exact ⟨name, hname, by simpa [agent, hname] using h⟩

end Registration

namespace RegistryClient

/-- Whether a client asks the node at a port of this machine, and the time that it waits for an
answer can be counted. -/
structure IsLocal (client : RegistryClient) (port : Nat) : Prop where
  rest : client.rest.IsLocal port
  bounded : client.rest.timeoutSeconds + client.statusWaitSeconds < UInt64.size

end RegistryClient

/-! ## What the node reads -/

/-- An empty name comes back as none. -/
theorem Action.decode_encode {name : Option String} {timestamp : UInt64}
    (h : (createAgent name timestamp).encode.length < UInt64.size) :
    decode (createAgent name timestamp).encode =
      .ok (.createAgent (if name.getD "" = "" then none else some (name.getD "")) timestamp) := by
  have hpayload := Schema.decode_encode_of_fits RegistryPayload.lawful_schema (by decide)
    (Schema.fits_of_length_encode h)
  rw [decode, encode, hpayload]
  simp only [ofPayload, payload, ActionKind.ofNumber?_number, Option.getD_some]
  rfl

namespace Registration

variable {family : Family} {r : Registration}

theorem fits_of_storable (h : (r.body family).Storable) :
    BatchList.schema.Fits { batches := [r.batch family] } :=
  Schema.fits_of_length_encode (Nat.lt_trans h (by decide))

theorem storable_transaction (h : (r.body family).Storable) :
    Bytes.Storable ((r.transaction family).header ++ (r.transaction family).payload) := by
  have hdecode := Schema.decode_encode_of_fits BatchList.lawful_schema (by decide)
    (fits_of_storable h)
  have hweight := Transaction.weight_le_of_decode hdecode (List.mem_singleton_self _)
    (show r.transaction family ∈ (r.batch family).transactions from List.mem_singleton_self _)
  rw [Bytes.Storable, List.length_append]
  exact Nat.lt_of_le_of_lt hweight h

theorem decode_header (h : (r.body family).Storable) :
    TransactionHeader.schema.decode (r.transaction family).header =
      .ok (family.header r.signer r.nonce r.order) := by
  have hlength := storable_transaction h
  rw [Bytes.Storable, List.length_append] at hlength
  refine Schema.decode_encode_of_fits TransactionHeader.lawful_schema (by decide)
    (Schema.fits_of_length_encode ?_)
  exact Nat.lt_trans (Nat.lt_of_le_of_lt (Nat.le_add_right _ _) hlength) (by decide)

theorem decode_payload (h : (r.body family).Storable) :
    Action.decode (r.transaction family).payload =
      .ok (.createAgent (if r.agent.name = "" then none else some r.agent.name) r.timestamp) := by
  have hlength := storable_transaction h
  rw [Bytes.Storable, List.length_append] at hlength
  refine Action.decode_encode ?_
  exact Nat.lt_trans (Nat.lt_of_le_of_lt (Nat.le_add_left _ _) hlength) (by decide)

theorem apply_unnamed (h : (r.body family).Storable) (hname : r.agent.name = "")
    (state : List (String × Bytes)) :
    Ledger.apply state (r.transaction family) = .error .noName := by
  simp only [Ledger.apply, decode_header h, decode_payload h, if_pos hname]

theorem apply_named (h : (r.body family).Storable) (hname : r.agent.name ≠ "")
    (state : List (String × Bytes)) :
    Ledger.apply state (r.transaction family) = Ledger.addAgent state r.agent := by
  simp only [Ledger.apply, decode_header h, decode_payload h, if_neg hname]
  rfl

theorem length_put_agent_lt (h : (r.body family).Storable) (hname : r.agent.name ≠ "") :
    (Agent.schema.codec.put r.agent).length < UInt64.size := by
  have hpayload := decode_payload h
  rw [if_neg hname] at hpayload
  exact (Ledger.agent_of_decode (storable_transaction h) (decode_header h) hpayload).2

theorem length_ofText_ofAgent (publicKey : String) :
    (Bytes.ofText (Address.ofAgent publicKey)).length = 70 := by
  rw [Bytes.length_ofText_of_isAscii fun c hc => (Address.isDigit_ofAgent publicKey c hc).isAscii,
    Address.length_ofAgent]

theorem length_header_le (hnonce : r.nonce.length = 16)
    (hsize : family.size < 0x4000000000000000) :
    (r.transaction family).header.length ≤ 680 + family.size := by
  have haddress : ∀ text ∈ r.order.inputs ++ r.order.outputs, (Bytes.ofText text).length ≤ 70 := by
    intro text htext
    simp only [order, List.mem_append, List.mem_singleton, or_self] at htext
    rw [htext, length_ofText_ofAgent]
  have hheader := family.length_header_le r.signer r.nonce r.order 70 hnonce haddress
    (Nat.lt_trans (show _ < 0x5000000000000000 by omega) (by decide))
  have hcount : (r.order.inputs.length + r.order.outputs.length) * (10 + (10 + 70)) = 180 := rfl
  rw [hcount] at hheader
  exact Nat.le_trans hheader (by omega)

theorem length_transaction_le (hnonce : r.nonce.length = 16)
    (hsize : family.size + r.order.payload.length < 0x4000000000000000) :
    (Transaction.schema.encode (r.transaction family)).length ≤
      900 + family.size + r.order.payload.length := by
  have hheader : (r.transaction family).header.length ≤ 680 + family.size :=
    length_header_le hnonce (by omega)
  have hpayload : (r.transaction family).payload = r.order.payload := rfl
  have hinner := Transaction.length_encode_le (t := r.transaction family)
    (r.signer.length_sign _)
    (Nat.lt_trans (show _ < 0x5000000000000000 by rw [hpayload]; omega) (by decide))
  rw [hpayload] at hinner
  omega

/-- What is sent is small if the payload and the names of the family are. -/
theorem storable_body (hnonce : r.nonce.length = 16)
    (hsize : family.size + r.order.payload.length < 0x4000000000000000) :
    (r.body family).Storable := by
  have hheader : (family.transaction r.signer r.nonce r.order).header.length ≤ 680 + family.size :=
    length_header_le hnonce (by omega)
  have hbatch := Batch.length_ofOrder_le family r.signer r.nonce r.order
    (Nat.lt_trans (show _ < 0x5000000000000000 by omega) (by decide))
  have hlist := BatchList.length_encode_singleton_le (b := r.batch family)
    (Nat.lt_of_le_of_lt hbatch (Nat.lt_trans (show _ < 0x5000000000000000 by omega) (by decide)))
  refine Nat.lt_of_le_of_lt (Nat.le_trans hlist (Nat.add_le_add_left hbatch 20)) ?_
  omega

theorem isAnyDigit_batchId (family : Family) (r : Registration) :
    ∀ c ∈ (r.batch family).headerSignature.toList, Hex.IsAnyDigit c :=
  fun _ hc => (Hex.isDigit_of_mem_encode hc).isAny

theorem length_batchId (family : Family) (r : Registration) :
    (r.batch family).headerSignature.length = 128 := by
  show (Hex.encode _).length = 128
  rw [Hex.length_encode]
  simp [Curve.Signature.toBytes]

end Registration

/-! ## What becomes of a registration -/

/-- A registration and what the node says about it. -/
structure Verdict where
  registration : Registration
  status : BatchStatus

/-- The agents that got in, the first one first. -/
def registered (verdicts : List Verdict) : List Agent :=
  (verdicts.filter (·.status.status = .committed)).map (·.registration.agent)

theorem mem_registered {verdicts : List Verdict} {agent : Agent} :
    agent ∈ registered verdicts ↔
      ∃ v ∈ verdicts, v.status.status = .committed ∧ v.registration.agent = agent := by
  simp only [registered, List.mem_map, List.mem_filter, decide_eq_true_eq, and_assoc]

theorem registered_concat (verdicts : List Verdict) (v : Verdict) :
    registered (verdicts ++ [v]) = registered verdicts ++
      if v.status.status = .committed then [v.registration.agent] else [] := by
  by_cases h : v.status.status = .committed <;> simp [registered, h]

/-- What a signer is told after others have registered. -/
structure Verdict.Decided (family : Family) (earlier : List Verdict) (v : Verdict) : Prop where
  id : v.status.id = (v.registration.batch family).headerSignature
  committed : v.status.status = .committed ↔ v.registration.IsNamed ∧
    ∀ e ∈ earlier, e.status.status = .committed →
      e.registration.signer.publicKeyHex ≠ v.registration.signer.publicKeyHex
  unnamed : ¬ v.registration.IsNamed →
    v.status.status = .invalid ∧ v.status.firstMessage? = some "Name was not provided"
  taken : v.registration.IsNamed → v.status.status ≠ .committed → v.status.status = .invalid ∧
    v.status.firstMessage? =
      some ("Agent already exists: " ++ v.registration.signer.publicKeyHex)

namespace Ledger

/-- The ledger after the batches of registrations. -/
def afterAll (family : Family) (registrations : List Registration) : Ledger :=
  (registrations.map (·.batch family)).foldl submit {}

theorem afterAll_concat (family : Family) (registrations : List Registration) (r : Registration) :
    afterAll family (registrations ++ [r]) =
      (afterAll family registrations).submit (r.batch family) := by
  rw [afterAll, List.map_append, List.foldl_append]
  rfl

/-- Whether the agents that got in are stored, each under the address of its key. -/
structure Reflects (verdicts : List Verdict) (state : List (String × Bytes)) : Prop where
  sound : Sound state
  stored : ∀ address, agentsAt state address =
    (registered verdicts).filter fun agent => Address.ofAgent agent.publicKey = address
  distinct : ((registered verdicts).map (·.publicKey)).Nodup

namespace Reflects

variable {family : Family} {verdicts : List Verdict} {ledger : Ledger} {r : Registration}

/-- Other keys may share the address, so it is the key that decides. -/
theorem forall_agentsAt_iff {state : List (String × Bytes)} (h : Reflects verdicts state)
    (key : String) :
    (∀ agent ∈ agentsAt state (Address.ofAgent key), agent.publicKey ≠ key) ↔
      ∀ e ∈ verdicts, e.status.status = .committed →
        e.registration.signer.publicKeyHex ≠ key := by
  rw [h.stored]
  constructor
  · intro hfree e he hcommitted hkey
    refine hfree e.registration.agent (List.mem_filter.mpr ⟨?_, ?_⟩) hkey
    · exact mem_registered.mpr ⟨e, he, hcommitted, rfl⟩
    · exact decide_eq_true (congrArg Address.ofAgent hkey)
  · intro hfree agent hagent
    obtain ⟨e, he, hcommitted, rfl⟩ := mem_registered.mp (List.mem_filter.mp hagent).1
    exact hfree e he hcommitted

theorem concat_refused {state : List (String × Bytes)} (h : Reflects verdicts state)
    {v : Verdict} (hv : v.status.status ≠ .committed) : Reflects (verdicts ++ [v]) state := by
  have hsame : registered (verdicts ++ [v]) = registered verdicts := by
    rw [registered_concat, if_neg hv, List.append_nil]
  constructor
  · exact h.sound
  · rw [hsame]
    exact h.stored
  · rw [hsame]
    exact h.distinct

theorem concat_committed {state state' : List (String × Bytes)} (h : Reflects verdicts state)
    {v : Verdict} (hv : v.status.status = .committed) (hname : v.registration.agent.name ≠ "")
    (hsize : (Agent.schema.codec.put v.registration.agent).length < UInt64.size)
    (hadd : addAgent state v.registration.agent = .ok state') :
    Reflects (verdicts ++ [v]) state' := by
  have hmore : registered (verdicts ++ [v]) = registered verdicts ++ [v.registration.agent] := by
    rw [registered_concat, if_pos hv]
  obtain ⟨hfree, -⟩ := addAgent_eq_ok.mp hadd
  constructor
  · exact h.sound.addAgent hname hsize hadd
  · intro address
    rw [agentsAt_addAgent h.sound hname hsize hadd, h.stored, hmore, List.filter_append]
    by_cases haddress : address = Address.ofAgent v.registration.agent.publicKey
    · rw [if_pos haddress, List.filter_cons_of_pos (by simp [haddress]), List.filter_nil]
    · rw [if_neg haddress, List.filter_cons_of_neg (by simpa using Ne.symm haddress),
        List.filter_nil]
  · rw [hmore]
    refine nodup_keys_concat h.distinct fun agent hagent hkey => hfree agent ?_ hkey
    rw [h.stored]
    exact List.mem_filter.mpr ⟨hagent, decide_eq_true (congrArg Address.ofAgent hkey)⟩

/-- What is stored are the agents that got in. -/
theorem perm_agents {state : List (String × Bytes)} (h : Reflects verdicts state) :
    (agents state).Perm (registered verdicts) := by
  rw [List.perm_ext_iff_of_nodup h.sound.nodup_agents.of_map h.distinct.of_map]
  intro agent
  rw [h.sound.mem_agents, h.stored, List.mem_filter, decide_eq_true_eq]
  exact and_iff_left rfl

/-- One registration more. -/
theorem submit (h : Reflects verdicts ledger.state) (hbody : (r.body family).Storable) :
    ∃ status, (ledger.submit (r.batch family)).statusOf (r.batch family).headerSignature = status ∧
      Reflects (verdicts ++ [⟨r, status⟩]) (ledger.submit (r.batch family)).state ∧
      Verdict.Decided family verdicts ⟨r, status⟩ := by
  have htransaction : (r.batch family).transactions = [r.transaction family] := rfl
  by_cases hname : r.agent.name = ""
  · obtain ⟨hstate, hstatus⟩ :=
      submit_of_apply_eq_error htransaction (Registration.apply_unnamed hbody hname ledger.state)
    have hunnamed : ¬ r.IsNamed := fun hnamed => r.isNamed_iff.mp hnamed hname
    refine ⟨_, hstatus, ?_, rfl, ?_, fun _ => ⟨rfl, rfl⟩, fun hnamed => absurd hnamed hunnamed⟩
    · rw [hstate]
      exact h.concat_refused (by simp)
    · simp [hunnamed]
  · have hnamed : r.IsNamed := r.isNamed_iff.mpr hname
    have happly := Registration.apply_named hbody hname ledger.state
    have hfree := h.forall_agentsAt_iff r.signer.publicKeyHex
    by_cases htaken : ∃ other ∈ agentsAt ledger.state (Address.ofAgent r.agent.publicKey),
        other.publicKey = r.agent.publicKey
    · obtain ⟨hstate, hstatus⟩ :=
        submit_of_apply_eq_error htransaction (happly.trans (addAgent_of_taken htaken))
      refine ⟨_, hstatus, ?_, rfl, ?_, fun h => absurd hnamed h, fun _ _ => ⟨rfl, rfl⟩⟩
      · rw [hstate]
        exact h.concat_refused (by simp)
      · simp only [reduceCtorEq, false_iff]
        rintro ⟨-, hfresh⟩
        obtain ⟨other, hother, hkey⟩ := htaken
        exact hfree.mpr hfresh other hother hkey
    · have hnone : ∀ other ∈ agentsAt ledger.state (Address.ofAgent r.agent.publicKey),
          other.publicKey ≠ r.agent.publicKey :=
        fun other hother hkey => htaken ⟨other, hother, hkey⟩
      have hadd := addAgent_of_free hnone
      obtain ⟨hstate, hstatus⟩ := submit_of_apply_eq_ok htransaction (happly.trans hadd)
      refine ⟨_, hstatus, ?_, rfl, ?_, fun h => absurd hnamed h, fun _ h => absurd rfl h⟩
      · rw [hstate]
        exact h.concat_committed rfl hname (Registration.length_put_agent_lt hbody hname) hadd
      · simp only [true_iff]
        exact ⟨hnamed, hfree.mp hnone⟩

end Reflects

end Ledger

/-! ## Runs -/

/-- What holds at every place of a list that has one element more. -/
theorem forall_splits_concat {α : Type} {P : List α → α → Prop} {xs : List α} {x : α}
    (h : ∀ earlier y later, xs = earlier ++ y :: later → P earlier y) (hlast : P xs x) :
    ∀ earlier y later, xs ++ [x] = earlier ++ y :: later → P earlier y := by
  intro earlier y later heq
  -- What comes after the element is empty or ends with the new one.
  rcases List.eq_nil_or_concat later with rfl | ⟨later, last, rfl⟩
  · obtain ⟨rfl, hsame⟩ := List.append_inj' heq rfl
    rw [← (List.cons.inj hsame).1]
    exact hlast
  · rw [List.concat_eq_append, ← List.cons_append, ← List.append_assoc] at heq
    exact h earlier y later (List.append_inj' heq rfl).1

namespace RegistryClient

open Ledger

variable {client : RegistryClient} {port now : Nat}

theorem ends_register (hclient : client.IsLocal port) {r : Registration}
    (hbody : (r.body client.family).Storable) {ledger : Ledger} {status : BatchStatus}
    (hstatus : (ledger.submit (r.batch client.family)).statusOf
      (r.batch client.family).headerSignature = status) :
    (client.register r).Ends now ledger [status] (ledger.submit (r.batch client.family)) := by
  refine Ends.bind (ends_sendBatches hclient.rest (Registration.fits_of_storable hbody)) ?_
  rw [← hstatus]
  exact ends_statuses hclient.rest hclient.bounded (r.isAnyDigit_batchId client.family)
    (r.length_batchId client.family)

/-- What holds after registrations with these verdicts, at a node that started empty. -/
structure Stands (client : RegistryClient) (now : Nat) (verdicts : List Verdict) : Prop where
  ends : ((verdicts.map (·.registration)).mapM client.register).Ends now {}
    (verdicts.map fun v => [v.status])
    (afterAll client.family (verdicts.map (·.registration)))
  reflects : Reflects verdicts (afterAll client.family (verdicts.map (·.registration))).state

namespace Stands

variable {verdicts : List Verdict}

theorem nil : Stands client now [] where
  ends := Ends.pure []
  reflects := ⟨sound_nil, fun _ => rfl, List.nodup_nil⟩

theorem concat (hclient : client.IsLocal port) (h : Stands client now verdicts) {r : Registration}
    (hbody : (r.body client.family).Storable) :
    ∃ status, Stands client now (verdicts ++ [⟨r, status⟩]) ∧
      Verdict.Decided client.family verdicts ⟨r, status⟩ := by
  obtain ⟨status, hstatus, hreflects, hdecided⟩ := h.reflects.submit hbody
  have hends := Ends.mapM_concat h.ends (ends_register hclient hbody hstatus)
  refine ⟨status, ⟨?_, ?_⟩, hdecided⟩
  · rw [List.map_append, List.map_append, List.map_singleton, List.map_singleton, afterAll_concat]
    exact hends
  · rw [List.map_append, List.map_singleton, afterAll_concat]
    exact hreflects

theorem ends_fetchAgent (hclient : client.IsLocal port) (h : Stands client now verdicts)
    (pages : Nat) (publicKey : String) :
    (client.fetchAgent node (pages + 1) publicKey).Ends now
      (afterAll client.family (verdicts.map (·.registration)))
      ((registered verdicts).find? (·.publicKey = publicKey))
      (afterAll client.family (verdicts.map (·.registration))) := by
  have hsame : (agentsAt (afterAll client.family (verdicts.map (·.registration))).state
      (Address.ofAgent publicKey)).find? (·.publicKey = publicKey) =
      (registered verdicts).find? (·.publicKey = publicKey) := by
    rw [h.reflects.stored, List.find?_filter]
    refine congrArg (fun p => (registered verdicts).find? p) (funext fun agent => ?_)
    by_cases hkey : agent.publicKey = publicKey <;> simp [hkey]
  rw [← hsame]
  exact RegistryClient.ends_fetchAgent hclient.rest h.reflects.sound pages publicKey

theorem ends_listAgents (hclient : client.IsLocal port) (h : Stands client now verdicts)
    (pages : Nat) : ∃ found : List Agent,
      (client.listAgents node (pages + 1)).Ends now
        (afterAll client.family (verdicts.map (·.registration))) found
        (afterAll client.family (verdicts.map (·.registration))) ∧
      found.Perm (registered verdicts) ∧ (found.map (·.publicKey)).Nodup :=
  ⟨_, RegistryClient.ends_listAgents hclient.rest h.reflects.sound pages, h.reflects.perm_agents,
    h.reflects.sound.nodup_agents⟩

end Stands

/-- Registrations by any signers in any order come out one by one, and every part of a run from its
beginning stands. -/
theorem exists_verdicts (hclient : client.IsLocal port) (now : Nat)
    {registrations : List Registration}
    (hbody : ∀ r ∈ registrations, (r.body client.family).Storable) :
    ∃ verdicts : List Verdict, verdicts.map (·.registration) = registrations ∧
      (∀ earlier v later, verdicts = earlier ++ v :: later →
        v.Decided client.family earlier) ∧
      ∀ earlier later, verdicts = earlier ++ later → Stands client now earlier := by
  induction registrations using List.reverseRecOn with
  | nil =>
    refine ⟨[], rfl, ?_, ?_⟩
    · intro earlier v later h
      simp at h
    · intro earlier later h
      rw [(List.append_eq_nil_iff.mp h.symm).1]
      exact Stands.nil
  | append_singleton registrations r ih =>
    obtain ⟨verdicts, hmap, hdecided, hstands⟩ :=
      ih fun r hr => hbody r (List.mem_append_left _ hr)
    have hall := hstands verdicts [] (List.append_nil _).symm
    obtain ⟨status, hmore, hlast⟩ := hall.concat hclient (hbody r (by simp))
    refine ⟨verdicts ++ [⟨r, status⟩], by simp [hmap], forall_splits_concat hdecided hlast, ?_⟩
    · intro earlier later h
      rcases List.eq_nil_or_concat later with rfl | ⟨later, last, rfl⟩
      · rw [List.append_nil] at h
        rwa [← h]
      · rw [List.concat_eq_append, ← List.append_assoc] at h
        exact hstands earlier later (List.append_inj' h rfl).1

/-- What a run comes to: each call has returned the status of its batch, and the agents that got in
are found and listed. -/
structure Served (client : RegistryClient) (now : Nat) (verdicts : List Verdict) (ledger : Ledger) :
    Prop where
  ends : ((verdicts.map (·.registration)).mapM client.register).Ends now {}
    (verdicts.map fun v => [v.status]) ledger
  found : ∀ pages publicKey, (client.fetchAgent node (pages + 1) publicKey).Ends now ledger
    ((registered verdicts).find? (·.publicKey = publicKey)) ledger
  listed : ∀ pages, ∃ agents : List Agent,
    (client.listAgents node (pages + 1)).Ends now ledger agents ledger ∧
      agents.Perm (registered verdicts) ∧ (agents.map (·.publicKey)).Nodup

/-- Whoever registers with a name and a key that nobody got in with before gets in, all others are
told why not, and at each moment exactly those that got in are found, under keys that may share
their addresses. -/
theorem registrations_decided (hclient : client.IsLocal port) (now : Nat)
    (registrations : List Registration)
    (hbody : ∀ r ∈ registrations, (r.body client.family).Storable) :
    ∃ verdicts : List Verdict, verdicts.map (·.registration) = registrations ∧
      (∀ earlier v later, verdicts = earlier ++ v :: later →
        v.Decided client.family earlier) ∧
      ∀ earlier later, verdicts = earlier ++ later → client.Served now earlier
        (afterAll client.family (earlier.map (·.registration))) := by
  obtain ⟨verdicts, hmap, hdecided, hstands⟩ := exists_verdicts hclient now hbody
  refine ⟨verdicts, hmap, hdecided, fun earlier later h => ?_⟩
  have hearlier := hstands earlier later h
  exact ⟨hearlier.ends, hearlier.ends_fetchAgent hclient, hearlier.ends_listAgents hclient⟩

end RegistryClient

/-- Someone registers, under a name or not. -/
def Registration.sample (name : Option String) : Registration where
  signer := .least
  nonce := List.replicate 16 0xab
  name := name
  timestamp := 1

def RegistryClient.sample : RegistryClient where
  rest := { base := Url.localBase 8008, timeoutSeconds := 10 }
  family := { name := familyName, version := familyVersion }
  statusWaitSeconds := 5

/-- Who was not let in without a name comes back with one, and has no second try. -/
theorem RegistryClient.registrations_decided_sample : ∃ verdicts : List Verdict,
    verdicts.map (·.registration) = [.sample none, .sample (some "Ada"), .sample (some "Eve")] ∧
    verdicts.map (·.status.status) = [.invalid, .committed, .invalid] ∧
    RegistryClient.sample.Served 0 verdicts
      (Ledger.afterAll RegistryClient.sample.family (verdicts.map (·.registration))) := by
  have hclient : RegistryClient.sample.IsLocal 8008 :=
    ⟨⟨by decide, rfl, by decide⟩, by decide⟩
  have hbody : ∀ r ∈ [Registration.sample none, .sample (some "Ada"), .sample (some "Eve")],
      (r.body RegistryClient.sample.family).Storable := by
    simp only [List.forall_mem_cons]
    exact ⟨Registration.storable_body rfl (by decide +kernel),
      Registration.storable_body rfl (by decide +kernel),
      Registration.storable_body rfl (by decide +kernel), List.forall_mem_nil _⟩
  obtain ⟨verdicts, hmap, hdecided, hserved⟩ :=
    RegistryClient.registrations_decided hclient 0 _ hbody
  refine ⟨verdicts, hmap, ?_, hserved verdicts [] (List.append_nil _).symm⟩
  obtain ⟨first, rest, rfl, hfirst, hrest⟩ := List.map_eq_cons_iff.mp hmap
  obtain ⟨second, rest, rfl, hsecond, hrest⟩ := List.map_eq_cons_iff.mp hrest
  obtain ⟨third, rest, rfl, hthird, hrest⟩ := List.map_eq_cons_iff.mp hrest
  obtain rfl := List.map_eq_nil_iff.mp hrest
  have hunnamed : ¬ first.registration.IsNamed := by
    rw [hfirst]
    rintro ⟨name, hname, -⟩
    cases hname
  have h₁ := ((hdecided [] first [second, third] rfl).unnamed hunnamed).1
  have h₂ : second.status.status = .committed := by
    refine (hdecided [first] second [third] rfl).committed.mpr ⟨?_, ?_⟩
    · rw [hsecond]
      exact ⟨"Ada", rfl, by decide⟩
    · intro e he hcommitted
      rw [List.mem_singleton.mp he, h₁] at hcommitted
      cases hcommitted
  have hnamed : third.registration.IsNamed := by
    rw [hthird]
    exact ⟨"Eve", rfl, by decide⟩
  have h₃ : third.status.status = .invalid := by
    have hthird' := hdecided [first, second] third [] rfl
    refine (hthird'.taken hnamed fun hcommitted => ?_).1
    refine (hthird'.committed.mp hcommitted).2 second (by simp) h₂ ?_
    rw [hsecond, hthird]
    rfl
  simp [h₁, h₂, h₃]

end CertRegistry
