import CertRegistry.Proofs.Node.Serving
import CertRegistry.Proofs.Registry.Addresses

/-!
# Agents are found where they are stored

Addresses have the same number of digits, so an address names only the entry under it, and the
digits that all addresses of agents start with name all entries. A client that asks for the agent
with a key gets the agent that the node stores, and one that asks for all gets each of them once.
-/

namespace CertRegistry

open Rest Rest.Talk

/-! ## Addresses -/

namespace Address

theorem length_ofAgent (publicKey : String) : (ofAgent publicKey).length = 70 :=
  length_ofKey .agent publicKey

theorem isDigit_ofAgent (publicKey : String) : ∀ c ∈ (ofAgent publicKey).toList, Hex.IsDigit c :=
  isDigit_of_mem_ofKey .agent publicKey

theorem typePrefix_isPrefixOf (publicKey : String) :
    (typePrefix .agent).toList.isPrefixOf (ofAgent publicKey).toList = true :=
  List.isPrefixOf_iff_prefix.mpr (typePrefix_prefix_ofKey .agent publicKey)

/-- Of addresses with the same number of digits none is the beginning of another one. -/
theorem isPrefixOf_ofAgent_iff {key key' : String} :
    (ofAgent key).toList.isPrefixOf (ofAgent key').toList = true ↔ ofAgent key' = ofAgent key := by
  rw [List.isPrefixOf_iff_prefix]
  constructor
  · intro h
    have hlength : (ofAgent key).toList.length = (ofAgent key').toList.length := by
      rw [String.length_toList, String.length_toList, length_ofAgent, length_ofAgent]
    exact (String.toList_inj.mp (h.eq_of_length hlength)).symm
  · intro h
    exact ⟨[], by rw [List.append_nil, h]⟩

end Address

namespace Ledger

/-! ## Entries -/

theorem Sound.exists_key {state : List (String × Bytes)} (hs : Sound state)
    {entry : String × Bytes} (h : entry ∈ state) : ∃ key, Address.ofAgent key = entry.1 := by
  obtain ⟨hkept, -⟩ := hs.agentsAt_of_mem h
  obtain ⟨agent, hagent⟩ := List.exists_mem_of_ne_nil _ hkept.nonempty
  exact ⟨agent.publicKey, hkept.addressed agent hagent⟩

/-- The digits of an address name the entry under it and no other. -/
theorem Sound.filter_isPrefixOf {state : List (String × Bytes)} (hs : Sound state) (key : String) :
    (state.filter fun entry => (Address.ofAgent key).toList.isPrefixOf entry.1.toList) =
      state.filter fun entry => entry.1 = Address.ofAgent key := by
  refine List.filter_congr fun entry hentry => ?_
  obtain ⟨key', hkey'⟩ := hs.exists_key hentry
  rw [← hkey', Bool.eq_iff_iff, Address.isPrefixOf_ofAgent_iff, decide_eq_true_eq]

theorem Sound.filter_typePrefix {state : List (String × Bytes)} (hs : Sound state) :
    (state.filter fun entry => (Address.typePrefix .agent).toList.isPrefixOf entry.1.toList) =
      state := by
  rw [List.filter_eq_self]
  intro entry hentry
  obtain ⟨key, hkey⟩ := hs.exists_key hentry
  rw [← hkey]
  exact Address.typePrefix_isPrefixOf key

theorem Ordered.agents_filter {state : List (String × Bytes)} (h : Ordered state)
    (address : String) :
    agents (state.filter fun entry => entry.1 = address) = agentsAt state address := by
  rw [h.filter_address, agentsAt]
  cases state.lookup address with
  | none => rfl
  | some data => exact List.append_nil _

theorem agentsOf_cons {entry : StateEntry} {entries : List StateEntry} {container : AgentContainer}
    {agents : List Agent} (hdecode : AgentContainer.schema.decode entry.data = .ok container)
    (h : RegistryClient.agentsOf entries = .ok agents) :
    RegistryClient.agentsOf (entry :: entries) = .ok (container.entries ++ agents) := by
  obtain ⟨containers, hcontainers, hagents⟩ := bind_eq_ok.mp h
  rw [← Except.ok.inj hagents]
  refine bind_eq_ok.mpr ⟨container :: containers, ?_, rfl⟩
  rw [List.mapM_cons, hcontainers]
  simp only [hdecode]
  rfl

/-- A client reads the agents in any part of the state. -/
theorem Sound.agentsOf_filter {state : List (String × Bytes)} (hs : Sound state)
    (p : String × Bytes → Bool) :
    RegistryClient.agentsOf ((state.filter p).map fun (address, data) => { address, data }) =
      .ok (agents (state.filter p)) := by
  have hmem : ∀ entry ∈ state.filter p, entry ∈ state :=
    fun entry hentry => (List.mem_filter.mp hentry).1
  generalize state.filter p = entries at hmem
  induction entries with
  | nil => rfl
  | cons entry entries ih =>
    have hentry := hmem entry List.mem_cons_self
    have hrest := ih fun e he => hmem e (List.mem_cons_of_mem _ he)
    rw [agents, List.flatMap_cons, hs.agentsIn_of_mem hentry]
    exact agentsOf_cons (hs.decode_of_mem hentry) hrest

end Ledger

/-! ## What a client finds -/

namespace RegistryClient

open Ledger

variable {client : RegistryClient} {port now : Nat} {ledger : Ledger}

theorem ends_fetchAgent (hclient : client.rest.IsLocal port) (hs : Sound ledger.state)
    (pages : Nat) (publicKey : String) :
    Ends (client.fetchAgent node (pages + 1) publicKey) now ledger
      ((agentsAt ledger.state (Address.ofAgent publicKey)).find? (·.publicKey = publicKey))
      ledger := by
  have hagents := hs.agentsOf_filter fun entry =>
    (Address.ofAgent publicKey).toList.isPrefixOf entry.1.toList
  have hfound : agents (ledger.state.filter fun entry =>
      (Address.ofAgent publicKey).toList.isPrefixOf entry.1.toList) =
      agentsAt ledger.state (Address.ofAgent publicKey) := by
    rw [hs.filter_isPrefixOf, hs.ordered.agents_filter]
  have hlength := Nat.le_of_eq (Address.length_ofAgent publicKey)
  refine Ends.bind (ends_listState hclient
    (fun c hc => (Address.isDigit_ofAgent publicKey c hc).isAny)
    (isSendable_stateQuery hclient.port_lt hlength) pages) ?_
  rw [hfound] at hagents
  exact Ends.bind (Ends.ofExcept hagents) (Ends.pure _)

theorem ends_listAgents (hclient : client.rest.IsLocal port) (hs : Sound ledger.state)
    (pages : Nat) :
    Ends (client.listAgents node (pages + 1)) now ledger (agents ledger.state) ledger := by
  have hlength : (Address.typePrefix .agent).length ≤ 70 := by
    rw [Address.length_typePrefix]
    decide
  have hagents := hs.agentsOf_filter fun entry =>
    (Address.typePrefix .agent).toList.isPrefixOf entry.1.toList
  have hfound : agents (ledger.state.filter fun entry =>
      (Address.typePrefix .agent).toList.isPrefixOf entry.1.toList) = agents ledger.state :=
    congrArg agents hs.filter_typePrefix
  refine Ends.bind (ends_listState hclient
    (fun c hc => (Address.isDigit_of_mem_typePrefix .agent c hc).isAny)
    (isSendable_stateQuery hclient.port_lt hlength) pages) ?_
  rw [hfound] at hagents
  exact Ends.ofExcept hagents

end RegistryClient

end CertRegistry
