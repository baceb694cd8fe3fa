import CertRegistry.Proofs.Node.Storage
import CertRegistry.Proofs.Wire.Weights
import Mathlib.Data.List.Nodup
import Mathlib.Data.List.Flatten

/-!
# The agents that a node stores

Whatever a node is sent, what it stores under an address reads as the agents whose keys belong
there, each with a name and none twice, and agents are only ever added behind those that are there.
The invariant carries that every stored agent can be read back: an entry that could not be read
would count as empty, and the agents in it would be lost with the next one that is put there.
-/

namespace CertRegistry.Ledger

open Wire

/-- What belongs under an address. -/
structure Kept (address : String) (agents : List Agent) : Prop where
  nonempty : agents ≠ []
  addressed : ∀ agent ∈ agents, Address.ofAgent agent.publicKey = address
  named : ∀ agent ∈ agents, agent.name ≠ ""
  distinct : (agents.map (·.publicKey)).Nodup
  countable : ∀ agent ∈ agents, (Agent.schema.codec.put agent).length < UInt64.size

/-- Every entry is in its place and holds what belongs there. -/
structure Sound (state : List (String × Bytes)) : Prop where
  ordered : Ordered state
  kept : ∀ entry ∈ state, ∃ agents, Kept entry.1 agents ∧
    entry.2 = AgentContainer.schema.encode { entries := agents }

/-- Agents are only added, behind those under the same address. -/
def Grows (before after : List (String × Bytes)) : Prop :=
  ∀ address, agentsAt before address <+: agentsAt after address

theorem Grows.refl (state : List (String × Bytes)) : Grows state state :=
  fun _ => List.prefix_rfl

theorem Grows.trans {s₁ s₂ s₃ : List (String × Bytes)} (h : Grows s₁ s₂) (h' : Grows s₂ s₃) :
    Grows s₁ s₃ :=
  fun address => (h address).trans (h' address)

theorem sound_nil : Sound [] where
  ordered := List.Pairwise.nil
  kept _ h := by cases h

/-! ## Reading what is stored -/

theorem decode_container {agents : List Agent}
    (h : ∀ agent ∈ agents, (Agent.schema.codec.put agent).length < UInt64.size) :
    AgentContainer.schema.decode (AgentContainer.schema.encode { entries := agents }) =
      .ok { entries := agents } := by
  refine Schema.decode_encode_of_fits AgentContainer.lawful_schema (by decide) ?_
  simp only [Schema.Fits, AgentContainer.schema, List.forall_mem_cons]
  exact ⟨Field.fits_repeated h, List.forall_mem_nil _⟩

theorem agentsAt_put {state : List (String × Bytes)} {agents : List Agent}
    (h : ∀ agent ∈ agents, (Agent.schema.codec.put agent).length < UInt64.size)
    (address other : String) :
    agentsAt (put address (AgentContainer.schema.encode { entries := agents }) state) other =
      if other = address then agents else agentsAt state other := by
  unfold agentsAt
  rw [lookup_put]
  by_cases heq : other = address
  · simp [heq, decode_container h, Except.toOption]
  · simp [heq]

namespace Sound

variable {state : List (String × Bytes)}

theorem agentsAt_of_mem (hs : Sound state) {address : String} {data : Bytes}
    (h : (address, data) ∈ state) : Kept address (agentsAt state address) ∧
      data = AgentContainer.schema.encode { entries := agentsAt state address } := by
  obtain ⟨agents, hkept, hdata⟩ := hs.kept _ h
  simp only at hkept hdata
  have hagents : agentsAt state address = agents := by
    unfold agentsAt
    rw [hs.ordered.lookup_eq_some_iff.mpr h]
    simp [hdata, decode_container hkept.countable, Except.toOption]
  rw [hagents]
  exact ⟨hkept, hdata⟩

/-- Nothing is stored under an address, or what belongs there. -/
theorem agentsAt_eq_nil_or_kept (hs : Sound state) (address : String) :
    agentsAt state address = [] ∨ Kept address (agentsAt state address) := by
  cases hlookup : state.lookup address with
  | none =>
    left
    simp [agentsAt, hlookup]
  | some data => exact Or.inr (hs.agentsAt_of_mem (hs.ordered.lookup_eq_some_iff.mp hlookup)).1

theorem decode_of_mem (hs : Sound state) {entry : String × Bytes} (h : entry ∈ state) :
    AgentContainer.schema.decode entry.2 = .ok { entries := agentsAt state entry.1 } := by
  obtain ⟨hkept, hdata⟩ := hs.agentsAt_of_mem h
  rw [hdata]
  exact decode_container hkept.countable

end Sound

/-! ## Adding an agent -/

section Keys

variable {state state' : List (String × Bytes)} {agent : Agent}

theorem addAgent_of_taken (h : ∃ other ∈ agentsAt state (Address.ofAgent agent.publicKey),
    other.publicKey = agent.publicKey) :
    addAgent state agent = .error (.agentExists agent.publicKey) := by
  obtain ⟨other, hother, hkey⟩ := h
  have hany : (agentsAt state (Address.ofAgent agent.publicKey)).any
      (·.publicKey = agent.publicKey) = true :=
    List.any_eq_true.mpr ⟨other, hother, decide_eq_true hkey⟩
  unfold addAgent
  exact if_pos hany

theorem addAgent_of_free (h : ∀ other ∈ agentsAt state (Address.ofAgent agent.publicKey),
    other.publicKey ≠ agent.publicKey) :
    addAgent state agent = .ok (put (Address.ofAgent agent.publicKey)
      (AgentContainer.schema.encode
        { entries := agentsAt state (Address.ofAgent agent.publicKey) ++ [agent] }) state) := by
  have hany : ¬ (agentsAt state (Address.ofAgent agent.publicKey)).any
      (·.publicKey = agent.publicKey) = true := by
    rw [List.any_eq_true]
    rintro ⟨other, hother, hkey⟩
    exact h other hother (of_decide_eq_true hkey)
  unfold addAgent
  exact if_neg hany

/-- What it takes to add an agent, and what the state is then. -/
theorem addAgent_eq_ok : addAgent state agent = .ok state' ↔
    (∀ other ∈ agentsAt state (Address.ofAgent agent.publicKey),
      other.publicKey ≠ agent.publicKey) ∧
    state' = put (Address.ofAgent agent.publicKey) (AgentContainer.schema.encode
      { entries := agentsAt state (Address.ofAgent agent.publicKey) ++ [agent] }) state := by
  constructor
  · intro h
    by_cases htaken : ∃ other ∈ agentsAt state (Address.ofAgent agent.publicKey),
        other.publicKey = agent.publicKey
    · rw [addAgent_of_taken htaken] at h
      cases h
    · have hfree : ∀ other ∈ agentsAt state (Address.ofAgent agent.publicKey),
          other.publicKey ≠ agent.publicKey :=
        fun other hother hkey => htaken ⟨other, hother, hkey⟩
      rw [addAgent_of_free hfree] at h
      exact ⟨hfree, (Except.ok.inj h).symm⟩
  · rintro ⟨hfree, rfl⟩
    exact addAgent_of_free hfree

theorem nodup_keys_concat {agents : List Agent} (h : (agents.map (·.publicKey)).Nodup)
    (hnew : ∀ other ∈ agents, other.publicKey ≠ agent.publicKey) :
    ((agents ++ [agent]).map (·.publicKey)).Nodup := by
  rw [List.map_append, List.map_singleton, ← List.concat_eq_append]
  refine List.Nodup.concat ?_ h
  rw [List.mem_map]
  rintro ⟨other, hother, hkey⟩
  exact hnew other hother hkey

end Keys

section AddAgent

variable {state state' : List (String × Bytes)} {agent : Agent}

theorem kept_append (hs : Sound state) (hname : agent.name ≠ "")
    (hsize : (Agent.schema.codec.put agent).length < UInt64.size)
    (hnew : ∀ other ∈ agentsAt state (Address.ofAgent agent.publicKey),
      other.publicKey ≠ agent.publicKey) :
    Kept (Address.ofAgent agent.publicKey)
      (agentsAt state (Address.ofAgent agent.publicKey) ++ [agent]) := by
  have hold : ∀ other ∈ agentsAt state (Address.ofAgent agent.publicKey),
      Address.ofAgent other.publicKey = Address.ofAgent agent.publicKey ∧ other.name ≠ "" ∧
        (Agent.schema.codec.put other).length < UInt64.size := by
    intro other hother
    rcases hs.agentsAt_eq_nil_or_kept (Address.ofAgent agent.publicKey) with hnil | hkept
    · rw [hnil] at hother
      cases hother
    · exact ⟨hkept.addressed _ hother, hkept.named _ hother, hkept.countable _ hother⟩
  have hdistinct :
      ((agentsAt state (Address.ofAgent agent.publicKey)).map (·.publicKey)).Nodup := by
    rcases hs.agentsAt_eq_nil_or_kept (Address.ofAgent agent.publicKey) with hnil | hkept
    · simp [hnil]
    · exact hkept.distinct
  constructor
  · simp
  · intro other hother
    rcases List.mem_append.mp hother with hother | hother
    · exact (hold other hother).1
    · rw [List.mem_singleton.mp hother]
  · intro other hother
    rcases List.mem_append.mp hother with hother | hother
    · exact (hold other hother).2.1
    · rw [List.mem_singleton.mp hother]
      exact hname
  · exact nodup_keys_concat hdistinct hnew
  · intro other hother
    rcases List.mem_append.mp hother with hother | hother
    · exact (hold other hother).2.2
    · rw [List.mem_singleton.mp hother]
      exact hsize

/-- The agent comes behind those under its address; all else stays. -/
theorem agentsAt_addAgent (hs : Sound state) (hname : agent.name ≠ "")
    (hsize : (Agent.schema.codec.put agent).length < UInt64.size)
    (h : addAgent state agent = .ok state') (address : String) :
    agentsAt state' address = agentsAt state address ++
      if address = Address.ofAgent agent.publicKey then [agent] else [] := by
  obtain ⟨hnew, rfl⟩ := addAgent_eq_ok.mp h
  rw [agentsAt_put (kept_append hs hname hsize hnew).countable]
  split
  · next heq => rw [heq]
  · exact (List.append_nil _).symm

theorem Sound.addAgent (hs : Sound state) (hname : agent.name ≠ "")
    (hsize : (Agent.schema.codec.put agent).length < UInt64.size)
    (h : addAgent state agent = .ok state') : Sound state' := by
  obtain ⟨hnew, rfl⟩ := addAgent_eq_ok.mp h
  refine ⟨hs.ordered.put _ _, ?_⟩
  intro entry hentry
  rcases eq_or_mem_of_mem_put hentry with rfl | hentry
  · exact ⟨_, kept_append hs hname hsize hnew, rfl⟩
  · exact hs.kept entry hentry

theorem grows_addAgent (hs : Sound state) (hname : agent.name ≠ "")
    (hsize : (Agent.schema.codec.put agent).length < UInt64.size)
    (h : addAgent state agent = .ok state') : Grows state state' := by
  intro address
  rw [agentsAt_addAgent hs hname hsize h]
  exact List.prefix_append _ _

end AddAgent

end CertRegistry.Ledger
