import CertRegistry.Proofs.Registry.Lookup
import CertRegistry.Proofs.Rest.Links

/-!
# Agents are read whole

Agents are looked for in all pages that an address leads to, and each entry of each page has to hold
a container of them. One page or one entry with a fault makes all of it fail, even behind the agent
that is looked for; else it is the first agent with the key that is found, whatever else the node
keeps in the same place.
-/

namespace CertRegistry

open Rest

/-! ## What pages show -/

/-- Whether an entry, as it is sent, is a container of agents. -/
def Rest.EncodedEntry.Holds (raw : EncodedEntry) (container : AgentContainer) : Prop :=
  ∃ octets, raw.data = Base64.encode octets ∧ AgentContainer.schema.decode octets = .ok container

theorem Rest.StateEntry.holds_encoded {entry : StateEntry} {container : AgentContainer} :
    entry.encoded.Holds container ↔ AgentContainer.schema.decode entry.data = .ok container := by
  constructor
  · rintro ⟨octets, hdata, hdecode⟩
    have hsame : Base64.decode (Base64.encode entry.data) = .ok octets :=
      Base64.decode_eq_ok_iff.mpr hdata
    rw [Base64.decode_encode] at hsame
    rw [Except.ok.inj hsame]
    exact hdecode
  · exact fun hdecode => ⟨entry.data, rfl, hdecode⟩

namespace RegistryClient

/-- Whether agents are those in the entries of pages, in the order of pages, entries and
containers. -/
def Shows (chain : List (String × Page)) (agents : List Agent) : Prop :=
  ∃ containers, List.Forall₂ EncodedEntry.Holds (chain.flatMap (·.2.data)) containers ∧
    agents = containers.flatMap (·.entries)

/-- Which of some agents is the first one with a public key, if any has it. -/
inductive FirstWith (publicKey : String) (agents : List Agent) : Option Agent → Prop
  | found {before later : List Agent} {agent : Agent} (h : agents = before ++ agent :: later)
    (hkey : agent.publicKey = publicKey) (hbefore : ∀ a ∈ before, a.publicKey ≠ publicKey) :
    FirstWith publicKey agents (some agent)
  | missing (h : ∀ a ∈ agents, a.publicKey ≠ publicKey) : FirstWith publicKey agents none

/-- What reading the agents of a list of pages comes to: an answer that their agents give, if no
page and no entry has a fault, and else a fault. -/
structure ReadsWhole {σ α : Type} (start : String) (chain : List (String × Page))
    (failed? : Option (String × Fault)) (Answers : List Agent → α → Prop) (s : Session σ)
    (result : Except Fault α) (s' : Session σ) : Prop where
  starts : (Page.visited chain (failed?.map (·.1))).head? = some start
  visits : s.Visits (Page.visited chain (failed?.map (·.1))) s'
  ok_iff : ∀ a, result = .ok a ↔ failed? = none ∧ ∃ agents, Shows chain agents ∧ Answers agents a
  error_iff : (∃ fault, result = .error fault) ↔
    failed? ≠ none ∨ ∃ raw ∈ chain.flatMap (·.2.data), ∀ container, ¬ raw.Holds container

theorem firstWith_iff {publicKey : String} {agents : List Agent} {agent? : Option Agent} :
    FirstWith publicKey agents agent? ↔ agents.find? (·.publicKey = publicKey) = agent? := by
  constructor
  · intro h
    cases h with
    | found h hkey hbefore =>
      refine List.find?_eq_some_iff_append.mpr ⟨decide_eq_true hkey, _, _, h, fun a ha => ?_⟩
      simpa using hbefore a ha
    | missing h => exact List.find?_eq_none.mpr fun a ha => by simpa using h a ha
  · intro h
    cases agent? with
    | some agent =>
      obtain ⟨hkey, before, later, hagents, hbefore⟩ := List.find?_eq_some_iff_append.mp h
      refine .found hagents (of_decide_eq_true hkey) fun a ha => ?_
      simpa using hbefore a ha
    | none => exact .missing fun a ha => by simpa using List.find?_eq_none.mp h a ha

variable {σ α : Type} {node : Node σ} {client : RegistryClient} {s s' : Session σ} {after : σ}
  {start : String} {chain : List (String × Page)} {failed? : Option (String × Fault)}
  {agents : List Agent} {entries : List StateEntry}

theorem agentsOf_eq_ok : agentsOf entries = .ok agents ↔
    ∃ containers, List.Forall₂ (fun entry container =>
      AgentContainer.schema.decode entry.data = .ok container) entries containers ∧
      agents = containers.flatMap (·.entries) := by
  unfold agentsOf
  rw [bind_eq_ok]
  simp only [mapM_eq_ok]
  constructor
  · rintro ⟨containers, hcontainers, h⟩
    refine ⟨containers, hcontainers.imp fun entry container => ?_, (Except.ok.inj h).symm⟩
    cases AgentContainer.schema.decode entry.data <;> simp
  · rintro ⟨containers, hcontainers, rfl⟩
    refine ⟨containers, hcontainers.imp fun entry container hdecode => ?_, rfl⟩
    rw [hdecode]

theorem shows_iff (hentries : entries.map StateEntry.encoded = chain.flatMap (·.2.data)) :
    Shows chain agents ↔ agentsOf entries = .ok agents := by
  rw [agentsOf_eq_ok, Shows, ← hentries]
  simp only [List.forall₂_map_left_iff, StateEntry.holds_encoded]

/-- There are no agents to be read if and only if some entry holds none. -/
theorem agentsOf_fails_iff (hentries : entries.map StateEntry.encoded = chain.flatMap (·.2.data)) :
    (∃ fault, agentsOf entries = .error fault) ↔
      ∃ raw ∈ chain.flatMap (·.2.data), ∀ container, ¬ raw.Holds container := by
  rw [← hentries]
  constructor
  · rintro ⟨fault, h⟩
    obtain hmapM | ⟨_, _, h⟩ := bind_eq_error.mp h
    · obtain ⟨entry, hentry, hfault⟩ := exists_of_mapM_eq_error hmapM
      refine ⟨entry.encoded, List.mem_map_of_mem hentry, fun container hholds => ?_⟩
      simp only [StateEntry.holds_encoded.mp hholds] at hfault
      cases hfault
    · cases h
  · rintro ⟨raw, hraw, hnone⟩
    obtain ⟨entry, hentry, rfl⟩ := List.mem_map.mp hraw
    cases hagents : agentsOf entries with
    | error fault => exact ⟨fault, rfl⟩
    | ok agents =>
      obtain ⟨containers, hcontainers, -⟩ := agentsOf_eq_ok.mp hagents
      obtain ⟨i, hi, rfl⟩ := List.getElem_of_mem hentry
      have hlength := hcontainers.length_eq ▸ hi
      exact absurd (StateEntry.holds_encoded.mpr (hcontainers.get hi hlength)) (hnone _)

/-! ## Reading -/

/-- What comes of the agents in the end is a matter of what is made of them. -/
theorem ReadsWhole.of_ends {subtree : Option String} {Answers : List Agent → α → Prop}
    {answer : List Agent → α} (hanswer : ∀ agents a, Answers agents a ↔ answer agents = a)
    (h : Page.Ends node client.rest.timeoutSeconds s.node (client.rest.stateUrl subtree) chain
      failed? after) {limit : Nat}
    (hlimit : (Page.visited chain (failed?.map (·.1))).length ≤ limit) :
    ∃ result s', (client.rest.listState node limit subtree >>= fun entries =>
        ofExcept (agentsOf entries) >>= fun agents => pure (answer agents)).run.run s =
          (result, s') ∧
      ReadsWhole (client.rest.stateUrl subtree) chain failed? Answers s result s' := by
  obtain ⟨result, hyields, hruns⟩ := Client.listState_of_ends h
  obtain ⟨s', hrun, -, hvisits⟩ := hruns limit hlimit
  have hstarts : (Page.visited chain (failed?.map (·.1))).head? =
      some (client.rest.stateUrl subtree) := by
    cases h with
    | complete h => exact h.head?_visited
    | broken h => exact h.head?_visited
  rw [Talk.run_bind, hrun]
  cases hyields with
  | fault url fault =>
    refine ⟨.error fault, s', rfl, hstarts, hvisits, fun a => ?_, ?_⟩ <;> simp
  | @entries entries hentries =>
    have hfails := agentsOf_fails_iff hentries
    cases hagents : agentsOf entries with
    | error fault =>
      rw [hagents] at hfails
      refine ⟨.error fault, s', by simp only [hagents]; rfl, hstarts, hvisits, fun a => ?_, ?_⟩
      · simp [shows_iff hentries, hagents]
      · simpa using hfails
    | ok agents =>
      rw [hagents] at hfails
      refine ⟨.ok (answer agents), s', by simp only [hagents]; rfl, hstarts, hvisits,
        fun a => ?_, ?_⟩
      · simp [shows_iff hentries, hagents, hanswer]
      · simpa using hfails

theorem stateUrl_some (rest : Rest.Client) (subtree : String) :
    rest.stateUrl (some subtree) = rest.base ++ "/state?address=" ++ subtree := by
  have hpath : "/state?address=" = "/state" ++ "?address=" := rfl
  simp only [Client.stateUrl, hpath, String.append_assoc]

/-- Whatever the key, its agent is asked for under an address of seventy digits. What comes of that,
once the list ends, is the first agent with the key in all pages, or none if no agent there has it,
or else a fault because some page or some entry has one. All agents are read in the same way. -/
theorem agents_read_whole (node : Node σ) (client : RegistryClient) (s : Session σ)
    (publicKey : String) :
    (Address.ofAgent publicKey).length = 70 ∧
    (∀ c ∈ (Address.ofAgent publicKey).toList, Hex.IsDigit c) ∧
    (∀ chain failed? after, Page.Ends node client.rest.timeoutSeconds s.node
        (client.rest.base ++ "/state?address=" ++ Address.ofAgent publicKey) chain failed? after →
      ∀ limit, (Page.visited chain (failed?.map (·.1))).length ≤ limit →
        ∃ result s', (client.fetchAgent node limit publicKey).run.run s = (result, s') ∧
          ReadsWhole (client.rest.base ++ "/state?address=" ++ Address.ofAgent publicKey) chain
            failed? (FirstWith publicKey) s result s') ∧
    ∀ chain failed? after, Page.Ends node client.rest.timeoutSeconds s.node
        (client.rest.base ++ "/state?address=" ++ Address.typePrefix .agent) chain failed? after →
      ∀ limit, (Page.visited chain (failed?.map (·.1))).length ≤ limit →
        ∃ result s', (client.listAgents node limit).run.run s = (result, s') ∧
          ReadsWhole (client.rest.base ++ "/state?address=" ++ Address.typePrefix .agent) chain
            failed? (· = ·) s result s' := by
  refine ⟨Address.length_ofAgent publicKey, Address.isDigit_ofAgent publicKey, ?_, ?_⟩
  · intro chain failed? after hends limit hlimit
    have hfirst : ∀ agents agent?, FirstWith publicKey agents agent? ↔
        agents.find? (·.publicKey = publicKey) = agent? := fun _ _ => firstWith_iff
    rw [← stateUrl_some] at hends ⊢
    exact ReadsWhole.of_ends hfirst hends hlimit
  · intro chain failed? after hends limit hlimit
    rw [← stateUrl_some] at hends ⊢
    have hlist : client.listAgents node limit =
        (client.rest.listState node limit (some (Address.typePrefix .agent)) >>= fun entries =>
          ofExcept (agentsOf entries) >>= fun agents => pure agents) := by
      simp only [bind_pure]
      rfl
    rw [hlist]
    exact ReadsWhole.of_ends (fun _ _ => Iff.rfl) hends hlimit

/-! ## Two pages of agents -/

/-- The client of a node on this machine that shows agents. -/
def nearby : RegistryClient where
  rest := Client.nearby
  family := { name := "cert", version := "1" }
  statusWaitSeconds := 5

/-- An agent, and two that share a key under the same address. -/
def rivals : AgentContainer := { entries := [{ publicKey := "03" }] }

def namesakes : AgentContainer :=
  { entries := [{ publicKey := "02", name := "Ada" }, { publicKey := "02" }] }

/-- The entries with these data, on a page that may lead on. -/
def pageOf (data : List Bytes) (paging : Paging) : Page :=
  Client.pageWith (data.map fun octets => { address := "", data := octets }) paging

/-- The page with the rival, and the one with the namesakes and something behind them. -/
def firstPage : Page :=
  pageOf [AgentContainer.schema.encode rivals] { next := some (nearby.rest.base ++ "/more") }

def secondPage (later : Bytes) : Page := pageOf [AgentContainer.schema.encode namesakes, later] {}

/-- The pages where one looks for the agent with the shared key. -/
def shelf (later : Bytes) : List (String × Page) :=
  [(nearby.rest.base ++ "/state?address=" ++ Address.ofAgent "02", firstPage),
    (nearby.rest.base ++ "/more", secondPage later)]

theorem ends_shelf (later : Bytes) :
    Page.Ends (Client.twoPages firstPage (secondPage later)) 30 ()
      (nearby.rest.base ++ "/state?address=" ++ Address.ofAgent "02") (shelf later) none () := by
  have hquery : ∀ cs, some ("address=".toList ++ (Address.ofAgent "02").toList) = some cs →
      ∀ c ∈ cs, Url.IsPlain c := by
    rintro cs ⟨⟩ c hc
    rcases List.mem_append.mp hc with hc | hc
    · exact forall_mem_of_all (p := Url.IsPlain) (by decide) c hc
    · exact Ledger.isPlain_of_isAnyDigit c (Address.isDigit_ofAgent "02" c hc).isAny
  have hfirst : firstPage.IsGiven (Client.twoPages firstPage (secondPage later)) 30
      (nearby.rest.base ++ "/state?address=" ++ Address.ofAgent "02") () () := by
    refine Client.isGiven_twoPages "/state".toList _ (by decide +kernel) hquery ?_ rfl ?_ ()
    · simp [Url.tail, String.length_toList, Address.length_ofAgent]
    · simp [nearby, Url.tail]
  have hsecond : (secondPage later).IsGiven (Client.twoPages firstPage (secondPage later)) 30
      (nearby.rest.base ++ "/more") () () :=
    Client.isGiven_twoPages_of_path "/more" (by decide +kernel) (by decide) rfl ()
  have honward : firstPage.LeadsTo (some (nearby.rest.base ++ "/more")) :=
    .onward rfl (by decide +kernel)
  exact .complete (.turn hfirst honward (.turn hsecond (.unsaid rfl) (.stay _ _)))

theorem holds_of_decode {octets : Bytes} {container : AgentContainer}
    (h : (AgentContainer.schema.decode octets).toOption = some container) :
    (StateEntry.encoded { address := "", data := octets }).Holds container :=
  StateEntry.holds_encoded.mpr (toOption_eq_some.mp h)

/-- The first agent with a key stands on the second page, behind one that shares the address. It is
not found if what follows it is no container. -/
theorem agents_read_whole_two_pages :
    (∃ s', (nearby.fetchAgent (Client.twoPages firstPage (secondPage [])) 2 "02").run.run
      { node := () } = (.ok (some { publicKey := "02", name := "Ada" }), s')) ∧
    ∃ fault s', (nearby.fetchAgent (Client.twoPages firstPage (secondPage [0xff])) 2 "02").run.run
      { node := () } = (.error fault, s') := by
  constructor
  · obtain ⟨result, s', hrun, hreads⟩ := (agents_read_whole
      (Client.twoPages firstPage (secondPage [])) nearby { node := () } "02").2.2.1 _ _ _
        (ends_shelf []) 2 (Nat.le_refl 2)
    have hshows : Shows (shelf []) ([{ publicKey := "03" }] ++
        { publicKey := "02", name := "Ada" } :: [{ publicKey := "02" }]) :=
      ⟨[rivals, namesakes, {}], .cons (holds_of_decode (by decide +kernel))
        (.cons (holds_of_decode (by decide +kernel))
          (.cons (holds_of_decode (by decide +kernel)) .nil)), rfl⟩
    obtain rfl := (hreads.ok_iff _).mpr ⟨rfl, _, hshows, .found rfl rfl (by simp)⟩
    exact ⟨s', hrun⟩
  · obtain ⟨result, s', hrun, hreads⟩ := (agents_read_whole
      (Client.twoPages firstPage (secondPage [0xff])) nearby { node := () } "02").2.2.1 _ _ _
        (ends_shelf [0xff]) 2 (Nat.le_refl 2)
    have hnone : ∀ container,
        ¬ (StateEntry.encoded { address := "", data := [0xff] }).Holds container := by
      intro container hcontainer
      have hbroken : (AgentContainer.schema.decode [0xff]).toOption = none := by decide +kernel
      rw [StateEntry.holds_encoded.mp hcontainer] at hbroken
      cases hbroken
    obtain ⟨fault, rfl⟩ := hreads.error_iff.mpr
      (.inr ⟨_, by simp [shelf, secondPage, pageOf, Client.pageWith], hnone⟩)
    exact ⟨fault, s', hrun⟩

end RegistryClient

end CertRegistry
