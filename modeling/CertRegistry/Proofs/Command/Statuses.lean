import CertRegistry.Proofs.Command.Waits
import CertRegistry.Proofs.Endpoint
import CertRegistry.Proofs.Node.Queries
import CertRegistry.Proofs.Rest.Records

/-!
# Asking for statuses on the command line

Ids on a command line can be any texts. The node gets one request with all of them, and finds in it
what was meant if the ids are made of characters that a query keeps and that keep nothing apart.
-/

namespace CertRegistry

open Ledger Rest Url

/-! ## The question -/

theorem Rest.Client.statusesUrl_eq (client : Client) (ids : List String) (wait : Nat) :
    client.statusesUrl ids (some wait) =
      client.base ++ "/" ++ "batch_statuses" ++ "?" ++ String.ofList (batchQuery ids wait) := by
  rw [← String.toList_inj, Client.statusesUrl, batchQuery, statusQuery_eq]
  generalize hdigits : toString wait = digits
  simp

/-- A query ends in the digits of the wait. -/
theorem Ledger.visible_of_getLast?_batchQuery {ids : List String} {wait : Nat} :
    ∀ c, ('?' :: batchQuery ids wait).getLast? = some c → 0x20 < c.toNat := by
  intro c hc
  have hplain : ∀ c ∈ "&wait=".toList ++ (toString wait).toList, IsPlain c := by
    rw [List.forall_mem_append]
    exact ⟨forall_mem_of_all (by decide),
      fun c hc => isPlain_of_isAnyDigit c (isAnyDigit_toString wait c hc)⟩
  have hne : "&wait=".toList ++ (toString wait).toList ≠ [] := by simp
  rw [batchQuery, statusQuery_eq, ← List.cons_append, List.getLast?_append,
    List.getLast?_eq_some_getLast hne, Option.some_or] at hc
  exact (hplain c (Option.some.inj hc ▸ List.getLast_mem hne)).visible.1

namespace Command

variable {σ : Type}

/-- The command prints what the client is told. -/
theorem run_status {node : Node σ} {start : σ} {config : Config} {client : RegistryClient}
    {ids : List String} {result : Except Rest.Fault (List BatchStatus)} {s' : Session σ}
    (hclient : RegistryClient.ofConfig config = .ok client)
    (hrun : (client.rest.statuses node ids (some config.polling.statusWaitSeconds)).run.run
      { node := start } = (result, s')) (around : Surroundings) :
    (Command.status ids).run node start around config =
      (result.mapError Failure.node).map fun statuses =>
        .printed (BatchStatus.listJson statuses) := by
  have hconverse : converse Failure.node
      (client.rest.statuses node ids (some config.polling.statusWaitSeconds)) start =
      result.mapError Failure.node := by
    rw [converse, hrun]
    cases result with
    | ok statuses => rfl
    | error fault => rfl
  rw [run, hclient]
  simp only [mapError_ok, bind, Except.bind, hconverse]
  cases result with
  | ok statuses => rfl
  | error fault => rfl

/-- How a command asks a node that keeps a record for the statuses of batches: with a client, at an
address, with a result that it prints. The node gets one request, if it can be sent at all. -/
structure AsksStatuses (node : Node σ) (start : σ) (around : Surroundings) (config : Config)
    (ids : List String) (client : RegistryClient) (address : Url)
    (result : Except Rest.Fault (List BatchStatus)) (s' : Session (σ × List Request)) : Prop where
  made : RegistryClient.ofConfig config = .ok client
  parse : Url.parse (client.rest.statusesUrl ids (some config.polling.statusWaitSeconds)) =
    .ok address
  run : (client.rest.statuses node.recording ids
    (some config.polling.statusWaitSeconds)).run.run { node := (start, []) } = (result, s')
  printed : (Command.status ids).run node.recording (start, []) around config =
    (result.mapError Failure.node).map fun statuses => .printed (BatchStatus.listJson statuses)
  record : s'.node.2 =
    if isSendable address = true ∧ node.reachable start address = true then
      [{ method := .get, url := { address with credentials := [], fragment := none } }]
    else []

theorem exists_asksStatuses {config : Config} {base : String} {address : Url} {ids : List String}
    (hproblems : config.problems = []) (hshort : config.WaitsAreShort)
    (hbase : Endpoint.base config.node.url = .ok base)
    (haddress : Url.parse (base ++ "/" ++ "batch_statuses" ++ "?" ++
      String.ofList (batchQuery ids config.polling.statusWaitSeconds)) = .ok address)
    (node : Node σ) (start : σ) (around : Surroundings) : ∃ client result s',
    client.rest.base = base ∧
      AsksStatuses node start around config ids client address result s' := by
  have hclient := RegistryClient.ofConfig_eq hbase
  have htimeout := (Config.problems_eq_nil.mp hproblems).2.timeout
  have hwait : config.node.timeoutSeconds + config.polling.statusWaitSeconds < UInt64.size :=
    Nat.add_lt_add hshort.timeout hshort.statusWait
  have hurl : Url.parse (Client.statusesUrl ⟨base, config.node.timeoutSeconds⟩ ids
      (some config.polling.statusWaitSeconds)) = .ok address := by
    rw [Client.statusesUrl_eq]
    exact haddress
  obtain ⟨result, s', hrun, hrecord⟩ :=
    Client.statuses_record node hwait htimeout hurl { node := (start, []) }
  exact ⟨_, result, s', rfl, hclient, hurl, hrun, run_status hclient hrun around, hrecord⟩

/-- For the statuses of batches a command makes one request, in the directory of its endpoint. What
the ids on the command line are made of decides what the node finds in it. -/
theorem status_conveys_ids {invocation : Invocation} {around : Surroundings} {config : Config}
    (hconfig : invocation.configuration around = .ok config) {url : Url}
    (hparse : Url.parse (Endpoint.candidate config.node.url) = .ok url) (hpage : url.IsPage)
    (hend : ∀ c, (Endpoint.candidate config.node.url).toList.getLast? = some c → 0x20 < c.toNat)
    {ids : List String} (hne : ids ≠ []) (node : Node σ) (start : σ) :
    ∃ client directory slashes query fragment result s',
      Endpoint.Extends client.rest.base url directory slashes ∧
      AsksStatuses node start around config ids client
        { url with
          path := directory ++ "/batch_statuses".toList, query := some query, fragment }
        result s' ∧
      Conveys query ids config.polling.statusWaitSeconds := by
  have hproblems := Invocation.problems_configuration hconfig
  have hshort := Invocation.waitsAreShort_configuration hconfig
  obtain ⟨base, hbase⟩ := Endpoint.isUsable_iff.mp (Config.problems_eq_nil.mp hproblems).1
  obtain ⟨directory, slashes, hextends, hquery⟩ :=
    Endpoint.exists_extends_query hbase hparse hpage hend
  obtain ⟨fragment, haddress⟩ :=
    hquery "batch_statuses" (by decide) _ visible_of_getLast?_batchQuery
  obtain ⟨client, result, s', rfl, hasks⟩ :=
    exists_asksStatuses hproblems hshort hbase haddress node start around
  exact ⟨client, directory, slashes, _, fragment, result, s', hextends, hasks,
    conveys_batchQuery hne⟩

end Command

/-! ## Two command lines -/

/-- A command line that asks a node on this machine for the statuses of batches. -/
def Invocation.statusSample (ids : List String) : Invocation where
  url := some "127.0.0.1:8008/"
  command := .status ids

/-- The configuration that the command runs with. -/
def Config.local : Config := ({} : Config).withUrl "127.0.0.1:8008/"

/-- The address that it asks. -/
def Url.statusSample (query : String) : Url :=
  ofLocal 8008 "/batch_statuses".toList (some query.toList)

theorem Endpoint.candidate_sample : (candidate "127.0.0.1:8008/").toList =
    (localBase 8008).toList ++ ("/".toList ++ tail none) := by
  decide +kernel

theorem Endpoint.base_sample : Endpoint.base "127.0.0.1:8008/" = .ok (localBase 8008) :=
  base_local (by decide +kernel) isPlain_of_none candidate_sample (by decide +kernel)

theorem Invocation.configuration_statusSample (ids : List String) :
    (statusSample ids).configuration (.sample "" none) = .ok .local := by
  have husable : Endpoint.isUsable "127.0.0.1:8008/" = true :=
    Endpoint.isUsable_iff.mpr ⟨_, Endpoint.base_sample⟩
  refine (configuration_of_url rfl husable).mpr ⟨{}, rfl, ?_, ?_, rfl⟩
  · exact ⟨by decide, by decide, by decide, by decide⟩
  · exact List.forall_mem_singleton.mpr (Endpoint.isUsable_localhost (by decide +kernel))

/-- A plain query is read as it is. -/
theorem Url.parse_statusSample {query : String} (h : ∀ c ∈ query.toList, IsPlain c) :
    Url.parse (localBase 8008 ++ "/" ++ "batch_statuses" ++ "?" ++ query) =
      .ok (statusSample query) := by
  refine parse_local (by decide) isPlainPath_statuses ?_ ?_
  · rintro _ ⟨⟩
    exact h
  · simp [tail]

namespace Command

variable {ids : List String} {client : RegistryClient} {address : Url} {query : String}
  {result : Except Rest.Fault (List BatchStatus)} {s' : Session (List Reply × List Request)}

theorem AsksStatuses.address_sample
    (h : AsksStatuses Node.scripted [] (.sample "" none) .local ids client address result s')
    (hquery : String.ofList (batchQuery ids 10) = query) (hplain : ∀ c ∈ query.toList, IsPlain c) :
    address = .statusSample query := by
  have hbase : Endpoint.base Config.local.node.url = .ok (localBase 8008) := Endpoint.base_sample
  have hclient := Except.ok.inj ((RegistryClient.ofConfig_eq hbase).symm.trans h.made)
  have hwait : Config.local.polling.statusWaitSeconds = 10 := rfl
  have hparse := h.parse
  rw [← hclient, hwait, Client.statusesUrl_eq, hquery] at hparse
  exact Except.ok.inj (hparse.symm.trans (parse_statusSample hplain))

theorem AsksStatuses.record_sample
    (h : AsksStatuses Node.scripted [] (.sample "" none) .local ids client (.statusSample query)
      result s') (hlength : query.length ≤ 64000) :
    s'.node.2 = [{ method := .get, url := .statusSample query }] := by
  have hsendable : isSendable (.statusSample query) = true := by
    refine isSendable_ofLocal (by decide) ?_
    have hpath : "/batch_statuses".toList.length = 15 := by decide
    simp only [hpath, tail, Option.elim, List.length_cons, String.length_toList]
    omega
  rw [h.record, if_pos ⟨hsendable, rfl⟩]
  rfl

/-- Ids in hexadecimal digits are found as they are. -/
theorem status_conveys_ids_digits :
    Invocation.parse ["--url", "127.0.0.1:8008/", "status", "0a", "0b"] =
        .ok (.statusSample ["0a", "0b"]) ∧
      ∃ client result s',
        AsksStatuses Node.scripted [] (.sample "" none) .local ["0a", "0b"] client
          (.statusSample "id=0a,0b&wait=10") result s' ∧
        s'.node.2 = [{ method := .get, url := .statusSample "id=0a,0b&wait=10" }] ∧
        Lists "id=0a,0b&wait=10".toList ["0a", "0b"] 10 := by
  refine ⟨toOption_eq_some.mp (by decide +kernel), ?_⟩
  have hparse := parse_local (show 8008 < 65536 by decide)
    (show IsPlainPath "/".toList by decide +kernel) isPlain_of_none Endpoint.candidate_sample
  have hlast : (Endpoint.candidate "127.0.0.1:8008/").toList.getLast? = some '/' := by
    decide +kernel
  obtain ⟨client, directory, slashes, query, fragment, result, s', -, hasks, hconveys⟩ :=
    status_conveys_ids (Invocation.configuration_statusSample ["0a", "0b"]) hparse
      ⟨.inl rfl, rfl, rfl⟩ (fun c hc => Option.some.inj (hlast.symm.trans hc) ▸ (by decide))
      (show ["0a", "0b"] ≠ [] by decide) Node.scripted []
  have hquery : String.ofList (batchQuery ["0a", "0b"] 10) = "id=0a,0b&wait=10" := by
    decide +kernel
  have haddress := hasks.address_sample hquery (forall_mem_of_all (by decide))
  rw [haddress] at hasks
  obtain rfl := Option.some.inj (congrArg Url.query haddress)
  have hdigits : ∀ id ∈ ["0a", "0b"], IsPlainId id := by
    simp only [List.forall_mem_cons, List.not_mem_nil, false_imp_iff, implies_true, and_true]
    exact ⟨forall_mem_of_all (by decide), forall_mem_of_all (by decide)⟩
  exact ⟨client, result, s', hasks, hasks.record_sample (by decide), hconveys.plain.mpr hdigits⟩

/-- An id that goes on with a parameter takes the place of the one that was meant. Behind an
endpoint with a query the path is another one too. -/
theorem status_conveys_other_id :
    (Invocation.parse ["--url", "127.0.0.1:8008/", "status", "a&id=b"] =
        .ok (.statusSample ["a&id=b"]) ∧
      (Invocation.statusSample ["a&id=b"]).configuration (.sample "" none) = .ok .local ∧
      ∃ client result s',
        AsksStatuses Node.scripted [] (.sample "" none) .local ["a&id=b"] client
          (.statusSample "id=a&id=b&wait=10") result s' ∧
        s'.node.2 = [{ method := .get, url := .statusSample "id=a&id=b&wait=10" }] ∧
        asked? "id=a&id=b&wait=10".toList = some ["b"]) ∧
    Endpoint.base "127.0.0.1:8008/?x=1" = .ok "http://127.0.0.1:8008/?x=1" ∧
      Url.parse (Client.statusesUrl ⟨"http://127.0.0.1:8008/?x=1", 30⟩ ["0a"] (some 10)) =
        .ok (ofLocal 8008 "/".toList (some "x=1/batch_statuses?id=0a&wait=10".toList)) := by
  have hpath : IsPlainPath "/".toList := by decide +kernel
  have hplain : ∀ c ∈ "id=a&id=b&wait=10".toList, IsPlain c := forall_mem_of_all (by decide)
  have hx : ∀ cs, some "x=1".toList = some cs → ∀ c ∈ cs, IsPlain c := by
    rintro _ ⟨⟩
    exact forall_mem_of_all (by decide)
  have hlonger : ∀ cs, some "x=1/batch_statuses?id=0a&wait=10".toList = some cs →
      ∀ c ∈ cs, IsPlain c := by
    rintro _ ⟨⟩
    exact forall_mem_of_all (by decide)
  refine ⟨⟨toOption_eq_some.mp (by decide +kernel), Invocation.configuration_statusSample _, ?_⟩,
    Endpoint.base_local hpath hx (by decide +kernel) (by decide +kernel),
    parse_local (by decide) hpath hlonger (by decide +kernel)⟩
  have hconfig := Invocation.configuration_statusSample ["a&id=b"]
  have hquery : "id=a&id=b&wait=10" = String.ofList (batchQuery ["a&id=b"] 10) := by decide +kernel
  have haddress := parse_statusSample hplain
  rw [hquery] at haddress
  obtain ⟨client, result, s', -, hasks⟩ :=
    exists_asksStatuses (Invocation.problems_configuration hconfig)
      (Invocation.waitsAreShort_configuration hconfig) Endpoint.base_sample haddress
      Node.scripted [] (.sample "" none)
  rw [← hquery] at hasks
  exact ⟨client, result, s', hasks, hasks.record_sample (by decide), by decide +kernel⟩

end Command

end CertRegistry
