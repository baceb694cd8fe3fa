import CertRegistry.Proofs.Bytes.Hex
import CertRegistry.Proofs.Bytes.Lenient
import CertRegistry.Proofs.Node.Answers
import CertRegistry.Proofs.Rest.Talk
import CertRegistry.Proofs.Url.Local
import CertRegistry.Proofs.Wire.Records

/-!
# Requests to a node in memory

What a client of a node in memory on the same machine gets for its requests: the node takes the
batches that were sent, tells the statuses that it recorded, and shows its state.
-/

namespace CertRegistry

open Json Rest Rest.Talk Url

/-- Whether a client asks the node at a port of this machine and gives it time to answer. -/
structure Rest.Client.IsLocal (client : Rest.Client) (port : Nat) : Prop where
  port_lt : port < 65536
  base : client.base = localBase port
  patient : 0 < client.timeoutSeconds

namespace Ledger

variable {now port : Nat} {client : Rest.Client} {ledger ledger' : Ledger}

theorem lenientText_compact (members : List (String × Value)) :
    Bytes.lenientText (Bytes.ofText (Value.object members).compact) =
      (Value.object members).compact := by
  refine Bytes.lenientText_ofText ?_
  rw [Value.toList_compact_object]
  simp

/-- A request to a plain path with a plain query that the node carries out. -/
theorem ends_request {α : Type} {reader : Reader α} {a : α} {resource : Resource}
    {limits : Limits} {call : Call} {path : List Char} {query : Option (List Char)} {status : Nat}
    {members : List (String × Value)} (hport : port < 65536) (hpath : IsPlainPath path)
    (hquery : ∀ cs, query = some cs → ∀ c ∈ cs, IsPlain c)
    (hsendable : isSendable (ofLocal port path query) = true)
    (hurl : call.url.toList = (localBase port).toList ++ (path ++ tail query))
    (hseconds : 0 < limits.seconds) (hdeadline : limits.deadline = none)
    (hhandle : ledger.handle { method := call.method, url := ofLocal port path query
                               body := call.body } = ((status, .record members), ledger'))
    (hstatus : 200 ≤ status ∧ status < 300)
    (hread : reader.parse (Value.record members).compact = .ok a) :
    Ends (request node limits resource reader call) now ledger a ledger' := by
  have hreply : node.reply ledger { method := call.method, url := ofLocal port path query
                                    body := call.body } =
      (.answer 0 (promptAnswer status (Bytes.ofText (Value.record members).compact)), ledger') := by
    simp only [node, hhandle, promptAnswer]
  have hbody : reader.parse (Bytes.lenientText (Bytes.ofText (Value.record members).compact)) =
      .ok a := (lenientText_compact _).symm ▸ hread
  exact Ends.request (parse_local hport hpath hquery hurl) hsendable rfl hseconds hdeadline hreply
    hstatus hbody

/-! ## Sending batches -/

theorem isPlainPath_batches : IsPlainPath "/batches".toList := by decide +kernel

theorem isPlainPath_statuses : IsPlainPath "/batch_statuses".toList := by decide +kernel

theorem isPlainPath_state : IsPlainPath "/state".toList := by decide +kernel

theorem handle_batches (ledger : Ledger) (port : Nat) (query : Option (List Char))
    (body : Bytes) :
    ledger.handle { method := .post, url := ofLocal port "/batches".toList query, body } =
      ledger.takeBatches body := by
  have hpath : String.ofList (ofLocal port "/batches".toList query).path = "/batches" := rfl
  unfold handle
  simp only [hpath]

theorem handle_statuses (ledger : Ledger) (port : Nat) (query : List Char) :
    ledger.handle { method := .get, url := ofLocal port "/batch_statuses".toList (some query) } =
      (ledger.showStatuses query, ledger) := by
  have hpath : String.ofList (ofLocal port "/batch_statuses".toList (some query)).path =
      "/batch_statuses" := rfl
  unfold handle
  simp only [hpath]
  rfl

theorem handle_state (ledger : Ledger) (port : Nat) (query : Option (List Char)) :
    ledger.handle { method := .get, url := ofLocal port "/state".toList query } =
      (ledger.listState (query.getD []), ledger) := by
  have hpath : String.ofList (ofLocal port "/state".toList query).path = "/state" := rfl
  unfold handle
  simp only [hpath]
  rfl

theorem takeBatches_encode {batches : BatchList} (hfits : BatchList.schema.Fits batches) :
    ledger.takeBatches (BatchList.schema.encode batches) =
      ((202, .record [("link", .text ("/batch_statuses?id=" ++
        String.intercalate "," (batches.batches.map (·.headerSignature))))]),
        batches.batches.foldl submit ledger) := by
  have hdecode := Wire.Schema.decode_encode_of_fits BatchList.lawful_schema (by decide) hfits
  simp only [takeBatches, hdecode]

/-- The node takes batches that can be read back and says where to ask for them. -/
theorem ends_sendBatches (hclient : client.IsLocal port) {batches : BatchList}
    (hfits : BatchList.schema.Fits batches) :
    Ends (client.sendBatches node batches) now ledger
      ("/batch_statuses?id=" ++ String.intercalate "," (batches.batches.map (·.headerSignature)))
      (batches.batches.foldl submit ledger) := by
  have hurl : (client.base ++ "/batches").toList =
      (localBase port).toList ++ ("/batches".toList ++ tail none) := by
    rw [hclient.base, String.toList_append]
    rfl
  have hhandle := (handle_batches ledger port none _).trans (takeBatches_encode hfits)
  have hsendable := isSendable_ofLocal hclient.port_lt
    (show "/batches".toList.length + (tail none).length ≤ 65000 by decide)
  refine Ends.bind (ends_request hclient.port_lt isPlainPath_batches isPlain_of_none hsendable hurl
    hclient.patient rfl hhandle (by decide) (Receipt.parse_link _)) ?_
  exact Ends.bind (Ends.count _ _) (Ends.pure _)

/-! ## Parameters -/

/-- A query in which names and values of parameters are put as they are. -/
def queryText (ps : List (String × String)) : List Char :=
  ['&'].intercalate (ps.map fun p => p.1.toList ++ '=' :: p.2.toList)

/-- Parameters are found again if their names and values do not run into each other. -/
theorem parameters_queryText {ps : List (String × String)} (hne : ps ≠ [])
    (h : ∀ p ∈ ps, '&' ∉ p.1.toList ∧ '=' ∉ p.1.toList ∧ '&' ∉ p.2.toList) :
    parameters (queryText ps) = ps := by
  have hsplit : (queryText ps).splitOn '&' = ps.map fun p => p.1.toList ++ '=' :: p.2.toList := by
    refine List.splitOn_intercalate _ ?_ (by simpa using hne)
    intro part hpart
    obtain ⟨p, hp, rfl⟩ := List.mem_map.mp hpart
    obtain ⟨hname, -, hvalue⟩ := h p hp
    simp [hname, hvalue]
  rw [parameters, hsplit]
  clear hsplit hne
  induction ps with
  | nil => rfl
  | cons p ps ih =>
    have hspan : (p.1.toList ++ '=' :: p.2.toList).span (· ≠ '=') =
        (p.1.toList, '=' :: p.2.toList) := by
      refine span_append ?_ ?_
      · intro c hc
        refine decide_eq_true ?_
        rintro rfl
        exact (h p List.mem_cons_self).2.1 hc
      · intro c hc
        cases hc
        decide
    have hrest := ih fun q hq => h q (List.mem_cons_of_mem _ hq)
    rw [List.map_cons, List.filterMap_cons, hspan]
    simp only [hrest, String.ofList_toList]

/-- Digits in a query stay as they are. -/
theorem isPlain_of_isAnyDigit : ∀ c, Hex.IsAnyDigit c → IsPlain c :=
  Hex.forall_isAnyDigit (by decide)

theorem not_mem_of_isAnyDigit {s : String} (h : ∀ c ∈ s.toList, Hex.IsAnyDigit c) {d : Char}
    (hd : ¬ Hex.IsAnyDigit d) : d ∉ s.toList :=
  fun hmem => hd (h d hmem)

/-! ## Asking for statuses -/

section Statuses

variable {id : String} {wait : Nat}

/-- The query for the status of a batch. -/
def statusQuery (id : String) (wait : Nat) : List Char :=
  queryText [("id", id), ("wait", toString wait)]

theorem statusQuery_eq (id : String) (wait : Nat) : statusQuery id wait =
    "id=".toList ++ id.toList ++ ("&wait=".toList ++ (toString wait).toList) := by
  generalize hdigits : toString wait = digits
  simp [statusQuery, queryText, List.intercalate, hdigits]

theorem isAnyDigit_toString (n : Nat) : ∀ c ∈ (toString n).toList, Hex.IsAnyDigit c :=
  fun _ hc => (Hex.isDigit_of_isDigit (Text.isDigit_of_mem_toString hc)).isAny

theorem parameters_statusQuery (hid : '&' ∉ id.toList) :
    parameters (statusQuery id wait) = [("id", id), ("wait", toString wait)] := by
  refine parameters_queryText (by simp) ?_
  simp only [List.forall_mem_cons]
  exact ⟨⟨by decide, by decide, hid⟩, ⟨by decide, by decide,
    not_mem_of_isAnyDigit (isAnyDigit_toString wait) (by decide)⟩, List.forall_mem_nil _⟩

theorem showStatuses_statusQuery (hid : ∀ c ∈ id.toList, Hex.IsAnyDigit c) (hne : id ≠ "") :
    ledger.showStatuses (statusQuery id wait) =
      (200, .record [("data", .list ([ledger.statusOf id].map (·.toJson)))]) := by
  have hfound : parameter? (statusQuery id wait) "id" = some id := by
    rw [parameter?, parameters_statusQuery (not_mem_of_isAnyDigit hid (by decide))]
    rfl
  have hfilter : (parameter? (statusQuery id wait) "id").filter (· ≠ "") = some id := by
    simp [hfound, hne]
  have hsplit : id.toList.splitOn ',' = [id.toList] :=
    List.splitOn_eq_singleton (not_mem_of_isAnyDigit hid (by decide))
  simp only [showStatuses, hfilter, hsplit, List.map_cons, List.map_nil, String.ofList_toList]

theorem isPlain_statusQuery (hid : ∀ c ∈ id.toList, Hex.IsAnyDigit c) :
    ∀ c ∈ statusQuery id wait, IsPlain c := by
  have hfirst : ∀ c ∈ "id=".toList, IsPlain c := forall_mem_of_all (by decide)
  have hsecond : ∀ c ∈ "&wait=".toList, IsPlain c := forall_mem_of_all (by decide)
  intro c hc
  rw [statusQuery_eq] at hc
  simp only [List.mem_append] at hc
  rcases hc with (hc | hc) | hc | hc
  · exact hfirst c hc
  · exact isPlain_of_isAnyDigit c (hid c hc)
  · exact hsecond c hc
  · exact isPlain_of_isAnyDigit c (isAnyDigit_toString wait c hc)

theorem toList_statusesUrl (hbase : client.base = localBase port) :
    (client.statusesUrl [id] (some wait)).toList = (localBase port).toList ++
      ("/batch_statuses".toList ++ tail (some (statusQuery id wait))) := by
  rw [Client.statusesUrl, hbase, statusQuery_eq]
  generalize localBase port = base
  generalize hdigits : toString wait = digits
  simp [tail]

theorem length_statusQuery_le (hwait : wait < UInt64.size) (hlength : id.length = 128) :
    "/batch_statuses".toList.length + (tail (some (statusQuery id wait))).length ≤ 65000 := by
  have hdigits := length_toString_le (Nat.lt_of_lt_of_le hwait (by decide : _ ≤ Nat.pow 10 20))
    (by decide)
  have hpath : "/batch_statuses".toList.length = 15 := by decide
  have hfirst : "id=".toList.length = 3 := by decide
  have hsecond : "&wait=".toList.length = 6 := by decide
  rw [statusQuery_eq]
  simp only [tail, Option.elim, List.length_cons, List.length_append, hpath, hfirst, hsecond]
  rw [String.length_toList, hlength]
  omega

/-- The status that was recorded last for the batch. -/
theorem ends_statuses (hclient : client.IsLocal port)
    (hwait : client.timeoutSeconds + wait < UInt64.size)
    (hid : ∀ c ∈ id.toList, Hex.IsAnyDigit c) (hlength : id.length = 128) :
    Ends (client.statuses node [id] (some wait)) now ledger [ledger.statusOf id] ledger := by
  have hne : id ≠ "" := by
    rintro rfl
    exact absurd hlength (by decide)
  have hwait' : wait < UInt64.size := Nat.lt_of_le_of_lt (Nat.le_add_left wait _) hwait
  have hquery : ∀ cs, some (statusQuery id wait) = some cs → ∀ c ∈ cs, IsPlain c := by
    intro cs hcs
    cases hcs
    exact isPlain_statusQuery hid
  have hhandle := handle_statuses ledger port (statusQuery id wait)
  rw [showStatuses_statusQuery hid hne] at hhandle
  unfold Client.statuses
  rw [if_neg (by simpa using hwait)]
  refine Ends.bind (ends_request hclient.port_lt isPlainPath_statuses hquery
    (isSendable_ofLocal hclient.port_lt (length_statusQuery_le hwait' hlength))
    (toList_statusesUrl hclient.base) (Nat.add_pos_left hclient.patient _) rfl hhandle (by decide)
    (Envelope.parse_statuses _)) ?_
  exact Ends.bind (Ends.forIn_count (fun status : BatchStatus => .status status.status) _)
    (Ends.pure _)

end Statuses

/-! ## Reading the state -/

section State

variable {start : String}

/-- The query for the part of the state that digits name. -/
def stateQuery (start : String) : List Char := queryText [("address", start)]

theorem stateQuery_eq (start : String) : stateQuery start = "address=".toList ++ start.toList := by
  simp [stateQuery, queryText, List.intercalate]

theorem listState_stateQuery (hstart : ∀ c ∈ start.toList, Hex.IsAnyDigit c) :
    ledger.listState (stateQuery start) =
      (200, .record [("data", .list ((ledger.state.filter fun (address, _) =>
        start.toList.isPrefixOf address.toList).map fun (address, data) =>
          .record [("address", .text address), ("data", .text (Base64.encode data))])),
        ("paging", .record [])]) := by
  have hparameters : parameters (stateQuery start) = [("address", start)] := by
    refine parameters_queryText (by simp) ?_
    simp only [List.forall_mem_cons]
    exact ⟨⟨by decide, by decide, not_mem_of_isAnyDigit hstart (by decide)⟩, List.forall_mem_nil _⟩
  have hfound : parameter? (stateQuery start) "address" = some start := by
    rw [parameter?, hparameters]
    rfl
  simp only [listState, hfound, Option.getD_some]

theorem mapM_decodeEntry (entries : List (String × Bytes)) :
    (entries.map fun (address, data) =>
      ({ address, data := Base64.encode data } : EncodedEntry)).mapM Client.decodeEntry =
      .ok (entries.map fun (address, data) => { address, data }) := by
  rw [← Client.mapM_decodeEntry_encoded, List.map_map]
  rfl

/-- Digits behind the mark of the query. -/
theorem isPlain_stateQuery (hstart : ∀ c ∈ start.toList, Hex.IsAnyDigit c) :
    ∀ cs, some (stateQuery start) = some cs → ∀ c ∈ cs, IsPlain c := by
  have hname : ∀ c ∈ "address=".toList, IsPlain c := forall_mem_of_all (by decide)
  intro cs hcs c hc
  cases hcs
  rw [stateQuery_eq] at hc
  rcases List.mem_append.mp hc with hc | hc
  · exact hname c hc
  · exact isPlain_of_isAnyDigit c (hstart c hc)

theorem toList_stateUrl (hclient : client.IsLocal port) (start : String) :
    (client.stateUrl (some start)).toList = (localBase port).toList ++
      ("/state".toList ++ tail (some (stateQuery start))) := by
  rw [Client.stateUrl, hclient.base, stateQuery_eq]
  generalize localBase port = base
  simp [tail]

/-- All entries whose addresses start with these digits, on a single page. -/
theorem ends_listState (hclient : client.IsLocal port)
    (hstart : ∀ c ∈ start.toList, Hex.IsAnyDigit c)
    (hsendable : isSendable (ofLocal port "/state".toList (some (stateQuery start))) = true)
    (pages : Nat) :
    Ends (client.listState node (pages + 1) (some start)) now ledger
      ((ledger.state.filter fun (address, _) =>
        start.toList.isPrefixOf address.toList).map fun (address, data) => { address, data })
      ledger := by
  have hhandle := handle_state ledger port (some (stateQuery start))
  rw [Option.getD_some, listState_stateQuery hstart] at hhandle
  unfold Client.listState Client.statePages
  refine Ends.bind (ends_request hclient.port_lt isPlainPath_state (isPlain_stateQuery hstart)
    hsendable (toList_stateUrl hclient start) hclient.patient rfl hhandle (by decide)
    (Envelope.parse_entries _)) ?_
  refine Ends.bind (Ends.ofExcept (mapM_decodeEntry _)) ?_
  exact Ends.pure _

/-- Queries for no more than an address can be sent. -/
theorem isSendable_stateQuery (hport : port < 65536) (hlength : start.length ≤ 70) :
    isSendable (ofLocal port "/state".toList (some (stateQuery start))) = true := by
  have hpath : "/state".toList.length = 6 := by decide
  have hfirst : "address=".toList.length = 8 := by decide
  refine isSendable_ofLocal hport ?_
  rw [stateQuery_eq]
  simp only [tail, Option.elim, List.length_cons, List.length_append, hpath, hfirst]
  rw [String.length_toList]
  omega

end State

end Ledger

end CertRegistry
