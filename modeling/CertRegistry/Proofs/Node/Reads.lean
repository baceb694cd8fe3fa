import CertRegistry.Proofs.Node.Requests
import CertRegistry.Proofs.Node.Serving
import CertRegistry.Proofs.Registry.Lookup

/-!
# The state of a node as a client sees it

A client reads what is stored under an address and lists what is stored under all addresses with
some digits in front. Both show the state as it is, octet for octet, as long as the request can
be written down; a URL that is too long is not sent.
-/

namespace CertRegistry.Ledger

open Json Rest Rest.Talk Url

/-! ## Where entries are kept -/

/-- Entries in the order of their addresses, each under a full address. -/
structure Filed (state : List (String × Bytes)) : Prop where
  ordered : Ordered state
  addressed : ∀ entry ∈ state, entry.1.length = Address.length

theorem filed_nil : Filed [] where
  ordered := List.Pairwise.nil
  addressed := List.forall_mem_nil _

namespace Filed

variable {state state' : List (String × Bytes)}

theorem addAgent (h : Filed state) {agent : Agent} (hadd : addAgent state agent = .ok state') :
    Filed state' := by
  obtain ⟨-, rfl⟩ := addAgent_eq_ok.mp hadd
  constructor
  · exact h.ordered.put _ _
  · intro entry hentry
    rcases eq_or_mem_of_mem_put hentry with rfl | hentry
    · exact Address.length_ofAgent agent.publicKey
    · exact h.addressed entry hentry

theorem applyAll (h : Filed state) (transactions : List Transaction) :
    Filed (applyAll state transactions).1 := by
  induction transactions generalizing state with
  | nil => exact h
  | cons t rest ih =>
    unfold Ledger.applyAll
    split
    · next state' happly =>
      obtain ⟨_, _, _, -, -, hadd⟩ := apply_eq_ok.mp happly
      exact ih (h.addAgent hadd)
    · exact h

theorem submitAll {ledger : Ledger} (h : Filed ledger.state) (batches : List Batch) :
    Filed (batches.foldl submit ledger).state := by
  induction batches generalizing ledger with
  | nil => exact h
  | cons b rest ih =>
    apply ih
    rw [state_submit]
    exact h.applyAll b.transactions

/-- No requests, whatever octets they carry, put an entry anywhere else. -/
theorem serve {ledger : Ledger} (h : Filed ledger.state) (requests : List Request) :
    Filed (ledger.serve requests).state := by
  rw [serve_eq_submit]
  exact h.submitAll _

/-- Only one entry starts with all the digits of a full address. -/
theorem filter_isPrefixOf (h : Filed state) {address : String}
    (hlength : address.length = Address.length) :
    state.filter (fun entry => address.toList.isPrefixOf entry.1.toList) =
      (state.lookup address).toList.map fun data => (address, data) := by
  rw [← h.ordered.filter_address]
  refine List.filter_congr fun entry hentry => ?_
  rw [Bool.eq_iff_iff, List.isPrefixOf_iff_prefix, decide_eq_true_eq]
  constructor
  · intro hfront
    refine (String.toList_inj.mp (hfront.eq_of_length ?_)).symm
    rw [String.length_toList, String.length_toList, hlength, h.addressed entry hentry]
  · rintro rfl
    exact List.prefix_rfl

end Filed

/-! ## Requests for the state -/

variable {client : Client} {port now : Nat} {ledger : Ledger} {address : String}

/-- The URL of what is stored under an address. -/
def addressUrl (port : Nat) (address : String) : Url :=
  ofLocal port ("/state/".toList ++ address.toList) none

/-- The URL of what is stored under addresses with some digits in front. -/
def subtreeUrl (port : Nat) (start : String) : Url :=
  ofLocal port "/state".toList (some (stateQuery start))

theorem isPlainSegment_digits {digits : List Char} (h : ∀ c ∈ digits, Hex.IsAnyDigit c) :
    IsPlainSegment digits where
  entered := by
    cases digits with
    | nil => rfl
    | cons c rest =>
      have hdots : ∀ c, Hex.IsAnyDigit c → c ≠ '.' ∧ c ≠ '%' := Hex.forall_isAnyDigit (by decide)
      have hc := hdots c (h c List.mem_cons_self)
      have hnone : Path.dots? (c :: rest) = none := by
        unfold Path.dots?
        split
        · next heq => cases heq
        · next heq => exact absurd (List.cons.inj heq).1 hc.1
        · next heq => exact absurd (List.cons.inj heq).1 hc.2
        · next heq => exact absurd (List.cons.inj heq).1 hc.2
        · rfl
      simp only [Path.Segment.of, hnone]
  inside := by
    have hdigit : ∀ c, Hex.IsAnyDigit c → c.toNat < 0x80 ∧ Percent.inPath c = false ∧
        SchemeKind.web.isSlash c = false := Hex.forall_isAnyDigit (by decide)
    exact fun c hc => hdigit c (h c hc)

theorem isPlainPath_address (h : ∀ c ∈ address.toList, Hex.IsAnyDigit c) :
    IsPlainPath ("/state/".toList ++ address.toList) := by
  have hstate : IsPlainSegment "state".toList := ⟨by decide, forall_mem_of_all (by decide)⟩
  have hpath : "/state/".toList ++ address.toList =
      '/' :: ("state".toList ++ '/' :: address.toList) := rfl
  rw [hpath]
  exact hstate.isPlainPath_pair (isPlainSegment_digits h)

theorem parse_addressUrl (hclient : client.IsLocal port)
    (h : ∀ c ∈ address.toList, Hex.IsAnyDigit c) :
    Url.parse (client.base ++ "/state/" ++ address) = .ok (addressUrl port address) := by
  refine parse_local hclient.port_lt (isPlainPath_address h) isPlain_of_none ?_
  rw [hclient.base]
  simp [tail]

theorem handle_address (ledger : Ledger) (port : Nat) (address : String) :
    ledger.handle { method := .get, url := addressUrl port address } =
      (ledger.showState address, ledger) := by
  have hfound : stateAddress? (addressUrl port address).path = some address := by
    have hpath : (addressUrl port address).path = "/state/".toList ++ address.toList := rfl
    unfold stateAddress?
    simp only [hpath]
    rw [if_pos (List.isPrefixOf_iff_prefix.mpr (List.prefix_append _ _)), List.drop_left,
      String.ofList_toList]
  -- No resource of the node has a slash behind its name.
  have hother : ∀ name : String, name.toList.take 7 ≠ "/state/".toList →
      String.ofList (addressUrl port address).path ≠ name := by
    rintro _ hname rfl
    refine hname ?_
    rw [String.toList_ofList]
    exact List.take_left' (by decide)
  unfold Ledger.handle
  simp only
  split
  · next heq => exact absurd heq (hother _ (by decide))
  · next heq => exact absurd heq (hother _ (by decide))
  · next heq => exact absurd heq (hother _ (by decide))
  · next heq => exact absurd heq (hother _ (by decide))
  · rw [hfound]
  · next hnever _ _ _ _ => exact (hnever rfl).elim

theorem filter_isPrefixOf_empty (state : List (String × Bytes)) :
    (state.filter fun (address, _) => "".toList.isPrefixOf address.toList) = state :=
  List.filter_eq_self.mpr fun _ _ => rfl

theorem listState_nil (ledger : Ledger) : ledger.listState [] =
    (200, .record [("data", .list (ledger.state.map fun (address, data) =>
      .record [("address", .text address), ("data", .text (Base64.encode data))])),
      ("paging", .record [])]) := by
  have hnone : parameter? [] "address" = none := by decide
  simp only [listState, hnone, Option.getD_none, filter_isPrefixOf_empty]

/-! ## What a client reads -/

/-- What is stored under an address is read as it is. -/
theorem ends_readState (hclient : client.IsLocal port)
    (hdigits : ∀ c ∈ address.toList, Hex.IsAnyDigit c)
    (hsendable : isSendable (addressUrl port address) = true) :
    Ends (client.readState node address) now ledger (ledger.state.lookup address) ledger := by
  have hparse := parse_addressUrl hclient hdigits
  refine Ends.get_bind fun s _ hclock => ?_
  subst hclock
  cases hlookup : ledger.state.lookup address with
  | none =>
    have hreply : node.reply ledger { method := .get, url := addressUrl port address } =
        (.answer 0 (promptAnswer 404 (Bytes.ofText (refusal 404 "State Not Found").2.compact)),
          ledger) := by
      simp only [node, handle_address, showState, hlookup]
      rfl
    refine Ends.bind (Ends.send hparse hsendable rfl hclient.patient rfl hreply) ?_
    exact Ends.bind (Ends.count _ _) (Ends.pure _)
  | some data =>
    have hreply : node.reply ledger { method := .get, url := addressUrl port address } =
        (.answer 0 (promptAnswer 200 (Bytes.ofText
          (Value.record [("data", .text (Base64.encode data))]).compact)), ledger) := by
      simp only [node, handle_address, showState, hlookup]
      rfl
    have hbody : (Envelope.shape "" .text).reader.parse (Bytes.lenientText (Bytes.ofText
        (Value.record [("data", .text (Base64.encode data))]).compact)) =
        .ok { data := Base64.encode data } :=
      (lenientText_compact _).symm ▸ Envelope.parse_text _
    have hdata : Client.decodeData (Base64.encode data) = .ok data := by
      simp only [Client.decodeData, Base64.decode_encode]
    refine Ends.bind (Ends.send hparse hsendable rfl hclient.patient rfl hreply) ?_
    refine Ends.bind (Ends.accept (by decide) _ _) ?_
    refine Ends.bind (Ends.decode hclient.patient rfl hbody) ?_
    exact Ends.bind (Ends.ofExcept hdata) (Ends.pure _)

theorem fails_readState (hclient : client.IsLocal port)
    (hdigits : ∀ c ∈ address.toList, Hex.IsAnyDigit c)
    (hsendable : isSendable (addressUrl port address) = false) :
    Fails (client.readState node address) now ledger
      (.transport (.unsendable (addressUrl port address))) := by
  refine Fails.get_bind fun s _ _ => ?_
  refine Fails.of_ends
    (Ends.send_of_unsendable (parse_addressUrl hclient hdigits) hsendable) ?_
  exact Fails.bind (Fails.accept _ _ _)

/-- All entries, on a single page. -/
theorem ends_listAll (hclient : client.IsLocal port) (pages : Nat) :
    Ends (client.listState node (pages + 1) none) now ledger
      (ledger.state.map fun (address, data) => { address, data }) ledger := by
  have hurl : (client.stateUrl none).toList =
      (localBase port).toList ++ ("/state".toList ++ tail none) := by
    rw [Client.stateUrl, hclient.base]
    generalize localBase port = base
    simp [tail]
  have hhandle := handle_state ledger port none
  rw [Option.getD_none, listState_nil] at hhandle
  unfold Client.listState Client.statePages
  refine Ends.bind (ends_request hclient.port_lt isPlainPath_state isPlain_of_none
    (isSendable_ofLocal hclient.port_lt (by decide)) hurl hclient.patient rfl hhandle (by decide)
    (Envelope.parse_entries _)) ?_
  refine Ends.bind (Ends.ofExcept (mapM_decodeEntry _)) ?_
  exact Ends.pure _

theorem fails_listState (hclient : client.IsLocal port) {start : String}
    (hdigits : ∀ c ∈ start.toList, Hex.IsAnyDigit c)
    (hsendable : isSendable (subtreeUrl port start) = false) (pages : Nat) :
    Fails (client.listState node (pages + 1) (some start)) now ledger
      (.transport (.unsendable (subtreeUrl port start))) := by
  have hparse := parse_local hclient.port_lt isPlainPath_state (isPlain_stateQuery hdigits)
    (toList_stateUrl hclient start)
  unfold Client.listState Client.statePages
  exact Fails.bind (Fails.request hparse hsendable)

/-! ## Faithful reads -/

/-- The entries under addresses with some digits in front, in the order of the addresses. -/
structure IsPart (state : List (String × Bytes)) (start : String) (entries : List StateEntry) :
    Prop where
  mem_iff : ∀ entry, entry ∈ entries ↔
    (entry.address, entry.data) ∈ state ∧ start.toList <+: entry.address.toList
  ascending : entries.Pairwise fun e e' => e.address < e'.address

/-- Whether a client reads the state of a node as it is, at whatever time and on as many pages as
it likes. Requests whose URL is too long fail before they are sent. -/
structure ShowsFaithfully (client : Client) (port : Nat) (ledger : Ledger) : Prop where
  address : ∀ now (address : String), (∀ c ∈ address.toList, Hex.IsAnyDigit c) →
    (addressUrl port address).toText.length ≤ maxUrlLength →
    ∃ stored, Ends (client.readState node address) now ledger stored ledger ∧
      ∀ data, stored = some data ↔ (address, data) ∈ ledger.state
  part : ∀ now pages (start : String), (∀ c ∈ start.toList, Hex.IsAnyDigit c) →
    (subtreeUrl port start).toText.length ≤ maxUrlLength →
    ∃ entries, Ends (client.listState node (pages + 1) (some start)) now ledger entries ledger ∧
      IsPart ledger.state start entries
  all : ∀ now pages, ∃ entries,
    Ends (client.listState node (pages + 1) none) now ledger entries ledger ∧
      IsPart ledger.state "" entries
  agree : ∀ now pages (address : String), (∀ c ∈ address.toList, Hex.IsAnyDigit c) →
    address.length = Address.length →
    ∃ stored, Ends (client.readState node address) now ledger stored ledger ∧
      Ends (client.listState node (pages + 1) (some address)) now ledger
        (stored.toList.map fun data => { address, data }) ledger
  tooLong : ∀ now pages (digits : String), (∀ c ∈ digits.toList, Hex.IsAnyDigit c) →
    (maxUrlLength < (addressUrl port digits).toText.length →
      Fails (client.readState node digits) now ledger
        (.transport (.unsendable (addressUrl port digits)))) ∧
    (maxUrlLength < (subtreeUrl port digits).toText.length →
      Fails (client.listState node (pages + 1) (some digits)) now ledger
        (.transport (.unsendable (subtreeUrl port digits))))

theorem Filed.isPart {state : List (String × Bytes)} (h : Filed state) (start : String) :
    IsPart state start ((state.filter fun (address, _) =>
      start.toList.isPrefixOf address.toList).map fun (address, data) => { address, data }) := by
  constructor
  · intro entry
    simp only [List.mem_map, List.mem_filter, List.isPrefixOf_iff_prefix]
    constructor
    · rintro ⟨e, ⟨hmem, hfront⟩, rfl⟩
      exact ⟨hmem, hfront⟩
    · rintro ⟨hmem, hfront⟩
      exact ⟨(entry.address, entry.data), ⟨hmem, hfront⟩, rfl⟩
  · rw [List.pairwise_map]
    exact h.ordered.filter _

/-- Whatever requests a node got since it started, clients read its state as it is. -/
theorem shows_faithfully (hclient : client.IsLocal port) (requests : List Request) :
    ShowsFaithfully client port (serve {} requests) := by
  have hfiled : Filed (serve {} requests).state := filed_nil.serve requests
  generalize serve {} requests = ledger at hfiled
  constructor
  · intro now address hdigits hlength
    refine ⟨_, ends_readState hclient hdigits (isSendable_ofLocal_iff.mpr hlength), ?_⟩
    exact fun data => hfiled.ordered.lookup_eq_some_iff
  · intro now pages start hdigits hlength
    exact ⟨_, ends_listState hclient hdigits (isSendable_ofLocal_iff.mpr hlength) pages,
      hfiled.isPart start⟩
  · intro now pages
    have hpart := hfiled.isPart ""
    rw [filter_isPrefixOf_empty] at hpart
    exact ⟨_, ends_listAll hclient pages, hpart⟩
  · intro now pages address hdigits hlength
    have haddress : isSendable (addressUrl port address) = true := by
      have hpath : "/state/".toList.length = 7 := by decide
      refine isSendable_ofLocal hclient.port_lt ?_
      simp only [tail, Option.elim, List.length_append, List.length_nil, hpath]
      rw [String.length_toList, hlength]
      decide
    have hlist := @ends_listState now port client ledger address hclient hdigits
      (isSendable_stateQuery hclient.port_lt (Nat.le_of_eq hlength)) pages
    rw [hfiled.filter_isPrefixOf hlength, List.map_map] at hlist
    exact ⟨_, ends_readState hclient hdigits haddress, hlist⟩
  · intro now pages digits hdigits
    constructor
    · intro hlength
      refine fails_readState hclient hdigits ?_
      rw [Bool.eq_false_iff, ne_eq, addressUrl, isSendable_ofLocal_iff]
      exact Nat.not_le.mpr hlength
    · intro hlength
      refine fails_listState hclient hdigits ?_ pages
      rw [Bool.eq_false_iff, ne_eq, subtreeUrl, isSendable_ofLocal_iff]
      exact Nat.not_le.mpr hlength

/-- What was registered is read back, octet for octet. -/
theorem shows_faithfully_registration :
    Ends (Client.readState node { base := localBase 8008, timeoutSeconds := 30 }
        (Address.ofAgent "a")) 0 (serve {} [registration "a" "A"])
      (some (AgentContainer.schema.encode
        { entries := [{ publicKey := "a", name := "A", timestamp := 1 }] }))
      (serve {} [registration "a" "A"]) := by
  have hclient : Client.IsLocal { base := localBase 8008, timeoutSeconds := 30 } 8008 :=
    ⟨by decide, rfl, by decide⟩
  have hshows := shows_faithfully hclient [registration "a" "A"]
  obtain ⟨stored, hends, hstored⟩ := hshows.address 0 (Address.ofAgent "a")
    (fun c hc => (Address.isDigit_ofAgent "a" c hc).isAny) (by decide +kernel)
  have hmem : (Address.ofAgent "a", AgentContainer.schema.encode
      { entries := [{ publicKey := "a", name := "A", timestamp := 1 }] }) ∈
      (serve {} [registration "a" "A"]).state := by decide +kernel
  rwa [(hstored _).mpr hmem] at hends

/-- Nothing is read under an address of seventy thousand digits, not even that there is nothing. -/
theorem long_address_unread :
    (∀ c ∈ (String.ofList (List.replicate 70000 'a')).toList, Hex.IsAnyDigit c) ∧
      ¬ ∃ stored, Ends (Client.readState node { base := localBase 8008, timeoutSeconds := 30 }
        (String.ofList (List.replicate 70000 'a'))) 0 (serve {} []) stored (serve {} []) := by
  have hclient : Client.IsLocal { base := localBase 8008, timeoutSeconds := 30 } 8008 :=
    ⟨by decide, rfl, by decide⟩
  have hdigits : ∀ c ∈ (String.ofList (List.replicate 70000 'a')).toList, Hex.IsAnyDigit c := by
    intro c hc
    rw [String.toList_ofList] at hc
    rw [(List.mem_replicate.mp hc).2]
    decide
  have hlong : isSendable (addressUrl 8008 (String.ofList (List.replicate 70000 'a'))) = false := by
    have hlength : (String.ofList (List.replicate 70000 'a')).toList.length = 70000 := by
      rw [String.toList_ofList, List.length_replicate]
    rw [Bool.eq_false_iff, ne_eq, addressUrl, isSendable_ofLocal_iff, length_toText_ofLocal,
      List.length_append, hlength, maxUrlLength]
    omega
  refine ⟨hdigits, ?_⟩
  rintro ⟨stored, hends⟩
  exact (fails_readState hclient hdigits hlong).not_ends stored hends

end CertRegistry.Ledger
