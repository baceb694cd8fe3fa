import CertRegistry.Proofs.Node.Answers
import CertRegistry.Proofs.Rest.Exchanges

/-!
# Reading a list page by page

A list of the state begins at one address and goes on wherever its pages lead. Reading it gives the
entries of all pages in order, for one request each; the first page that fails ends it.
-/

namespace CertRegistry.Rest

deriving instance DecidableEq for Envelope

variable {σ α : Type}

/-- Where the list that an envelope is a part of goes on: nowhere, if that is not said. -/
inductive Envelope.LeadsTo (envelope : Envelope α) : Option String → Prop
  | unpaged (h : envelope.paging = none) : LeadsTo envelope none
  | unsaid (h : envelope.paging = some { next := none }) : LeadsTo envelope none
  | empty (h : envelope.paging = some { next := some "" }) : LeadsTo envelope none
  | onward {url : String} (h : envelope.paging = some { next := some url }) (hurl : url ≠ "") :
    LeadsTo envelope (some url)

theorem Envelope.LeadsTo.next?_eq {envelope : Envelope α} {next? : Option String}
    (h : envelope.LeadsTo next?) : envelope.next? = next? := by
  cases h with
  | unpaged h => simp [Envelope.next?, h]
  | unsaid h => simp [Envelope.next?, h]
  | empty h => simp [Envelope.next?, h]
  | onward h hurl => simp [Envelope.next?, h, hurl]

theorem Envelope.exists_leadsTo (envelope : Envelope α) : ∃ next?, envelope.LeadsTo next? := by
  cases hpaging : envelope.paging with
  | none => exact ⟨none, .unpaged hpaging⟩
  | some paging =>
    obtain ⟨next?⟩ := paging
    cases next? with
    | none => exact ⟨none, .unsaid hpaging⟩
    | some next =>
      by_cases hnext : next = ""
      · exact ⟨none, .empty (hnext ▸ hpaging)⟩
      · exact ⟨some next, .onward hpaging hnext⟩

/-! ## Entries -/

/-- Whether the data is the one Base64 text of some octets. -/
def EncodedEntry.IsWellSpelled (raw : EncodedEntry) : Prop :=
  ∃ octets, raw.data = Base64.encode octets

theorem EncodedEntry.exists_fault {raw : EncodedEntry} (h : ¬ raw.IsWellSpelled) :
    ∃ fault, Base64.decode raw.data = .error fault := by
  cases hdecode : Base64.decode raw.data with
  | error fault => exact ⟨fault, rfl⟩
  | ok octets => exact absurd ⟨octets, Base64.decode_eq_ok_iff.mp hdecode⟩ h

theorem EncodedEntry.exists_first_misspelled {raws : List EncodedEntry}
    (h : ¬ ∀ raw ∈ raws, raw.IsWellSpelled) : ∃ earlier raw later, raws = earlier ++ raw :: later ∧
      (∀ entry ∈ earlier, entry.IsWellSpelled) ∧ ¬ raw.IsWellSpelled := by
  induction raws with
  | nil => exact absurd (List.forall_mem_nil _) h
  | cons raw raws ih =>
    by_cases hraw : raw.IsWellSpelled
    · obtain ⟨earlier, other, later, rfl, hearlier, hother⟩ :=
        ih fun hrest => h (List.forall_mem_cons.mpr ⟨hraw, hrest⟩)
      exact ⟨raw :: earlier, other, later, rfl, List.forall_mem_cons.mpr ⟨hraw, hearlier⟩, hother⟩
    · exact ⟨[], raw, raws, rfl, List.forall_mem_nil _, hraw⟩

theorem EncodedEntry.exists_entries {raws : List EncodedEntry}
    (h : ∀ raw ∈ raws, raw.IsWellSpelled) :
    ∃ entries : List StateEntry, raws = entries.map StateEntry.encoded := by
  induction raws with
  | nil => exact ⟨[], rfl⟩
  | cons raw raws ih =>
    obtain ⟨⟨octets, hdata⟩, hrest⟩ := List.forall_mem_cons.mp h
    obtain ⟨entries, rfl⟩ := ih hrest
    refine ⟨{ address := raw.address, data := octets } :: entries, ?_⟩
    rw [List.map_cons, StateEntry.encoded, ← hdata]

namespace Client

theorem mapM_decodeEntry_eq_error {earlier later : List EncodedEntry} {raw : EncodedEntry}
    {fault : Base64.Fault} (hearlier : ∀ entry ∈ earlier, entry.IsWellSpelled)
    (hraw : Base64.decode raw.data = .error fault) :
    (earlier ++ raw :: later).mapM decodeEntry = .error (.badBase64 fault) := by
  obtain ⟨entries, rfl⟩ := EncodedEntry.exists_entries hearlier
  have hfault : decodeEntry raw = .error (.badBase64 fault) := by
    unfold decodeEntry decodeData
    rw [hraw]
    rfl
  rw [List.mapM_append, mapM_decodeEntry_encoded, List.mapM_cons, hfault]
  rfl

end Client

/-! ## Pages -/

/-- A page of the state, as it is sent. -/
abbrev Page := Envelope (List EncodedEntry)

namespace Page

def reader : Json.Reader Page := (Envelope.shape [] (.list EncodedEntry.shape.reader)).reader

/-- The request for the page at an address. -/
def call (url : String) : Call := { url, counted := some .state }

/-- Whether a node gives a page that can be read. -/
structure IsGiven (node : Node σ) (seconds : Nat) (url : String) (before : σ) (page : Page)
    (after : σ) : Prop where
  succeeds : (call url).Succeeds node seconds reader before page after
  wellSpelled : ∀ raw ∈ page.data, raw.IsWellSpelled

/-- Why there is no page to be read at an address: the request fails, or some data is not written in
Base64, of which the first counts. -/
inductive Fails (node : Node σ) (seconds : Nat) (url : String) (before : σ) : Fault → σ → Prop
  | request {fault : Fault} {ending : Ending} {after : σ}
    (h : (call url).ComesTo node seconds reader before (.error fault) ending after) :
    Fails node seconds url before fault after
  | misspelled {page : Page} {after : σ} {earlier later : List EncodedEntry} {raw : EncodedEntry}
    {fault : Base64.Fault} (h : (call url).Succeeds node seconds reader before page after)
    (hdata : page.data = earlier ++ raw :: later)
    (hearlier : ∀ entry ∈ earlier, entry.IsWellSpelled)
    (hraw : Base64.decode raw.data = .error fault) :
    Fails node seconds url before (.badBase64 fault) after

/-- Whether pages with their addresses follow one another from an address on, each of them given by
the node, and where the last one leads. -/
inductive Chain (node : Node σ) (seconds : Nat) :
    σ → Option String → List (String × Page) → Option String → σ → Prop
  | stay (state : σ) (next? : Option String) : Chain node seconds state next? [] next? state
  | turn {before middle after : σ} {url : String} {page : Page} {next? last? : Option String}
    {rest : List (String × Page)} (hgiven : page.IsGiven node seconds url before middle)
    (hnext : page.LeadsTo next?) (hrest : Chain node seconds middle next? rest last? after) :
    Chain node seconds before (some url) ((url, page) :: rest) last? after

/-- An address gives a page or has a fault. -/
theorem isGiven_or_fails (node : Node σ) (seconds : Nat) (url : String) (before : σ) :
    (∃ page after, IsGiven node seconds url before page after) ∨
      ∃ fault after, Fails node seconds url before fault after := by
  obtain ⟨result, ending, after, hcomes⟩ :=
    Call.exists_comesTo node seconds (call url) before reader
  cases result with
  | error fault => exact .inr ⟨fault, after, .request hcomes⟩
  | ok page =>
    by_cases hspelled : ∀ raw ∈ page.data, raw.IsWellSpelled
    · exact .inl ⟨page, after, hcomes.succeeds, hspelled⟩
    · obtain ⟨earlier, raw, later, hdata, hearlier, hraw⟩ :=
        EncodedEntry.exists_first_misspelled hspelled
      obtain ⟨fault, hfault⟩ := EncodedEntry.exists_fault hraw
      exact .inr ⟨_, after, .misspelled hcomes.succeeds hdata hearlier hfault⟩

end Page

/-! ## Reading -/

namespace Client

variable {node : Node σ} {client : Client} {s : Session σ} {before after : σ} {url : String}
  {page : Page} {next? last? : Option String} {chain : List (String × Page)} {fault : Fault}

/-- Reads the pages from an address on, if the list goes on at all. -/
def pagesFrom (node : Node σ) (client : Client) (limit : Nat) :
    Option String → Talk σ (List StateEntry)
  | none => pure []
  | some url => client.statePages node limit url

/-- The request for a page comes to what it comes to without a deadline. -/
theorem requestData_page {result : Except Fault Page} {ending : Ending}
    (h : (Page.call url).ComesTo node client.timeoutSeconds Page.reader s.node result ending
      after) :
    ∃ s', (requestData node (client.limits 0 none) .state [] (.list EncodedEntry.shape.reader)
        url).run.run s = (result, s') ∧ s'.node = after ∧ s.Visits [url] s' := by
  obtain ⟨millis, htime⟩ := Call.exists_inTime node (Page.call url) s.node
    (show (client.limits 0 none).deadline = none from rfl) s.clock
  obtain ⟨s', hrun, hnode, -, hattempts⟩ :=
    Talk.request_comesTo { url } .state Page.reader h htime
  exact ⟨s', hrun, hnode, .of_attempt hattempts rfl rfl⟩

/-- A page that is given adds its entries to those of the pages that it leads to. -/
theorem statePages_turn (hgiven : page.IsGiven node client.timeoutSeconds url s.node after)
    (hnext : page.LeadsTo next?) : ∃ entries s₁,
    page.data = entries.map StateEntry.encoded ∧ s₁.node = after ∧ s.Visits [url] s₁ ∧
      ∀ limit, (client.statePages node (limit + 1) url).run.run s =
        (pagesFrom node client limit next? >>= fun more => pure (entries ++ more)).run.run s₁ := by
  obtain ⟨delay, answer, text, hanswered, hstatus, hbody, hread⟩ := hgiven.succeeds
  obtain ⟨s₁, hrun, hnode, hvisits⟩ := requestData_page (.read hanswered hstatus hbody hread)
  obtain ⟨entries, hentries⟩ := EncodedEntry.exists_entries hgiven.wellSpelled
  refine ⟨entries, s₁, hentries, hnode, hvisits, fun limit => ?_⟩
  unfold statePages
  rw [Talk.run_bind, hrun]
  simp only [hentries, mapM_decodeEntry_encoded, hnext.next?_eq]
  cases next? with
  | none => simp [pagesFrom, ofExcept]
  | some next => rfl

theorem statePages_fails (h : Page.Fails node client.timeoutSeconds url s.node fault after)
    (limit : Nat) : ∃ s', (client.statePages node (limit + 1) url).run.run s = (.error fault, s') ∧
      s'.node = after ∧ s.Visits [url] s' := by
  unfold statePages
  rw [Talk.run_bind]
  cases h with
  | request h =>
    obtain ⟨s', hrun, hend⟩ := requestData_page h
    rw [hrun]
    exact ⟨s', rfl, hend⟩
  | misspelled h hdata hearlier hraw =>
    obtain ⟨delay, answer, text, hanswered, hstatus, hbody, hread⟩ := h
    obtain ⟨s', hrun, hend⟩ := requestData_page (.read hanswered hstatus hbody hread)
    rw [hrun]
    simp only [hdata, mapM_decodeEntry_eq_error hearlier hraw]
    exact ⟨s', rfl, hend⟩

/-- The pages of a chain are read one after the other, and then whatever they lead to. -/
theorem pagesFrom_chain
    (h : Page.Chain node client.timeoutSeconds s.node next? chain last? after) {limit : Nat}
    (hlimit : chain.length ≤ limit) : ∃ entries s₁,
    entries.map StateEntry.encoded = chain.flatMap (·.2.data) ∧ s₁.node = after ∧
      s.Visits (chain.map (·.1)) s₁ ∧
      (pagesFrom node client limit next?).run.run s =
        (pagesFrom node client (limit - chain.length) last? >>= fun more =>
          pure (entries ++ more)).run.run s₁ := by
  generalize hstart : s.node = start at h
  induction h generalizing s limit with
  | stay state next? => exact ⟨[], s, rfl, hstart, .of_attempts rfl, by simp⟩
  | @turn before middle after url page next? last? rest hgiven hnext hrest ih =>
    subst hstart
    obtain ⟨limit, rfl⟩ := Nat.exists_eq_add_of_le' (Nat.le_of_add_left_le hlimit)
    obtain ⟨entries, s₁, hentries, hnode, hvisits, hturn⟩ := statePages_turn hgiven hnext
    obtain ⟨more, s₂, hmore, hnode', hvisits', hrun⟩ :=
      ih (Nat.le_of_succ_le_succ hlimit) hnode
    refine ⟨entries ++ more, s₂, ?_, hnode', hvisits.trans hvisits', ?_⟩
    · rw [List.map_append, ← hentries, hmore, List.flatMap_cons]
    · show (client.statePages node (limit + 1) url).run.run s = _
      rw [hturn limit, List.length_cons, Nat.add_sub_add_right, Talk.run_bind, hrun]
      simp only [Talk.run_bind]
      rcases (pagesFrom node client (limit - rest.length) last?).run.run s₂ with ⟨result, s'⟩
      cases result with
      | error fault => rfl
      | ok others => simp only [Talk.run_pure, List.append_assoc]

/-- An address gives a page or has a fault. A list is read along the chain of its pages, with one
request each: what is returned are the entries of all pages in order, or else nothing but the fault
of the first address that has one, after which there are no more requests. -/
theorem listState_follows (node : Node σ) (client : Client) (s : Session σ)
    (subtree : Option String) (limit : Nat) :
    (∀ url before,
      (∃ page after, Page.IsGiven node client.timeoutSeconds url before page after) ∨
        ∃ fault after, Page.Fails node client.timeoutSeconds url before fault after) ∧
    (∀ chain after, Page.Chain node client.timeoutSeconds s.node
        (some (client.base ++ "/state" ++ subtree.elim "" ("?address=" ++ ·))) chain none after →
      chain.length ≤ limit →
      ∃ entries s', (client.listState node limit subtree).run.run s = (.ok entries, s') ∧
        entries.map StateEntry.encoded = chain.flatMap (·.2.data) ∧ s'.node = after ∧
        s.Visits (chain.map (·.1)) s') ∧
    ∀ chain url middle fault after, Page.Chain node client.timeoutSeconds s.node
        (some (client.base ++ "/state" ++ subtree.elim "" ("?address=" ++ ·))) chain (some url)
        middle →
      Page.Fails node client.timeoutSeconds url middle fault after → chain.length < limit →
      ∃ s', (client.listState node limit subtree).run.run s = (.error fault, s') ∧
        s'.node = after ∧ s.Visits (chain.map (·.1) ++ [url]) s' := by
  have hlist : client.listState node limit subtree = pagesFrom node client limit
      (some (client.base ++ "/state" ++ subtree.elim "" ("?address=" ++ ·))) := by
    cases subtree with
    | none => simp [listState, pagesFrom, stateUrl]
    | some subtree => rfl
  rw [hlist]
  refine ⟨Page.isGiven_or_fails node client.timeoutSeconds, ?_, ?_⟩
  · intro chain after hchain hlimit
    obtain ⟨entries, s', hentries, hnode, hvisits, hrun⟩ := pagesFrom_chain hchain hlimit
    refine ⟨entries, s', ?_, hentries, hnode, hvisits⟩
    rw [hrun, Talk.run_bind]
    simp only [pagesFrom, Talk.run_pure, List.append_nil]
  · intro chain url middle fault after hchain hfails hlimit
    obtain ⟨entries, s₁, -, rfl, hvisits, hrun⟩ := pagesFrom_chain hchain (Nat.le_of_lt hlimit)
    obtain ⟨s', hfail, hnode, hvisits'⟩ := statePages_fails hfails (limit - chain.length - 1)
    refine ⟨s', ?_, hnode, hvisits.trans hvisits'⟩
    rw [Nat.sub_add_cancel (Nat.sub_pos_of_lt hlimit)] at hfail
    rw [hrun, Talk.run_bind]
    simp only [pagesFrom, hfail]

/-- An answer with a page, as a node writes it. -/
def pageReply (entries : List EncodedEntry) (paging : Json.Value) : Reply :=
  .answer 0 (Talk.promptAnswer 200 (Bytes.ofText (Json.Value.record
    [("data", .list (entries.map fun entry =>
      .record [("address", .text entry.address), ("data", .text entry.data)])),
      ("paging", paging)]).compact))

/-- An answer that is there at once gives the page that it holds. -/
theorem succeeds_scripted (path : List Char) (query : Option (List Char)) {octets : Bytes}
    (more : List Reply) (hpath : Url.IsPlainPath path)
    (hquery : ∀ cs, query = some cs → ∀ c ∈ cs, Url.IsPlain c)
    (hlength : path.length + (Url.tail query).length ≤ 65000)
    (hurl : url.toList = (Url.localBase 8008).toList ++ (path ++ Url.tail query))
    (hread : (Page.reader.parse (Bytes.lenientText octets)).toOption = some page) :
    (Page.call url).Succeeds Node.scripted 30 Page.reader
      (.answer 0 (Talk.promptAnswer 200 octets) :: more) page more :=
  Call.succeeds_local (by decide) hpath hquery hlength hurl (by decide) rfl rfl (by decide)
    (toOption_eq_some.mp hread)

/-- Two pages, of which the second one leads nowhere or is misspelled. -/
theorem listState_follows_two_pages :
    let client : Client := { base := Url.localBase 8008, timeoutSeconds := 30 }
    let first := pageReply [⟨"0a", "AQ=="⟩] (.record [("next", .text (client.base ++ "/more"))])
    (∃ s', (client.listState Node.scripted 2 (some "0")).run.run
          { node := [first, pageReply [⟨"0b", ""⟩, ⟨"0c", "AQI="⟩] (.record [("next", .null)])] } =
        (.ok [⟨"0a", [1]⟩, ⟨"0b", []⟩, ⟨"0c", [1, 2]⟩], s') ∧
        s'.attempts.reverse.map (·.url) =
          [client.base ++ "/state?address=0", client.base ++ "/more"]) ∧
    ∃ s', (client.listState Node.scripted 2 (some "0")).run.run
          { node := [first, pageReply [⟨"0b", ""⟩, ⟨"0c", "AQI"⟩] .null] } =
        (.error (.badBase64 .badPadding), s') ∧
        s'.attempts.reverse.map (·.url) =
          [client.base ++ "/state?address=0", client.base ++ "/more"] := by
  intro client first
  have hmore : (client.base ++ "/more").toList =
      (Url.localBase 8008).toList ++ ("/more".toList ++ Url.tail none) := by
    rw [String.toList_append]
    rfl
  have hplain : Url.IsPlainPath "/more".toList := by decide +kernel
  let page : Page :=
    { data := [⟨"0a", "AQ=="⟩], paging := some { next := some (client.base ++ "/more") } }
  have honward : page.LeadsTo (some (client.base ++ "/more")) := .onward rfl (by decide +kernel)
  have hfirst : ∀ more, page.IsGiven Node.scripted 30 (client.base ++ "/state?address=0")
      (first :: more) more := by
    intro more
    refine ⟨succeeds_scripted "/state".toList (some "address=0".toList) more
      (by decide +kernel) ?_ (by decide) ?_
      (by decide +kernel), ?_⟩
    · rintro cs ⟨⟩
      exact forall_mem_of_all (by decide)
    · rw [String.toList_append]
      rfl
    · exact List.forall_mem_singleton.mpr ⟨[1], by decide +kernel⟩
  constructor
  · have hlast : Page.IsGiven Node.scripted 30 (client.base ++ "/more")
        [pageReply [⟨"0b", ""⟩, ⟨"0c", "AQI="⟩] (.record [("next", .null)])]
        { data := [⟨"0b", ""⟩, ⟨"0c", "AQI="⟩], paging := some { next := none } } [] := by
      refine ⟨succeeds_scripted _ none [] hplain nofun (by decide) hmore (by decide +kernel), ?_⟩
      simp only [List.forall_mem_cons]
      exact ⟨⟨[], by decide +kernel⟩, ⟨[1, 2], by decide +kernel⟩, List.forall_mem_nil _⟩
    obtain ⟨entries, s', hrun, hentries, -, hvisits⟩ :=
      (listState_follows Node.scripted client { node := _ } (some "0") 2).2.1 _ []
        (.turn (hfirst _) honward (.turn hlast (.unsaid rfl) (.stay _ _))) (Nat.le_refl 2)
    refine ⟨s', ?_, hvisits.urls_eq rfl⟩
    have hdecoded := mapM_decodeEntry_encoded entries
    rw [hentries] at hdecoded
    rw [hrun, ← hdecoded]
    exact congrArg (·, s') (toOption_eq_some.mp (by decide +kernel))
  · have hbroken : (Page.call (client.base ++ "/more")).Succeeds Node.scripted 30 Page.reader
        [pageReply [⟨"0b", ""⟩, ⟨"0c", "AQI"⟩] .null]
        { data := [⟨"0b", ""⟩, ⟨"0c", "AQI"⟩], paging := none } [] :=
      succeeds_scripted _ none [] hplain nofun (by decide) hmore (by decide +kernel)
    have hdata : [⟨"0b", ""⟩, ⟨"0c", "AQI"⟩] =
        ([⟨"0b", ""⟩] : List EncodedEntry) ++ ⟨"0c", "AQI"⟩ :: [] := rfl
    have hspelled : ∀ entry ∈ ([⟨"0b", ""⟩] : List EncodedEntry), entry.IsWellSpelled :=
      List.forall_mem_singleton.mpr ⟨[], by decide +kernel⟩
    obtain ⟨s', hrun, -, hvisits⟩ :=
      (listState_follows Node.scripted client { node := _ } (some "0") 2).2.2 _ _ _
        (.badBase64 .badPadding) [] (.turn (hfirst _) honward (.stay _ _))
        (.misspelled hbroken hdata hspelled (by decide +kernel)) (by decide)
    exact ⟨s', hrun, hvisits.urls_eq rfl⟩

end Client

end CertRegistry.Rest
