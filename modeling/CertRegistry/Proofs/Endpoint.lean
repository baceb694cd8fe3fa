import CertRegistry.Endpoint
import CertRegistry.Proofs.Url.Query
import CertRegistry.Rest.Message

/-!
# Addresses of what a node has

An address is the base of an endpoint with a name behind it. If the endpoint is for HTTP and has
neither a query nor a fragment, the address is that of the name in the directory of the endpoint,
on the same host. Other endpoints are taken too, but no address that can be made from their bases is
of this kind.
-/

namespace CertRegistry.Endpoint

open Rest Url

/-- What is asked for at a node. -/
def resources : List String := ["blocks", "batches", "state", "batch_statuses"]

/-- Whether a base ends in the name of a directory or of a host, and not in a backslash, a tab, a
line end or a segment of dots. -/
def EndsInName (base : String) : Prop :=
  ∃ name, name ≠ [] ∧
    Path.Segment.of (Percent.encode Percent.inPath (lastName (unbroken base.toList))) = .enter name

/-- Whether the addresses made from a base are those of names in a directory of a URL. -/
structure Extends (base : String) (url : Url) (directory slashes : List Char) : Prop where
  path : url.path = directory ++ slashes
  slashes : ∀ c ∈ slashes, c = '/'
  named : EndsInName base → directory = Text.dropEndWhile (· = '/') url.path
  parse : ∀ name ∈ resources, Url.parse (base ++ "/" ++ name) =
    .ok { url with path := directory ++ '/' :: name.toList }
  sendable : ∀ name ∈ resources,
    isSendable { url with path := directory ++ '/' :: name.toList } = true ↔
      (∀ c ∈ url.hostText, c ∉ ['"', '\x60', '{', '}']) ∧
        (shownUrl { url with path := directory ++ '/' :: name.toList }).length ≤ maxUrlLength

variable {endpoint base : String} {url : Url}

theorem isPlainSegment_of_mem_resources :
    ∀ name ∈ resources, IsPlainSegment name.toList := by
  decide +kernel

theorem base_eq_ok : Endpoint.base endpoint = .ok base ↔ ∃ url,
    Url.parse (candidate endpoint) = .ok url ∧ url.hostText ≠ [] ∧
      base.toList = Text.dropEndWhile (· = '/') (candidate endpoint).toList := by
  unfold Endpoint.base
  cases Url.parse (candidate endpoint) with
  | error fault => simp
  | ok url =>
    by_cases hhost : url.hostText = []
    · simp [hhost]
    · simp only [if_neg hhost, Except.ok.injEq, exists_eq_left']
      rw [← String.toList_inj, String.toList_ofList, eq_comm]
      exact (and_iff_right hhost).symm

/-- An endpoint is the text of its base with slashes behind it. -/
theorem exists_slashes (hbase : Endpoint.base endpoint = .ok base) : ∃ slashes,
    (candidate endpoint).toList = base.toList ++ slashes ∧ ∀ c ∈ slashes, c = '/' := by
  obtain ⟨_, -, -, htext⟩ := base_eq_ok.mp hbase
  obtain ⟨slashes, hcandidate, hslashes⟩ :=
    Text.exists_dropEndWhile (· = '/') (candidate endpoint).toList
  rw [← htext] at hcandidate
  exact ⟨slashes, hcandidate, fun c hc => of_decide_eq_true (hslashes c hc)⟩

/-- The colon behind its scheme stands in a base. -/
theorem exists_visible {slashes : List Char} (hparse : Url.parse (candidate endpoint) = .ok url)
    (hcandidate : (candidate endpoint).toList = base.toList ++ slashes)
    (hslashes : ∀ c ∈ slashes, c = '/') : ∃ c ∈ base.toList, 0x20 < c.toNat := by
  obtain ⟨rest, hsplit⟩ := scheme_of_parse hparse
  obtain ⟨name, hstrip, -⟩ := splitScheme?_eq_some.mp hsplit
  have hcolon : ':' ∈ (candidate endpoint).toList := mem_of_mem_strip (by rw [hstrip]; simp)
  rw [hcandidate] at hcolon
  rcases List.mem_append.mp hcolon with h | h
  · exact ⟨':', h, by decide⟩
  · exact absurd (hslashes ':' h) (by decide)

/-- The endpoint and the addresses that are made from its base go on from the same text. -/
structure Shares (endpoint base : String) (slashes : List Char) : Prop where
  onlySlashes : ∀ c ∈ slashes, c = '/'
  endpoint : strip (candidate endpoint) = opened base.toList ++ slashes
  address : ∀ name ∈ resources, strip (base ++ "/" ++ name) =
    opened base.toList ++ '/' :: name.toList

theorem exists_shares (hbase : Endpoint.base endpoint = .ok base)
    (hend : ∀ c, (candidate endpoint).toList.getLast? = some c → 0x20 < c.toNat) :
    ∃ slashes, Shares endpoint base slashes := by
  -- What is visible in the base keeps the slashes and the name behind it from being dropped.
  obtain ⟨url, hparse, -⟩ := base_eq_ok.mp hbase
  obtain ⟨slashes, hcandidate, hslashes⟩ := exists_slashes hbase
  have hvisible := exists_visible hparse hcandidate hslashes
  refine ⟨slashes, hslashes, ?_, ?_⟩
  · rw [strip_append hcandidate hvisible (hcandidate ▸ hend), unbroken_eq_self]
    intro c hc
    rw [hslashes c hc]
    decide
  · intro name hname
    have htext : (base ++ "/" ++ name).toList = base.toList ++ '/' :: name.toList := by simp
    have hinside : ∀ c ∈ '/' :: name.toList, 0x20 < c.toNat := by
      intro c hc
      rcases List.mem_cons.mp hc with rfl | hc
      · decide
      · exact ((isPlainSegment_of_mem_resources name hname).visible hc).1
    rw [strip_append htext hvisible, unbroken_eq_self hinside]
    intro c hc
    rw [List.getLast?_append, List.getLast?_cons, Option.some_or] at hc
    exact hinside c (List.mem_of_getLast? (List.getLast?_cons.trans hc))

variable {slashes : List Char}

theorem kind_of_isPage (h : url.IsPage) : SchemeKind.of url.scheme = .web := by
  rcases h.scheme with hscheme | hscheme <;> rw [hscheme] <;> decide

theorem isSendable_of_isPage (h : url.IsPage) (hhost : url.hostText ≠ []) :
    isSendable url = true ↔ (∀ c ∈ url.hostText, c ∉ ['"', '\x60', '{', '}']) ∧
      (shownUrl url).length ≤ maxUrlLength := by
  have hscheme : (url.scheme = "http".toList ∨ url.scheme = "https".toList) = True :=
    eq_true h.scheme
  simp only [isSendable, isHttp, Bool.and_eq_true, Bool.or_eq_true, decide_eq_true_eq,
    Bool.not_eq_true', List.any_eq_false, hscheme, hhost, ne_eq, not_false_eq_true, true_and]

/-- Both are read up to the same place, where the slashes of the one and the name of the other
follow. -/
theorem Shares.begins (h : Shares endpoint base slashes)
    (hparse : Url.parse (candidate endpoint) = .ok url) (hkind : SchemeKind.of url.scheme = .web) :
    ∃ authority path here, Begins (opened base.toList) authority path here ∧
      url = readPath here .web (path ++ slashes) ∧
      ∀ name ∈ resources, Url.parse (base ++ "/" ++ name) =
        .ok (readPath here .web (path ++ '/' :: name.toList)) := by
  obtain ⟨authority, path, here, hbegins, -⟩ :=
    exists_begins hparse h.endpoint h.onlySlashes hkind
  refine ⟨authority, path, here, hbegins, ?_, fun name hname => ?_⟩
  · have hread := hbegins.parse_append h.endpoint fun c hc =>
      h.onlySlashes c (List.mem_of_head? hc) ▸ rfl
    rw [hparse] at hread
    exact Except.ok.inj hread
  · refine hbegins.parse_append (h.address name hname) fun c hc => ?_
    rw [List.head?_cons] at hc
    exact Option.some.inj hc ▸ rfl

/-- No address is for HTTP and free of queries and fragments if the endpoint is not. -/
theorem Shares.isPage (h : Shares endpoint base slashes)
    (hparse : Url.parse (candidate endpoint) = .ok url) {name : String} (hname : name ∈ resources)
    {address : Url} (haddress : Url.parse (base ++ "/" ++ name) = .ok address)
    (hpage : address.IsPage) : url.IsPage := by
  have hscheme : address.scheme = url.scheme := by
    obtain ⟨_, hsplit⟩ := scheme_of_parse haddress
    obtain ⟨_, hsplit'⟩ := scheme_of_parse hparse
    rw [h.address name hname] at hsplit
    rw [h.endpoint] at hsplit'
    obtain ⟨_, hfront, -⟩ := splitScheme?_front (by simp) hsplit
    rw [splitScheme?_append hfront] at hsplit'
    exact (Prod.mk.inj (Option.some.inj hsplit')).1
  obtain ⟨authority, path, here, hbegins, rfl, hread⟩ :=
    h.begins hparse (hscheme ▸ kind_of_isPage hpage)
  rw [hread name hname] at haddress
  obtain rfl := Except.ok.inj haddress
  have htail : ∀ c ∈ path ++ slashes, startsTail c = false := by
    intro c hc
    rcases List.mem_append.mp hc with hc | hc
    · exact startsTail_of_readPath hpage.query hpage.fragment c (List.mem_append_left _ hc)
    · rw [h.onlySlashes c hc]
      rfl
  rw [readPath_page here htail]
  exact ⟨hpage.scheme, rfl, rfl⟩

theorem getLast?_directory_of_endsInName {authority path : List Char} {here : Url}
    (h : Begins (opened base.toList) authority path here)
    (hpath : StartsPath path) (hname : EndsInName base) :
    (directory path).getLast? ≠ some '/' := by
  obtain ⟨name, hne, hname⟩ := hname
  rcases eq_or_ne path [] with rfl | hpath'
  · simp [directory, names, Path.walk, Path.toText]
  · rw [lastName_of_suffix hpath hpath' (h.suffix.trans (opened_suffix _))] at hname
    exact Url.getLast?_directory hpath hpath' hne hname

theorem Shares.exists_extends (h : Shares endpoint base slashes)
    (hparse : Url.parse (candidate endpoint) = .ok url) (hpage : url.IsPage)
    (hhost : url.hostText ≠ []) :
    ∃ directory blanks, Extends base url directory blanks := by
  obtain ⟨authority, path, here, hbegins, rfl, hread⟩ := h.begins hparse (kind_of_isPage hpage)
  have htail := startsTail_of_readPath hpage.query hpage.fragment
  have hpath : StartsPath path :=
    hbegins.startsPath fun c hc => htail c (List.mem_append_left _ hc)
  obtain ⟨blanks, hblanks⟩ := pathText_slashes hpath slashes.length
  rw [← List.eq_replicate_of_mem h.onlySlashes] at hblanks
  have haddress : ∀ name ∈ resources, readPath here .web (path ++ '/' :: name.toList) =
      { here with
        path := directory path ++ '/' :: name.toList, query := none, fragment := none } := by
    intro name hname
    have hplain := isPlainSegment_of_mem_resources name hname
    rw [readPath_page, pathText_name hpath hplain]
    intro c hc
    simp only [List.mem_append, List.mem_cons] at hc
    rcases hc with hc | rfl | hc
    · exact htail c (List.mem_append_left _ hc)
    · rfl
    · exact (hplain.visible hc).2
  rw [readPath_page here htail, hblanks] at hpage hhost ⊢
  refine ⟨directory path, List.replicate blanks '/', rfl, fun c hc => List.eq_of_mem_replicate hc,
    fun hname => ?_, fun name hname => ?_, fun name hname => ?_⟩
  · refine (Text.dropEndWhile_append (by simp) fun c hc => ?_).symm
    have hlast := getLast?_directory_of_endsInName hbegins hpath hname
    rw [hc] at hlast
    simpa using hlast
  · rw [hread name hname, haddress name hname]
  · exact isSendable_of_isPage ⟨hpage.scheme, rfl, rfl⟩ hhost

/-- A query behind an address is read as one, and the address as it would be read without it. -/
theorem Shares.parse_query (h : Shares endpoint base slashes)
    (hparse : Url.parse (candidate endpoint) = .ok url)
    (hvisible : ∃ c ∈ base.toList, 0x20 < c.toNat) (hkind : SchemeKind.of url.scheme = .web)
    {name : String} (hname : name ∈ resources) {address : Url}
    (haddress : Url.parse (base ++ "/" ++ name) = .ok address) (hquery : address.query = none)
    (hfragment : address.fragment = none) {query : List Char}
    (hlast : ∀ c, ('?' :: query).getLast? = some c → 0x20 < c.toNat) : ∃ fragment,
    Url.parse (base ++ "/" ++ name ++ "?" ++ String.ofList query) =
      .ok { address with query := some (queryOf query), fragment } := by
  obtain ⟨authority, path, here, hbegins, -, hread⟩ := h.begins hparse hkind
  rw [hread name hname] at haddress
  obtain rfl := Except.ok.inj haddress
  have htail := startsTail_of_readPath hquery hfragment
  obtain ⟨fragment, hquery⟩ := readPath_query here htail (unbroken query)
  have hinside : unbroken ('/' :: name.toList) = '/' :: name.toList := by
    refine unbroken_eq_self ?_
    rw [List.forall_mem_cons]
    exact ⟨by decide, fun c hc =>
      ((isPlainSegment_of_mem_resources name hname).visible hc).1⟩
  have htext : (base ++ "/" ++ name ++ "?" ++ String.ofList query).toList =
      base.toList ++ ('/' :: name.toList ++ '?' :: query) := by simp
  have hstrip : strip (base ++ "/" ++ name ++ "?" ++ String.ofList query) =
      opened base.toList ++ ('/' :: name.toList ++ '?' :: unbroken query) := by
    have hmark : unbroken ('?' :: query) = '?' :: unbroken query := rfl
    rw [strip_append htext hvisible, unbroken_append, hinside, hmark]
    intro c hc
    refine hlast c ?_
    rw [← List.append_assoc, List.getLast?_append, List.getLast?_cons, Option.some_or] at hc
    rw [List.getLast?_cons, hc]
  have hstart : ∀ c, ('/' :: name.toList ++ '?' :: unbroken query).head? = some c →
      SchemeKind.web.endsAuthority c = true := by
    rintro c ⟨⟩
    rfl
  refine ⟨fragment, ?_⟩
  rw [hbegins.parse_append hstrip hstart, ← List.append_assoc, hquery]
  rfl

/-- If an endpoint is for HTTP and free of queries and fragments, what is written behind one of its
addresses and a question mark is the query. -/
theorem exists_extends_query (hbase : Endpoint.base endpoint = .ok base)
    (hparse : Url.parse (candidate endpoint) = .ok url) (hpage : url.IsPage)
    (hend : ∀ c, (candidate endpoint).toList.getLast? = some c → 0x20 < c.toNat) :
    ∃ directory slashes, Extends base url directory slashes ∧
      ∀ name ∈ resources, ∀ query : List Char,
        (∀ c, ('?' :: query).getLast? = some c → 0x20 < c.toNat) → ∃ fragment,
          Url.parse (base ++ "/" ++ name ++ "?" ++ String.ofList query) =
            .ok { url with
                  path := directory ++ '/' :: name.toList
                  query := some (queryOf query)
                  fragment } := by
  obtain ⟨url', hparse', hhost, -⟩ := base_eq_ok.mp hbase
  obtain rfl := Except.ok.inj (hparse'.symm.trans hparse)
  obtain ⟨blanks, hshares⟩ := exists_shares hbase hend
  obtain ⟨slashes, hcandidate, hslashes⟩ := exists_slashes hbase
  obtain ⟨directory, slashes', hextends⟩ := hshares.exists_extends hparse hpage hhost
  refine ⟨directory, slashes', hextends, fun name hname query hlast => ?_⟩
  exact hshares.parse_query hparse (exists_visible hparse hcandidate hslashes)
    (kind_of_isPage hpage) hname (hextends.parse name hname) hpage.query hpage.fragment hlast

/-- The addresses that are made from the base of an endpoint are for HTTP and free of queries and
fragments if and only if the endpoint is. Then they are those of names in the directory of the
endpoint: scheme, credentials, host and port are the same. -/
theorem addresses_extend_endpoint (hbase : Endpoint.base endpoint = .ok base)
    (hend : ∀ c, (candidate endpoint).toList.getLast? = some c → 0x20 < c.toNat) :
    ∃ url, Url.parse (candidate endpoint) = .ok url ∧
      (∀ name ∈ resources, ∀ address, Url.parse (base ++ "/" ++ name) = .ok address →
        address.IsPage → url.IsPage) ∧
      (url.IsPage → ∃ directory slashes, Extends base url directory slashes) := by
  obtain ⟨url, hparse, hhost, -⟩ := base_eq_ok.mp hbase
  obtain ⟨slashes, hshares⟩ := exists_shares hbase hend
  refine ⟨url, hparse, fun name hname address haddress hpage => ?_, fun hpage => ?_⟩
  · exact hshares.isPage hparse hname haddress hpage
  · exact hshares.exists_extends hparse hpage hhost

/-- An endpoint on this machine, with a path and perhaps a query, is taken. -/
theorem base_local {path : List Char} {query : Option (List Char)} (hpath : IsPlainPath path)
    (hquery : ∀ cs, query = some cs → ∀ c ∈ cs, IsPlain c)
    (hcandidate : (candidate endpoint).toList = (localBase 8008).toList ++ (path ++ tail query))
    (hbase : base.toList = Text.dropEndWhile (· = '/') (candidate endpoint).toList) :
    Endpoint.base endpoint = .ok base := by
  refine base_eq_ok.mpr
    ⟨ofLocal 8008 path query, parse_local (by decide) hpath hquery hcandidate, ?_, hbase⟩
  show Ipv4.toText 0x7F000001 ≠ []
  rw [toText_local]
  decide

/-- Slashes at the end of an endpoint are left out, those before are kept. -/
theorem addresses_extend_endpoint_nested :
    Endpoint.base "127.0.0.1:8008/v1//" = .ok "http://127.0.0.1:8008/v1" ∧
      ∀ name ∈ resources,
        Url.parse ("http://127.0.0.1:8008/v1" ++ "/" ++ name) =
          .ok (ofLocal 8008 ("/v1/".toList ++ name.toList) none) := by
  have hpath : IsPlainPath "/v1//".toList := by decide +kernel
  have hcandidate : (candidate "127.0.0.1:8008/v1//").toList =
      (localBase 8008).toList ++ ("/v1//".toList ++ tail none) := by
    decide +kernel
  have hparse := parse_local (by decide) hpath isPlain_of_none hcandidate
  have hbase : Endpoint.base "127.0.0.1:8008/v1//" = .ok "http://127.0.0.1:8008/v1" :=
    base_local hpath isPlain_of_none hcandidate (by decide +kernel)
  have hend : (candidate "127.0.0.1:8008/v1//").toList.getLast? = some '/' := by decide +kernel
  refine ⟨hbase, fun name hname => ?_⟩
  obtain ⟨url, hurl, -, hextends⟩ := addresses_extend_endpoint hbase fun c hc => by
    rw [hend] at hc
    exact Option.some.inj hc ▸ (by decide)
  rw [hparse] at hurl
  obtain rfl := Except.ok.inj hurl
  obtain ⟨directory, slashes, hextends⟩ := hextends ⟨.inl rfl, rfl, rfl⟩
  have hnamed : EndsInName "http://127.0.0.1:8008/v1" :=
    ⟨"v1".toList, by decide, by decide +kernel⟩
  rw [hextends.parse name hname, hextends.named hnamed]
  rfl

/-- What is added to a query belongs to the query. -/
theorem address_continues_query :
    Endpoint.base "127.0.0.1:8008/?x=1" = .ok "http://127.0.0.1:8008/?x=1" ∧
      Url.parse ("http://127.0.0.1:8008/?x=1" ++ "/blocks") =
        .ok (ofLocal 8008 "/".toList (some "x=1/blocks".toList)) := by
  have hpath : IsPlainPath "/".toList := by decide +kernel
  have hquery : ∀ cs, some "x=1".toList = some cs → ∀ c ∈ cs, IsPlain c := by
    rintro cs ⟨⟩
    exact forall_mem_of_all (by decide)
  have hlonger : ∀ cs, some "x=1/blocks".toList = some cs → ∀ c ∈ cs, IsPlain c := by
    rintro cs ⟨⟩
    exact forall_mem_of_all (by decide)
  exact ⟨base_local hpath hquery (by decide +kernel) (by decide +kernel),
    parse_local (by decide) hpath hlonger (by decide +kernel)⟩

end CertRegistry.Endpoint
