import CertRegistry.Proofs.Stages
import CertRegistry.Proofs.Url.Path

/-!
# URLs that are added to

How the text of a URL of the web is read when slashes or a name are written behind it. Scheme,
credentials, host and port stay what they are; what is added belongs to the path, unless a query or
a fragment has begun.
-/

namespace CertRegistry.Url

variable {front more scheme rest authority path : List Char} {url here : Url}

/-! ## The text and the scheme -/

/-- The text without tabs and line ends, and without controls and spaces in front. -/
def opened (cs : List Char) : List Char := unbroken (cs.dropWhile isOuter)

/-- What is left of a text is the end of what is left of it with its front. -/
theorem opened_suffix (cs : List Char) : opened cs <:+ unbroken cs :=
  (List.dropWhile_suffix _).filter _

theorem mem_of_mem_strip {text : String} {c : Char} (h : c ∈ strip text) : c ∈ text.toList := by
  have hmem := List.mem_reverse.mp ((List.dropWhile_suffix _).subset
    (List.mem_reverse.mp (List.mem_of_mem_filter h)))
  exact (List.dropWhile_suffix _).subset hmem

/-- Where something is visible at the end of a text, nothing but tabs and line ends is left out
behind its front. -/
theorem strip_append {text : String} (htext : text.toList = front ++ more)
    (hfront : ∃ c ∈ front, 0x20 < c.toNat)
    (hlast : ∀ c, (front ++ more).getLast? = some c → 0x20 < c.toNat) :
    strip text = opened front ++ unbroken more := by
  obtain ⟨c, hc, hvisible⟩ := hfront
  have hne : front.dropWhile isOuter ≠ [] := by
    intro hnil
    have hdropped := List.dropWhile_eq_nil_iff.mp hnil c hc
    rw [isOuter_eq_false.mpr hvisible] at hdropped
    cases hdropped
  have hdrop : (front ++ more).dropWhile isOuter = front.dropWhile isOuter ++ more := by
    rw [List.dropWhile_append, if_neg (by simpa using hne)]
  have hkept : Text.dropEndWhile isOuter ((front ++ more).dropWhile isOuter) =
      (front ++ more).dropWhile isOuter := by
    obtain ⟨dropped, hdropped⟩ := List.dropWhile_suffix isOuter (l := front ++ more)
    refine Text.dropEndWhile_eq_self fun c hc => isOuter_eq_false.mpr (hlast c ?_)
    rw [← hdropped, List.getLast?_append, hc, Option.some_or]
  rw [strip_eq, htext, hkept, hdrop, unbroken, List.filter_append]
  rfl

theorem splitScheme?_eq_some {cs : List Char} : splitScheme? cs = some (scheme, rest) ↔
    ∃ name, cs = name ++ ':' :: rest ∧ name.head?.any Char.isAlpha = true ∧
      (∀ c ∈ name, isSchemeChar c = true) ∧ scheme = name.map Char.toLower := by
  constructor
  · intro h
    unfold splitScheme? at h
    split at h
    · cases h
    · rename_i first tail
      split at h
      · rename_i name rest' hspan
        obtain ⟨hparts, hname, -⟩ := of_span hspan
        split at h
        · rename_i hfirst
          cases h
          refine ⟨name, hparts, ?_, hname, rfl⟩
          cases name with
          | nil => cases hparts; cases hfirst
          | cons c name => cases hparts; simpa using hfirst
        · cases h
      · cases h
  · rintro ⟨name, rfl, hfirst, hname, rfl⟩
    have hspan : (name ++ ':' :: rest).span isSchemeChar = (name, ':' :: rest) := by
      refine span_append hname fun c hc => ?_
      cases hc
      decide
    cases name with
    | nil => cases hfirst
    | cons first name =>
      unfold splitScheme?
      rw [List.cons_append] at hspan ⊢
      simp only [hspan]
      rw [if_pos (by simpa using hfirst)]

/-- What follows the scheme does not change it. -/
theorem splitScheme?_append (h : splitScheme? front = some (scheme, rest)) (more : List Char) :
    splitScheme? (front ++ more) = some (scheme, rest ++ more) := by
  obtain ⟨name, rfl, hfirst, hname, hscheme⟩ := splitScheme?_eq_some.mp h
  exact splitScheme?_eq_some.mpr ⟨name, by simp, hfirst, hname, hscheme⟩

/-- What starts with a slash is no part of a scheme. -/
theorem splitScheme?_front (hmore : ∀ c, more.head? = some c → c = '/')
    (h : splitScheme? (front ++ more) = some (scheme, rest)) :
    ∃ rest', splitScheme? front = some (scheme, rest') ∧ rest = rest' ++ more := by
  obtain ⟨name, hsplit, hfirst, hname, hscheme⟩ := splitScheme?_eq_some.mp h
  rcases List.append_eq_append_iff.mp hsplit with ⟨gap, rfl, hgap⟩ | ⟨gap, rfl, hgap⟩
  · cases gap with
    | nil =>
      have hcolon := hmore ':' (by rw [hgap]; rfl)
      exact absurd hcolon (by decide)
    | cons c gap =>
      obtain rfl := hmore c (by rw [hgap]; rfl)
      exact absurd (hname '/' (by simp)) (by decide)
  · cases gap with
    | nil =>
      have hcolon := hmore ':' (by rw [← List.nil_append more, ← hgap]; rfl)
      exact absurd hcolon (by decide)
    | cons c gap =>
      rw [List.cons_append] at hgap
      obtain ⟨rfl, rfl⟩ := List.cons.inj hgap
      exact ⟨gap, splitScheme?_eq_some.mpr ⟨name, rfl, hfirst, hname, hscheme⟩, rfl⟩

/-! ## The host -/

theorem mem_of_mem_splitHost {inside : Bool} {cs : List Char} {c : Char}
    (h : c ∈ (splitHost inside cs).2) : c ∈ cs := by
  fun_induction splitHost inside cs with
  | case1 => exact h
  | case2 => exact h
  | case3 _ _ _ _ _ _ _ heq ih =>
    rw [heq] at ih
    exact List.mem_cons_of_mem _ (ih h)

theorem mem_of_mem_splitLastAt {cs : List Char} {c : Char} (h : c ∈ (splitLastAt cs).2) :
    c ∈ cs := by
  unfold splitLastAt at h
  split at h
  · rename_i after mark before hspan
    rw [← List.mem_reverse, (of_span hspan).1]
    exact List.mem_append_left _ (List.mem_reverse.mp h)
  · exact h

theorem readHost_nil {r : Host × Option Nat} : readHost .web scheme [] ≠ .ok r := by
  simp [readHost, splitHost, bind, Except.bind, throw, throwThe, MonadExceptOf.throw]

/-- What is read before the path of a URL of the web is there, and does not depend on the path. -/
theorem readAuthority_web (h : readAuthority .web scheme authority more url = .ok here) :
    authority ≠ [] ∧ ∀ rest, readAuthority .web scheme authority rest url = .ok here := by
  have hhost : (splitLastAt authority).2 ≠ [] := by
    intro hnil
    unfold readAuthority at h
    simp only [hnil] at h
    split at h
    · cases h
    · obtain ⟨r, hr, -⟩ := bind_eq_ok.mp h
      exact readHost_nil hr
  refine ⟨?_, fun rest => ?_⟩
  · rintro rfl
    exact hhost (by decide)
  · unfold readAuthority at h ⊢
    simp only [hhost, false_and, and_false, if_false] at h ⊢
    exact h

theorem readHierarchy_web (hauthority : ∀ c ∈ authority, SchemeKind.web.endsAuthority c = false)
    (hpath : ∀ c, path.head? = some c → SchemeKind.web.endsAuthority c = true) :
    readHierarchy .web scheme (authority ++ path) = .ok url ↔
      ∃ here, readAuthority .web scheme authority path { scheme } = .ok here ∧
        url = readPath here .web path := by
  have hspan : (authority ++ path).span (!SchemeKind.web.endsAuthority ·) = (authority, path) :=
    span_append (fun c hc => by simp [hauthority c hc]) fun c hc => by simp [hpath c hc]
  have hdrop : (splitHost false (splitLastAt authority).2).2.dropWhile (· ≠ '\\') = [] := by
    rw [List.dropWhile_eq_nil_iff]
    intro c hc
    have hends := hauthority c (mem_of_mem_splitLastAt (mem_of_mem_splitHost hc))
    refine decide_eq_true ?_
    rintro rfl
    exact absurd hends (by decide)
  unfold readHierarchy
  rw [hspan]
  simp only [hdrop, List.nil_append]
  rw [bind_eq_ok]
  simp only [pure, Except.pure, Except.ok.injEq, eq_comm]

/-! ## The scheme of a URL -/

theorem scheme_readAuthority {kind : SchemeKind}
    (h : readAuthority kind scheme authority more url = .ok here) : here.scheme = url.scheme := by
  unfold readAuthority at h
  simp only at h
  split at h
  · cases h
  · obtain ⟨_, -, h⟩ := bind_eq_ok.mp h
    split at h
    · cases h
    · cases h
      rfl

theorem scheme_readHierarchy {kind : SchemeKind} {cs : List Char}
    (h : readHierarchy kind scheme cs = .ok url) : url.scheme = scheme := by
  obtain ⟨here, hhere, h⟩ := bind_eq_ok.mp h
  cases h
  exact scheme_readAuthority hhere

theorem scheme_readFile {cs : List Char} (h : readFile scheme cs = .ok url) :
    url.scheme = scheme := by
  unfold readFile at h
  split at h
  · split at h
    · simp only at h
      split at h
      · cases h
        rfl
      · obtain ⟨host, -, h⟩ := bind_eq_ok.mp h
        split at h <;> cases h <;> rfl
    · cases h
      rfl
  · cases h
    rfl

/-- A URL has the scheme that its text starts with. -/
theorem scheme_of_parse {text : String} (h : parse text = .ok url) :
    ∃ rest, splitScheme? (strip text) = some (url.scheme, rest) := by
  unfold parse at h
  cases hsplit : splitScheme? (strip text) with
  | none =>
    rw [hsplit] at h
    cases h
  | some split =>
    obtain ⟨scheme, rest⟩ := split
    rw [hsplit] at h
    simp only at h
    have hscheme : url.scheme = scheme := by
      split at h
      · exact scheme_readHierarchy h
      · exact scheme_readFile h
      · unfold readOther at h
        split at h
        · exact scheme_readHierarchy h
        · cases h
          rfl
        · cases h
          rfl
    exact ⟨rest, by rw [hscheme]⟩

/-! ## The path -/

/-- Whether a URL is that of a page: for HTTP, with nothing behind the path. -/
structure IsPage (url : Url) : Prop where
  scheme : url.scheme = "http".toList ∨ url.scheme = "https".toList
  query : url.query = none
  fragment : url.fragment = none

theorem readPath_page (url : Url) (h : ∀ c ∈ path, startsTail c = false) :
    readPath url .web path =
      { url with path := pathText .web path, query := none, fragment := none } := by
  have hspan : path.span (!startsTail ·) = (path, []) := span_eq_self fun c hc => by simp [h c hc]
  unfold readPath
  rw [hspan]
  simp [withTail, List.span, List.span.loop]

/-- Whatever ends a path starts a query or a fragment. -/
theorem startsTail_of_readPath (hquery : (readPath url .web path).query = none)
    (hfragment : (readPath url .web path).fragment = none) : ∀ c ∈ path, startsTail c = false := by
  rcases hspan : path.span (!startsTail ·) with ⟨front, tail⟩
  obtain ⟨rfl, hfront, htail⟩ := of_span hspan
  unfold readPath withTail at hquery hfragment
  simp only [hspan, List.span_eq_takeWhile_dropWhile] at hquery hfragment
  cases tail with
  | nil => simpa using hfront
  | cons c tail =>
    have hends : startsTail c = true := by simpa using htail c rfl
    simp only [startsTail, Bool.or_eq_true, decide_eq_true_eq] at hends
    rcases hends with rfl | rfl
    · simp at hquery
    · simp at hfragment

/-! ## What begins a URL -/

/-- Whether a text begins a URL of the web: it has the scheme and what comes before the path, and
perhaps a part of that. -/
structure Begins (front authority path : List Char) (here : Url) : Prop where
  scheme : ∃ slashes, splitScheme? front = some (here.scheme, slashes ++ (authority ++ path)) ∧
    ∀ c ∈ slashes, SchemeKind.web.isSlash c = true
  kind : SchemeKind.of here.scheme = .web
  ne_nil : authority ≠ []
  inside : ∀ c ∈ authority, SchemeKind.web.endsAuthority c = false
  behind : ∀ c, path.head? = some c → SchemeKind.web.endsAuthority c = true
  host : ∀ more, readAuthority .web here.scheme authority more { scheme := here.scheme } = .ok here

/-- What is added to what comes behind a host comes behind the host. -/
theorem endsAuthority_append
    (hpath : ∀ c, path.head? = some c → SchemeKind.web.endsAuthority c = true)
    (hmore : ∀ c, more.head? = some c → SchemeKind.web.endsAuthority c = true) :
    ∀ c, (path ++ more).head? = some c → SchemeKind.web.endsAuthority c = true := by
  intro c hc
  cases path with
  | nil => exact hmore c hc
  | cons d path => exact hpath c hc

theorem Begins.dropWhile_eq (h : Begins front authority path here) {slashes more : List Char}
    (hslashes : ∀ c ∈ slashes, SchemeKind.web.isSlash c = true) :
    (slashes ++ (authority ++ (path ++ more))).dropWhile SchemeKind.web.isSlash =
      authority ++ (path ++ more) := by
  obtain ⟨c, rest, rfl⟩ := List.exists_cons_of_ne_nil h.ne_nil
  have hc := h.inside c List.mem_cons_self
  simp only [SchemeKind.endsAuthority, Bool.or_eq_false_iff] at hc
  rw [List.dropWhile_append_of_pos hslashes, List.cons_append,
    List.dropWhile_cons_of_neg (by simp [hc.1.1])]

/-- What is written behind the beginning of a URL comes behind its host. -/
theorem Begins.parse_append (h : Begins front authority path here) {text : String}
    (htext : strip text = front ++ more)
    (hmore : ∀ c, more.head? = some c → SchemeKind.web.endsAuthority c = true) :
    parse text = .ok (readPath here .web (path ++ more)) := by
  obtain ⟨slashes, hsplit, hslashes⟩ := h.scheme
  unfold parse
  rw [htext, splitScheme?_append hsplit]
  simp only [h.kind, List.append_assoc]
  rw [h.dropWhile_eq hslashes]
  exact (readHierarchy_web h.inside (endsAuthority_append h.behind hmore)).mpr ⟨here, h.host _, rfl⟩

/-- A URL of the web without the slashes at its end is the beginning of one. -/
theorem exists_begins {text : String} (hparse : parse text = .ok url)
    (htext : strip text = front ++ more) (hmore : ∀ c ∈ more, c = '/')
    (hkind : SchemeKind.of url.scheme = .web) :
    ∃ authority path here, Begins front authority path here ∧ here.scheme = url.scheme := by
  obtain ⟨_, hsplit⟩ := scheme_of_parse hparse
  rw [htext] at hsplit
  obtain ⟨rest, hfront, rfl⟩ :=
    splitScheme?_front (fun c hc => hmore c (List.mem_of_head? hc)) hsplit
  obtain ⟨slashes, tail, rfl, hslashes, htail⟩ := exists_span SchemeKind.web.isSlash rest
  obtain ⟨authority, path, rfl, hinside, hbehind⟩ :=
    exists_span (!SchemeKind.web.endsAuthority ·) tail
  simp only [Bool.not_eq_true', Bool.not_eq_false'] at hinside hbehind
  -- If there is nothing but slashes, those at the end are dropped with them.
  obtain ⟨kept, hkept, hdrop⟩ : ∃ kept, (∀ c ∈ kept, c = '/') ∧
      (slashes ++ (authority ++ path) ++ more).dropWhile SchemeKind.web.isSlash =
        authority ++ (path ++ kept) := by
    rw [List.append_assoc, List.dropWhile_append_of_pos hslashes]
    cases h : authority ++ path with
    | nil =>
      obtain ⟨rfl, rfl⟩ := List.append_eq_nil_iff.mp h
      exact ⟨_, fun c hc => hmore c ((List.dropWhile_suffix _).subset hc), rfl⟩
    | cons c tail =>
      refine ⟨more, hmore, ?_⟩
      rw [List.cons_append, List.dropWhile_cons_of_neg (by simp [htail c (by rw [h]; rfl)]),
        ← List.cons_append, ← h, List.append_assoc]
  unfold parse at hparse
  rw [htext, hsplit] at hparse
  simp only [hkind] at hparse
  rw [hdrop] at hparse
  obtain ⟨here, hhere, -⟩ := (readHierarchy_web hinside
    (endsAuthority_append hbehind fun c hc => hkept c (List.mem_of_head? hc) ▸ rfl)).mp hparse
  obtain ⟨hne, hhost⟩ := readAuthority_web hhere
  have hscheme : here.scheme = url.scheme := (scheme_readAuthority hhere).trans rfl
  rw [← hscheme] at hfront hkind hhost
  exact ⟨authority, path, here, ⟨⟨slashes, hfront, hslashes⟩, hkind, hne, hinside, hbehind, hhost⟩,
    hscheme⟩

/-- The text of a URL ends in the part of its path that has been read. -/
theorem Begins.suffix (h : Begins front authority path here) : path <:+ front := by
  obtain ⟨slashes, hsplit, -⟩ := h.scheme
  obtain ⟨name, rfl, -⟩ := splitScheme?_eq_some.mp hsplit
  exact ⟨name ++ ':' :: (slashes ++ authority), by simp⟩

/-- What has been read of a path starts one, if no query and no fragment has begun. -/
theorem Begins.startsPath (h : Begins front authority path here)
    (htail : ∀ c ∈ path, startsTail c = false) : StartsPath path := by
  intro c hc
  have hends := h.behind c hc
  have hstarts := htail c (List.mem_of_head? hc)
  simp only [startsTail, Bool.or_eq_false_iff] at hstarts
  simpa [SchemeKind.endsAuthority, hstarts] using hends

end CertRegistry.Url
