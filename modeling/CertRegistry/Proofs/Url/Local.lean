import CertRegistry.Proofs.Bytes.Ascii
import CertRegistry.Proofs.Text.Blank
import CertRegistry.Proofs.Text.Digits
import CertRegistry.Proofs.Text.Runs
import CertRegistry.Proofs.Url.Names
import CertRegistry.Rest.Message
import Mathlib.Data.List.TakeDrop

/-!
# URLs of a node on this machine

The address of a port of this machine, with a plain path and a plain query behind it, is read as
just that, and a request to it can be sent.
-/

namespace CertRegistry

namespace Url

/-- The address of a port of this machine. -/
def localBase (port : Nat) : String := "http://127.0.0.1:" ++ toString port

/-- What a path and a query behind the address of a port of this machine are read as. -/
def ofLocal (port : Nat) (path : List Char) (query : Option (List Char)) : Url where
  scheme := "http".toList
  host := some (.ipv4 0x7F000001)
  port := if port = 80 then none else some port
  path := path
  query := query

/-- Whether a character of a query stays as it is. -/
def IsPlain (c : Char) : Prop := c.toNat < 0x80 ∧ Percent.inWebQuery c = false

instance (c : Char) : Decidable (IsPlain c) := inferInstanceAs (Decidable (_ ∧ _))

/-- Whether a path is in its normal form, with nothing in it that ends a path. -/
structure IsPlainPath (path : List Char) : Prop where
  normal : pathText .web path = path
  rooted : path.head? = some '/'
  inside : ∀ c ∈ path, 0x20 < c.toNat ∧ startsTail c = false

-- The characters are checked along the list, since a statement about all characters may also be
-- decided by going through all that there are.
theorem isPlainPath_iff {path : List Char} : IsPlainPath path ↔ pathText .web path = path ∧
    path.head? = some '/' ∧
      (path.all fun c => decide (0x20 < c.toNat ∧ startsTail c = false)) = true :=
  ⟨fun h => ⟨h.normal, h.rooted, all_of_forall_mem h.inside⟩, fun ⟨normal, rooted, inside⟩ =>
    { normal, rooted, inside := forall_mem_of_all inside }⟩

instance (path : List Char) : Decidable (IsPlainPath path) :=
  decidable_of_iff _ isPlainPath_iff.symm

/-- A query behind its mark, or nothing. -/
def tail (query : Option (List Char)) : List Char := query.elim [] ('?' :: ·)

/-! ## Characters -/

theorem IsPlain.visible {c : Char} (h : IsPlain c) : 0x20 < c.toNat ∧ c ≠ '#' := by
  have hquery := h.2
  simp only [Percent.inWebQuery, Percent.inQuery, Percent.isControl, Bool.or_eq_false_iff,
    decide_eq_false_iff_not, List.mem_cons, not_or] at hquery
  obtain ⟨⟨⟨hcontrol, -⟩, hspace, -, hmark, -⟩, -⟩ := hquery
  have hne : c.toNat ≠ 0x20 := fun heq => hspace (Char.toNat_inj.mp heq)
  exact ⟨by omega, hmark⟩

/-- The text without tabs and line ends. -/
def unbroken (cs : List Char) : List Char := cs.filter (· ∉ ['\t', '\n', '\r'])

/-- Whether a character is dropped at the ends of a text. -/
def isOuter (c : Char) : Bool := c.toNat ≤ 0x20

theorem isOuter_eq_false {c : Char} : isOuter c = false ↔ 0x20 < c.toNat := by
  simp [isOuter]

theorem strip_eq (text : String) : strip text =
    unbroken (Text.dropEndWhile isOuter (text.toList.dropWhile isOuter)) := rfl

theorem unbroken_eq_self {cs : List Char} (h : ∀ c ∈ cs, 0x20 < c.toNat) :
    unbroken cs = cs := by
  rw [unbroken, List.filter_eq_self]
  intro c hc
  have hvisible := h c hc
  refine decide_eq_true fun hmem => ?_
  simp only [List.mem_cons, List.not_mem_nil, or_false] at hmem
  rcases hmem with rfl | rfl | rfl <;> exact absurd hvisible (by decide)

theorem strip_eq_self {text : String} (h : ∀ c ∈ text.toList, 0x20 < c.toNat) :
    strip text = text.toList := by
  have houter : ∀ c ∈ text.toList, isOuter c = false := fun c hc => isOuter_eq_false.mpr (h c hc)
  rw [strip_eq, dropWhile_eq_self houter,
    Text.dropEndWhile_eq_self fun c hc => houter c (List.mem_of_getLast? hc), unbroken_eq_self h]

/-! ## The host and the port -/

/-- The host and the port of this machine as they are written. -/
def authority (port : Nat) : List Char := "127.0.0.1:".toList ++ (toString port).toList

variable {port : Nat}

theorem authority_eq_cons (port : Nat) :
    authority port = '1' :: ("27.0.0.1:".toList ++ (toString port).toList) := rfl

theorem mem_authority {c : Char} (h : c ∈ authority port) :
    c.isDigit = true ∨ c = '.' ∨ c = ':' := by
  rcases List.mem_append.mp h with h | h
  · have hhost : ∀ c ∈ "127.0.0.1:".toList, c.isDigit = true ∨ c = '.' ∨ c = ':' :=
      forall_mem_of_all (by decide)
    exact hhost c h
  · exact Or.inl (Text.isDigit_of_mem_toString h)

theorem ne_of_mem_authority {c d : Char} (h : c ∈ authority port) (hd : d.isDigit = false)
    (hd' : d ≠ '.' ∧ d ≠ ':') : c ≠ d := by
  rintro rfl
  rcases mem_authority h with h | h | h
  · exact absurd h (by simp [hd])
  · exact hd'.1 h
  · exact hd'.2 h

theorem visible_of_mem_authority {c : Char} (h : c ∈ authority port) : 0x20 < c.toNat := by
  rcases mem_authority h with h | rfl | rfl
  · have hdigit : 48 ≤ c.toNat ∧ c.toNat ≤ 57 := by
      simp only [Char.isDigit, ge_iff_le, Bool.and_eq_true, decide_eq_true_eq] at h
      exact h
    omega
  · decide
  · decide

theorem portOf_toString (h : port < 65536) :
    portOf "http".toList (toString port).toList = .ok (if port = 80 then none else some port) := by
  have hdigits : (toString port).toList.all Char.isDigit = true := by
    rw [List.all_eq_true]
    exact fun c hc => Text.isDigit_of_mem_toString hc
  have husual : usualPort? "http".toList = some 80 := by decide
  simp only [portOf, hdigits, if_true, Text.foldl_toString, husual]
  rw [if_neg (by omega)]
  by_cases hport : port = 80
  · simp [hport]
  · simp [hport, Ne.symm hport]

theorem ofWeb_local : Host.ofWeb "127.0.0.1".toList = .ok (.ipv4 0x7F000001) := by
  have htext : Bytes.text? (Percent.decode (Bytes.ofText (String.ofList "127.0.0.1".toList))) =
      some "127.0.0.1" := by decide +kernel
  have hnormal : Domain.normalize? "127.0.0.1".toList = some "127.0.0.1".toList := by
    decide +kernel
  have hlabels : ("127.0.0.1".toList.splitOn '.').mapM Domain.label? =
      some (["127".toList, ['0'], ['0'], ['1']].map fun cs => ⟨cs, cs⟩) := by decide +kernel
  have hdomain := Domain.toAscii?_eq_some htext hnormal hlabels
    (Label.areReadable_of_isAscii (by decide +kernel))
  exact Host.ofWeb_eq_ipv4 (by decide) hdomain (by decide +kernel) (by decide +kernel)
    (by decide +kernel)

theorem splitHost_authority (port : Nat) : splitHost false (authority port) =
    ("127.0.0.1".toList, ':' :: (toString port).toList) := rfl

theorem splitLastAt_authority (port : Nat) :
    splitLastAt (authority port) = (none, authority port) := by
  have hspan : (authority port).reverse.span (· ≠ '@') = ((authority port).reverse, []) := by
    refine span_eq_self fun c hc => ?_
    simpa using ne_of_mem_authority (List.mem_reverse.mp hc) (by decide) (by decide)
  unfold splitLastAt
  rw [hspan]

theorem readHost_web {scheme cs hostText rest : List Char} {host : Host} {port : Option Nat}
    (hsplit : splitHost false cs = (hostText, rest)) (hne : hostText ≠ [])
    (hhost : Host.ofWeb hostText = .ok host)
    (hport : portOf scheme ((rest.drop 1).takeWhile (· ≠ '\\')) = .ok port) :
    readHost .web scheme cs = .ok (host, port) := by
  unfold readHost
  rw [hsplit]
  simp only [hne, false_and, if_false, if_true, hhost, hport, bind, Except.bind]
  rfl

theorem readHost_local (h : port < 65536) :
    readHost .web "http".toList (authority port) =
      .ok (.ipv4 0x7F000001, if port = 80 then none else some port) := by
  have hdigits : (toString port).toList.takeWhile (· ≠ '\\') = (toString port).toList := by
    rw [List.takeWhile_eq_self_iff]
    intro c hc
    have hdigit := Text.isDigit_of_mem_toString hc
    refine decide_eq_true ?_
    rintro rfl
    exact absurd hdigit (by decide)
  refine readHost_web (splitHost_authority port) (by decide) ofWeb_local ?_
  rw [List.drop_one, List.tail_cons, hdigits]
  exact portOf_toString h

/-- Without credentials only the host and the port are read. -/
theorem readAuthority_plain {kind : SchemeKind} {scheme cs : List Char} {host : Host}
    {port : Option Nat} (hsplit : splitLastAt cs = (none, cs)) (hne : cs ≠ [])
    (hhost : readHost kind scheme cs = .ok (host, port)) (more : List Char) (url : Url) :
    readAuthority kind scheme cs more url =
      .ok { url with credentials := [], host := some host, port } := by
  have hblank : credentialsText ((none : Option (List Char)).getD []) = [] := by decide
  unfold readAuthority
  rw [hsplit]
  simp only [hne, hhost, hblank, reduceCtorEq, false_and, if_false, bind, Except.bind]
  rfl

/-! ## Paths and queries -/

variable {path : List Char} {query : Option (List Char)}

theorem visible_of_mem_tail (hquery : ∀ cs, query = some cs → ∀ c ∈ cs, IsPlain c) {c : Char}
    (h : c ∈ tail query) : 0x20 < c.toNat := by
  cases query with
  | none => cases h
  | some cs =>
    rcases List.mem_cons.mp h with rfl | h
    · decide
    · exact (hquery cs rfl c h).visible.1

theorem span_tail (hquery : ∀ cs, query = some cs → ∀ c ∈ cs, IsPlain c) :
    (tail query).span (· ≠ '#') = (tail query, []) := by
  refine span_eq_self fun c hc => ?_
  cases query with
  | none => cases hc
  | some cs =>
    rcases List.mem_cons.mp hc with rfl | hc
    · decide
    · simpa using (hquery cs rfl c hc).visible.2

/-- Nothing is plain. -/
theorem isPlain_of_none : ∀ cs, (none : Option (List Char)) = some cs → ∀ c ∈ cs, IsPlain c := by
  intro cs hcs
  cases hcs

theorem withTail_local (hquery : ∀ cs, query = some cs → ∀ c ∈ cs, IsPlain c) (url : Url) :
    withTail url .web (tail query) = { url with query := query, fragment := none } := by
  unfold withTail
  rw [span_tail hquery]
  cases query with
  | none => rfl
  | some cs =>
    have hplain : Percent.encode Percent.inWebQuery cs = cs :=
      Percent.encode_eq_self (hquery cs rfl)
    simp only [tail, Option.elim, reduceCtorEq, if_false, hplain]

theorem readPath_local (hpath : IsPlainPath path)
    (hquery : ∀ cs, query = some cs → ∀ c ∈ cs, IsPlain c) (url : Url) :
    readPath url .web (path ++ tail query) =
      { url with path := path, query := query, fragment := none } := by
  have hspan : (path ++ tail query).span (!startsTail ·) = (path, tail query) := by
    refine span_append ?_ ?_
    · intro c hc
      simp [(hpath.inside c hc).2]
    · intro c hc
      cases query with
      | none => cases hc
      | some cs =>
        cases hc
        rfl
  unfold readPath
  rw [hspan]
  simp only [reduceCtorEq, false_and, if_false, hpath.normal]
  rw [withTail_local hquery]

/-- Without credentials and backslashes the path comes right behind the port. -/
theorem readHierarchy_plain {kind : SchemeKind} {scheme cs authority rest host after : List Char}
    {url : Url} (hspan : cs.span (!kind.endsAuthority ·) = (authority, rest))
    (hauthority : readAuthority kind scheme authority rest { scheme } = .ok url)
    (hsplit : splitLastAt authority = (none, authority))
    (hhost : splitHost false authority = (host, after)) (hafter : ∀ c ∈ after, c ≠ '\\') :
    readHierarchy kind scheme cs = .ok (readPath url kind rest) := by
  have hdrop : after.dropWhile (· ≠ '\\') = [] := by
    rw [List.dropWhile_eq_nil_iff]
    intro c hc
    exact decide_eq_true (hafter c hc)
  unfold readHierarchy
  rw [hspan]
  simp only [hauthority, hsplit, hhost, bind, Except.bind]
  rw [hdrop]
  rfl

theorem readHierarchy_local (h : port < 65536) (hpath : IsPlainPath path)
    (hquery : ∀ cs, query = some cs → ∀ c ∈ cs, IsPlain c) :
    readHierarchy .web "http".toList (authority port ++ (path ++ tail query)) =
      .ok (ofLocal port path query) := by
  have hspan : (authority port ++ (path ++ tail query)).span (!SchemeKind.web.endsAuthority ·) =
      (authority port, path ++ tail query) := by
    refine span_append ?_ ?_
    · intro c hc
      have hslash := ne_of_mem_authority (d := '/') hc (by decide) (by decide)
      have hbackslash := ne_of_mem_authority (d := '\\') hc (by decide) (by decide)
      have hmark := ne_of_mem_authority (d := '?') hc (by decide) (by decide)
      have hhash := ne_of_mem_authority (d := '#') hc (by decide) (by decide)
      simp [SchemeKind.endsAuthority, SchemeKind.isSlash, hslash, hbackslash, hmark, hhash]
    · intro c hc
      have hrooted := hpath.rooted
      cases path with
      | nil => cases hrooted
      | cons d path =>
        cases hrooted
        cases hc
        decide
  have hafter : ∀ c ∈ ':' :: (toString port).toList, c ≠ '\\' := by
    intro c hc
    have hmem : c ∈ authority port := by
      rcases List.mem_cons.mp hc with rfl | hc
      · exact List.mem_append_left _ (by decide)
      · exact List.mem_append_right _ hc
    exact ne_of_mem_authority hmem (by decide) (by decide)
  have hne : authority port ≠ [] := by
    rw [authority_eq_cons]
    exact List.cons_ne_nil _ _
  rw [readHierarchy_plain hspan (readAuthority_plain (splitLastAt_authority port) hne
      (readHost_local h) _ _) (splitLastAt_authority port) (splitHost_authority port) hafter,
    readPath_local hpath hquery]
  rfl

theorem splitScheme?_http (rest : List Char) :
    splitScheme? ("http:".toList ++ rest) = some ("http".toList, rest) := by
  have hspan : ("http".toList ++ ':' :: rest).span isSchemeChar = ("http".toList, ':' :: rest) := by
    refine span_append (forall_mem_of_all (by decide)) ?_
    intro c hc
    cases hc
    decide
  show splitScheme? ('h' :: ("ttp:".toList ++ rest)) = _
  unfold splitScheme?
  simp only
  rw [show 'h' :: ("ttp:".toList ++ rest) = "http".toList ++ ':' :: rest from rfl, hspan]
  rfl

theorem toList_localBase (port : Nat) :
    (localBase port).toList = "http:".toList ++ ('/' :: '/' :: authority port) := by
  have hsplit : "http://127.0.0.1:".toList =
      "http:".toList ++ '/' :: '/' :: "127.0.0.1:".toList := by decide
  unfold localBase authority
  rw [String.toList_append]
  simp only [hsplit, List.append_assoc, List.cons_append]

/-- A plain path and a plain query behind the address of a port of this machine are read as they
are. -/
theorem parse_local {text : String} (h : port < 65536) (hpath : IsPlainPath path)
    (hquery : ∀ cs, query = some cs → ∀ c ∈ cs, IsPlain c)
    (htext : text.toList = (localBase port).toList ++ (path ++ tail query)) :
    parse text = .ok (ofLocal port path query) := by
  have hbase := toList_localBase port
  have hstrip : strip text = text.toList := by
    refine strip_eq_self fun c hc => ?_
    rw [htext, hbase, List.append_assoc] at hc
    rcases List.mem_append.mp hc with hc | hc
    · have hscheme : ∀ c ∈ "http:".toList, 0x20 < c.toNat := forall_mem_of_all (by decide)
      exact hscheme c hc
    · simp only [List.cons_append, List.mem_cons, List.mem_append] at hc
      rcases hc with rfl | rfl | hc | hc | hc
      · decide
      · decide
      · exact visible_of_mem_authority hc
      · exact (hpath.inside c hc).1
      · exact visible_of_mem_tail hquery hc
  have hslashes : ('/' :: '/' :: authority port ++ (path ++ tail query)).dropWhile
      SchemeKind.web.isSlash = authority port ++ (path ++ tail query) := by
    rw [List.cons_append, List.cons_append, List.dropWhile_cons_of_pos (by decide),
      List.dropWhile_cons_of_pos (by decide), authority_eq_cons, List.cons_append,
      List.dropWhile_cons_of_neg (by decide)]
  unfold parse
  rw [hstrip, htext, hbase, List.append_assoc, splitScheme?_http]
  simp only [show SchemeKind.of "http".toList = .web by decide]
  rw [hslashes]
  exact readHierarchy_local h hpath hquery

/-! ## Segments -/

/-- Whether a segment of a path stays as it is. -/
structure IsPlainSegment (name : List Char) : Prop where
  entered : Path.Segment.of name = .enter name
  inside : ∀ c ∈ name, c.toNat < 0x80 ∧ Percent.inPath c = false ∧
    SchemeKind.web.isSlash c = false

theorem isPlainSegment_iff {name : List Char} : IsPlainSegment name ↔
    Path.Segment.of name = .enter name ∧ (name.all fun c => decide (c.toNat < 0x80 ∧
      Percent.inPath c = false ∧ SchemeKind.web.isSlash c = false)) = true :=
  ⟨fun h => ⟨h.entered, all_of_forall_mem h.inside⟩, fun ⟨entered, inside⟩ =>
    { entered, inside := forall_mem_of_all inside }⟩

instance (name : List Char) : Decidable (IsPlainSegment name) :=
  decidable_of_iff _ isPlainSegment_iff.symm

namespace IsPlainSegment

variable {front back : List Char}

theorem map_slash (h : IsPlainSegment front) :
    front.map (fun c => if SchemeKind.web.isSlash c then '/' else c) = front := by
  refine (List.map_congr_left fun c hc => ?_).trans (List.map_id front)
  rw [(h.inside c hc).2.2]
  rfl

theorem not_mem_slash (h : IsPlainSegment front) : '/' ∉ front :=
  fun hmem => absurd (h.inside '/' hmem).2.2 (by decide)

theorem encode_eq_self (h : IsPlainSegment front) :
    Percent.encode Percent.inPath front = front :=
  Percent.encode_eq_self fun c hc => ⟨(h.inside c hc).1, (h.inside c hc).2.1⟩

theorem visible (h : IsPlainSegment front) {c : Char} (hc : c ∈ front) :
    0x20 < c.toNat ∧ startsTail c = false := by
  have hpath := (h.inside c hc).2.1
  simp only [Percent.inPath, Percent.inFragment, Percent.isControl, Bool.or_eq_false_iff,
    decide_eq_false_iff_not, List.mem_cons, not_or] at hpath
  obtain ⟨⟨⟨hcontrol, -⟩, hspace, -⟩, hhash, hmark, -⟩ := hpath
  have hne : c.toNat ≠ 0x20 := fun heq => hspace (Char.toNat_inj.mp heq)
  refine ⟨by omega, ?_⟩
  simp [startsTail, hhash, hmark]

theorem segments_pair (hfront : IsPlainSegment front) (hback : IsPlainSegment back) :
    segments .web ('/' :: (front ++ '/' :: back)) = [front, back] := by
  have hslash : SchemeKind.web.isSlash '/' = true := rfl
  have hjoined : ['/'].intercalate [front, back] = front ++ '/' :: back := by
    simp [List.intercalate]
  unfold segments
  simp only [hslash, if_true, List.map_append, List.map_cons, hfront.map_slash, hback.map_slash]
  rw [← hjoined]
  refine List.splitOn_intercalate _ ?_ (List.cons_ne_nil _ _)
  simp only [List.forall_mem_cons]
  exact ⟨hfront.not_mem_slash, hback.not_mem_slash, List.forall_mem_nil _⟩

/-- Two such segments make a path in its normal form. -/
theorem isPlainPath_pair (hfront : IsPlainSegment front) (hback : IsPlainSegment back) :
    IsPlainPath ('/' :: (front ++ '/' :: back)) where
  normal := by
    have hresolved : resolved .web ('/' :: (front ++ '/' :: back)) = [front, back] := by
      rw [resolved, segments_pair hfront hback]
      simp only [List.map_cons, List.map_nil, hfront.encode_eq_self, hback.encode_eq_self]
      simp [Path.resolve, Path.follow, hfront.entered, hback.entered, Path.enter]
    unfold pathText
    rw [hresolved]
    simp [Path.toText]
  rooted := rfl
  inside := by
    intro c hc
    simp only [List.mem_cons, List.mem_append] at hc
    rcases hc with rfl | hc | rfl | hc
    · decide
    · exact hfront.visible hc
    · decide
    · exact hback.visible hc

end IsPlainSegment

/-! ## By name -/

theorem ofWeb_localhost :
    Host.ofWeb "localhost".toList = .ok (.name "localhost".toList) := by
  have htext : Bytes.text? (Percent.decode (Bytes.ofText (String.ofList "localhost".toList))) =
      some "localhost" := by decide +kernel
  have hnormal : Domain.normalize? "localhost".toList = some "localhost".toList := by
    decide +kernel
  have hlabels : ("localhost".toList.splitOn '.').mapM Domain.label? =
      some (["localhost".toList].map fun cs => ⟨cs, cs⟩) := by decide +kernel
  have hdomain := Domain.toAscii?_eq_some htext hnormal hlabels
    (Label.areReadable_of_isAscii (by decide +kernel))
  exact Host.ofWeb_eq_name (by decide) hdomain (by decide) (by decide +kernel)

theorem parse_localhost : ∃ url, parse "http://localhost:8008" = .ok url ∧
    url.host = some (.name "localhost".toList) := by
  have hhost : readHost .web "http".toList "localhost:8008".toList =
      .ok (.name "localhost".toList, some 8008) :=
    readHost_web (by rfl) (by decide) ofWeb_localhost (by rfl)
  have hsplit : splitLastAt "localhost:8008".toList = (none, "localhost:8008".toList) := by
    decide +kernel
  have hspan : "localhost:8008".toList.span (!SchemeKind.web.endsAuthority ·) =
      ("localhost:8008".toList, []) := by decide +kernel
  have hauthority := readAuthority_plain hsplit (by decide) hhost [] { scheme := "http".toList }
  have hafter : ∀ c ∈ ":8008".toList, c ≠ '\\' := by simp
  have hread := readHierarchy_plain hspan hauthority hsplit (by rfl) hafter
  have hscheme : splitScheme? (strip "http://localhost:8008") =
      some ("http".toList, "//localhost:8008".toList) := by decide +kernel
  have hkind : SchemeKind.of "http".toList = .web := by decide
  have hslashes : "//localhost:8008".toList.dropWhile SchemeKind.web.isSlash =
      "localhost:8008".toList := by decide
  unfold parse
  rw [hscheme]
  simp only [hkind, hslashes, hread]
  exact ⟨_, rfl, rfl⟩

/-! ## Sending -/

theorem toText_local : Ipv4.toText 0x7F000001 = "127.0.0.1".toList := by decide +kernel

theorem length_toString_le {n count : Nat} (h : n < Nat.pow 10 count) (hcount : 0 < count) :
    (toString n).toList.length ≤ count := by
  rwa [Text.toList_toString, Nat.length_toDigits_le_iff (by decide) hcount]

theorem shownUrl_ofLocal (port : Nat) (path : List Char) (query : Option (List Char)) :
    Rest.shownUrl (ofLocal port path query) = (ofLocal port path query).toText := by
  have hinfo : (ofLocal port path query).userInfo = ([], none) := rfl
  unfold Rest.shownUrl Rest.withoutCredentials
  rw [hinfo]
  simp

/-- How the port is written, where it is not the usual one. -/
def portText (port : Nat) : List Char :=
  (if port = 80 then none else some port : Option Nat).elim [] fun port =>
    ':' :: (toString port).toList

theorem length_portText_le (h : port < 65536) : (portText port).length ≤ 6 := by
  unfold portText
  by_cases hport : port = 80
  · simp [hport]
  · have hfive : port < Nat.pow 10 5 := Nat.lt_of_lt_of_le h (by decide)
    have hdigits := length_toString_le hfive (by decide)
    rw [if_neg hport]
    exact Nat.succ_le_succ hdigits

theorem length_toText_ofLocal (port : Nat) (path : List Char) (query : Option (List Char)) :
    (ofLocal port path query).toText.length =
      16 + (portText port).length + path.length + (tail query).length := by
  have hhost : (Host.ipv4 0x7F000001).toText = "127.0.0.1".toList := toText_local
  have htext : (ofLocal port path query).requestText =
      "http".toList ++ ':' :: ("//".toList ++ [] ++ (Host.ipv4 0x7F000001).toText ++
        portText port) ++ path ++ tail query := rfl
  rw [toText, ← String.length_toList, String.toList_ofList, htext, hhost]
  have hscheme : "http".toList.length = 4 := by decide
  have hslashes : "//".toList.length = 2 := by decide
  have hlength : "127.0.0.1".toList.length = 9 := by decide
  simp only [ofLocal, Option.elim, List.length_append, List.length_cons, List.length_nil, hscheme,
    hslashes, hlength]
  omega

/-- What can be requested of this machine is only a matter of length. -/
theorem isSendable_ofLocal_iff : Rest.isSendable (ofLocal port path query) = true ↔
    (ofLocal port path query).toText.length ≤ Rest.maxUrlLength := by
  have hhost : (ofLocal port path query).hostText = "127.0.0.1".toList := toText_local
  have hhttp : Rest.isHttp (ofLocal port path query) = true := rfl
  have hplain : (true && decide ("127.0.0.1".toList ≠ []) &&
      !"127.0.0.1".toList.any (· ∈ ['"', '\x60', '{', '}'])) = true := by decide
  unfold Rest.isSendable
  rw [hhost, hhttp, hplain, shownUrl_ofLocal, Bool.true_and, decide_eq_true_eq]

/-- A request to a short URL can be sent. -/
theorem isSendable_ofLocal (h : port < 65536)
    (hlength : path.length + (tail query).length ≤ 65000) :
    Rest.isSendable (ofLocal port path query) = true := by
  have hport := length_portText_le h
  rw [isSendable_ofLocal_iff, length_toText_ofLocal, Rest.maxUrlLength]
  omega

end Url

end CertRegistry
