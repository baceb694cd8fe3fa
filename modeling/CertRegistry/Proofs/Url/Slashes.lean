import CertRegistry.Proofs.Url.Extension

/-!
# URLs without the slashes at their end

A URL with a host names the same host without the slashes at the end of its text. That of a file
could lose its host to a drive, but slashes at the end of a path do not tell whether it starts with
one.
-/

namespace CertRegistry.Url

variable {front more cs slashes path scheme authority : List Char} {url here : Url}
  {kind : SchemeKind}

/-- Whether two URLs name a host in the same way. -/
structure SharesHost (url other : Url) : Prop where
  scheme : url.scheme = other.scheme
  credentials : url.credentials = other.credentials
  host : url.host = other.host
  port : url.port = other.port

theorem SharesHost.hostText_eq {other : Url} (h : SharesHost url other) :
    url.hostText = other.hostText := by
  rw [hostText, h.host, hostText]

/-- Only what comes before the path names the host. -/
theorem sharesHost_readPath (url : Url) (kind : SchemeKind) (cs ds : List Char) :
    SharesHost (readPath url kind cs) (readPath url kind ds) := ⟨rfl, rfl, rfl, rfl⟩

/-! ## Hosts between slashes -/

theorem toText_of_readHost_nil {r : Host × Option Nat} (h : readHost kind scheme [] = .ok r) :
    r.1.toText = [] := by
  cases kind with
  | web => exact absurd h readHost_nil
  | file | other =>
    cases h
    rfl

/-- What comes before the path does not depend on it if there is a host. -/
theorem readAuthority_of_host (h : readAuthority kind scheme authority more url = .ok here)
    (hhost : here.hostText ≠ []) (rest : List Char) :
    readAuthority kind scheme authority rest url = .ok here := by
  have hne : (splitLastAt authority).2 ≠ [] := by
    intro hnil
    unfold readAuthority at h
    simp only [hnil] at h
    split at h
    · cases h
    · obtain ⟨r, hread, h⟩ := bind_eq_ok.mp h
      split at h
      · cases h
      · cases h
        exact hhost (toText_of_readHost_nil hread)
  unfold readAuthority at h ⊢
  simp only [hne, false_and, and_false, if_false] at h ⊢
  exact h

/-- Slashes end what comes before a path. -/
theorem endsAuthority_slashes (hpath : ∀ c, path.head? = some c → kind.endsAuthority c = true)
    (hslashes : ∀ c ∈ slashes, c = '/') :
    ∀ c, (path ++ slashes).head? = some c → kind.endsAuthority c = true := by
  intro c hc
  cases path with
  | nil =>
    rw [hslashes c (List.mem_of_head? hc)]
    simp [SchemeKind.endsAuthority, SchemeKind.isSlash]
  | cons d path => exact hpath c hc

theorem readHierarchy_slashes (h : readHierarchy kind scheme (cs ++ slashes) = .ok url)
    (hslashes : ∀ c ∈ slashes, c = '/') (hhost : url.hostText ≠ []) :
    ∃ shorter, readHierarchy kind scheme cs = .ok shorter ∧ SharesHost shorter url := by
  obtain ⟨authority, path, rfl, hinside, hbehind⟩ := exists_span (!kind.endsAuthority ·) cs
  have hshorter : (authority ++ path).span (!kind.endsAuthority ·) = (authority, path) :=
    span_append hinside hbehind
  have hlonger : (authority ++ path ++ slashes).span (!kind.endsAuthority ·) =
      (authority, path ++ slashes) := by
    simp only [Bool.not_eq_false'] at hbehind
    rw [List.append_assoc]
    refine span_append hinside fun c hc => ?_
    rw [endsAuthority_slashes hbehind hslashes c hc]
    rfl
  unfold readHierarchy at h ⊢
  rw [hlonger] at h
  rw [hshorter]
  obtain ⟨here, hhere, h⟩ := bind_eq_ok.mp h
  cases h
  simp only [readAuthority_of_host hhere hhost, bind, Except.bind]
  exact ⟨_, rfl, sharesHost_readPath ..⟩

/-! ## Drives -/

namespace Path

/-- Whether a path that is given backwards starts with a drive. -/
def comesFromDrive (path : List (List Char)) : Bool := path.getLast?.any isDrive

theorem isOnDrive_resolve (names : List (List Char)) :
    isOnDrive (resolve true names) = comesFromDrive (follow true [] names) := by
  rw [isOnDrive, resolve, List.head?_reverse, comesFromDrive]

/-- What names nothing is no drive. -/
theorem comesFromDrive_blank (path : List (List Char)) :
    comesFromDrive ([] :: path) = comesFromDrive path := by
  cases path with
  | nil => rfl
  | cons name path => rw [comesFromDrive, List.getLast?_cons_cons, comesFromDrive]

theorem comesFromDrive_blanks (path : List (List Char)) (count : Nat) :
    comesFromDrive (follow true path (List.replicate count [])) = comesFromDrive path := by
  induction count generalizing path with
  | zero => rfl
  | succ count ih =>
    rw [List.replicate_succ, follow]
    simp only [show Segment.of [] = .enter [] by decide]
    rw [ih, enter, if_neg (by simp [isDrive]), comesFromDrive_blank]

/-- Blank segments at the end do not change where a path starts. -/
theorem comesFromDrive_follow (path names : List (List Char)) (count : Nat) :
    comesFromDrive (follow true path (names ++ List.replicate count [])) =
      comesFromDrive (follow true path names) := by
  -- The last segment may put a blank one behind itself, which does not matter either.
  have hatEnd : ∀ (p : Prop) [Decidable p] (path : List (List Char)),
      comesFromDrive ((if p then [[]] else []) ++ path) = comesFromDrive path := by
    intro p _ path
    split
    · exact comesFromDrive_blank path
    · rfl
  induction names generalizing path with
  | nil => exact comesFromDrive_blanks path count
  | cons name rest ih =>
    rw [List.cons_append, follow, follow]
    rcases eq_or_ne rest [] with rfl | hrest
    · simp only [List.nil_append]
      cases Segment.of name with
      | stay => simp only [comesFromDrive_blanks, hatEnd, follow]
      | back => simp only [comesFromDrive_blanks, hatEnd, follow]
      | enter name => simp only [comesFromDrive_blanks, follow]
    · simp only [hrest, List.append_eq_nil_iff, false_and, if_false, List.nil_append]
      cases Segment.of name with
      | stay => exact ih path
      | back => exact ih (leave path)
      | enter name => exact ih (enter true path name)

end Path

theorem segments_slashes (hpath : ∀ c, path.head? = some c → kind.isSlash c = true)
    (hne : path ≠ []) (count : Nat) :
    segments kind (path ++ List.replicate count '/') =
      segments kind path ++ List.replicate count [] := by
  obtain ⟨c, rest, rfl⟩ := List.exists_cons_of_ne_nil hne
  have hmap : (List.replicate count '/').map (fun c => if kind.isSlash c then '/' else c) =
      List.replicate count '/' := by
    simp [List.map_replicate]
  simp only [segments, List.cons_append, hpath c rfl, if_true, List.map_append, hmap]
  cases count with
  | zero => simp
  | succ count =>
    have hsplit : ∀ front back : List Char, (front ++ '/' :: back).splitOn '/' =
        front.splitOn '/' ++ back.splitOn '/' :=
      fun front back => List.splitOnP_append_cons front back rfl
    rw [List.replicate_succ, hsplit, splitOn_slashes]

/-- A path of a file that slashes follow starts with a drive if it does so without them. -/
theorem isOnDrive_slashes (hpath : ∀ c, path.head? = some c → SchemeKind.file.isSlash c = true)
    (count : Nat) : Path.isOnDrive (resolved .file (path ++ List.replicate count '/')) =
      Path.isOnDrive (resolved .file path) := by
  have hblank : ∀ count,
      (List.replicate count ([] : List Char)).map (Percent.encode Percent.inPath) =
        List.replicate count [] := by
    intro count
    rw [List.map_replicate, Percent.encode_nil]
  simp only [resolved, decide_true, Path.isOnDrive_resolve]
  rcases eq_or_ne path [] with rfl | hne
  · -- Slashes alone lead to blank segments, as nothing does.
    cases count with
    | zero => rfl
    | succ count =>
      have hslashes : segments .file ([] ++ List.replicate (count + 1) '/') =
          List.replicate (count + 1) [] := by
        have hslash : SchemeKind.file.isSlash '/' = true := rfl
        simp only [List.nil_append, segments, List.replicate_succ, hslash, if_true,
          List.map_replicate, splitOn_slashes]
      rw [hslashes, hblank, Path.comesFromDrive_blanks]
      rfl
  · rw [segments_slashes hpath hne, List.map_append, hblank, Path.comesFromDrive_follow]

/-! ## Files -/

/-- Whether the text behind the scheme of a file has a host in it that is kept. -/
structure HasHost (cs hostText after : List Char) (host : Host) : Prop where
  text : ∃ a b, cs = a :: b :: (hostText ++ after) ∧ SchemeKind.file.isSlash a = true ∧
    SchemeKind.file.isSlash b = true
  inside : ∀ c ∈ hostText, SchemeKind.file.endsAuthority c = false
  behind : ∀ c, after.head? = some c → SchemeKind.file.endsAuthority c = true
  ne_nil : hostText ≠ []
  isDrive : Path.isDrive hostText = false
  reads : Host.ofWeb hostText = .ok host
  isElsewhere : host ≠ .name "localhost".toList
  isOnDrive : Path.isOnDrive (resolved .file (after.takeWhile (!startsTail ·))) = false

theorem HasHost.readFile_eq {hostText after : List Char} {host : Host}
    (h : HasHost cs hostText after host) : readFile scheme cs =
      .ok (readPath { scheme, host := some host } .file after) := by
  obtain ⟨a, b, rfl, ha, hb⟩ := h.text
  have hspan : (hostText ++ after).span (!SchemeKind.file.endsAuthority ·) = (hostText, after) :=
    span_append (fun c hc => by simp [h.inside c hc]) fun c hc => by simp [h.behind c hc]
  simp only [readFile, ha, hb, and_self, if_true, hspan, h.ne_nil, h.isDrive, or_self,
    Bool.false_eq_true, if_false, h.reads, bind, Except.bind, h.isElsewhere, h.isOnDrive]
  rfl

theorem exists_hasHost (h : readFile scheme cs = .ok url) (hhost : url.hostText ≠ []) :
    ∃ hostText after host, HasHost cs hostText after host ∧
      url = readPath { scheme, host := some host } .file after := by
  unfold readFile at h
  split at h
  · next a b rest =>
    split at h
    · next hslashes =>
      obtain ⟨hostText, after, rfl, hinside, hbehind⟩ :=
        exists_span (!SchemeKind.file.endsAuthority ·) rest
      rw [span_append hinside hbehind] at h
      simp only [Bool.not_eq_true', Bool.not_eq_false'] at hinside hbehind
      simp only at h
      split at h
      · cases h
        exact absurd rfl hhost
      · next hname =>
        obtain ⟨hne, hdrive⟩ := not_or.mp hname
        obtain ⟨host, hread, h⟩ := bind_eq_ok.mp h
        split at h
        · cases h
          exact absurd rfl hhost
        · next helsewhere =>
          cases hroot : Path.isOnDrive (resolved .file (after.takeWhile (!startsTail ·))) with
          | true =>
            rw [hroot] at h
            cases h
            exact absurd rfl hhost
          | false =>
            rw [hroot] at h
            exact ⟨hostText, after, host, ⟨⟨a, b, rfl, hslashes.1, hslashes.2⟩, hinside, hbehind,
              hne, by simpa using hdrive, hread, helsewhere, hroot⟩, (Except.ok.inj h).symm⟩
    · cases h
      exact absurd rfl hhost
  · cases h
    exact absurd rfl hhost

/-- Slashes at the end of what follows the host of a file change nothing of its drive. -/
theorem isOnDrive_tail_slashes
    (hpath : ∀ c, path.head? = some c → SchemeKind.file.endsAuthority c = true)
    (hslashes : ∀ c ∈ slashes, c = '/') :
    Path.isOnDrive (resolved .file ((path ++ slashes).takeWhile (!startsTail ·))) =
      Path.isOnDrive (resolved .file (path.takeWhile (!startsTail ·))) := by
  by_cases htail : ∀ c ∈ path, (!startsTail c) = true
  · have hplain : ∀ c ∈ slashes, (!startsTail c) = true := by
      intro c hc
      rw [hslashes c hc]
      rfl
    rw [List.takeWhile_append_of_pos htail, List.takeWhile_eq_self_iff.mpr hplain,
      List.takeWhile_eq_self_iff.mpr htail, List.eq_replicate_of_mem hslashes]
    refine isOnDrive_slashes (fun c hc => ?_) _
    have hends := hpath c hc
    have hstarts := htail c (List.mem_of_head? hc)
    simp only [startsTail, Bool.not_eq_true', Bool.or_eq_false_iff] at hstarts
    simpa [SchemeKind.endsAuthority, hstarts] using hends
  · have hshorter : (path.takeWhile (!startsTail ·)).length ≠ path.length := by
      intro hlength
      exact htail (List.takeWhile_eq_self_iff.mp
        ((List.takeWhile_prefix _).eq_of_length hlength))
    rw [List.takeWhile_append, if_neg hshorter]

/-- The host is not found in the slashes at the end. -/
theorem HasHost.shorter {hostText after : List Char} {host : Host}
    (h : HasHost (cs ++ slashes) hostText after host) (hslashes : ∀ c ∈ slashes, c = '/') :
    ∃ path, HasHost cs hostText path host := by
  obtain ⟨a, b, htext, ha, hb⟩ := h.text
  obtain ⟨path, rfl, rfl⟩ :
      ∃ path, cs = a :: b :: (hostText ++ path) ∧ after = path ++ slashes := by
    have hsplit : cs ++ slashes = (a :: b :: hostText) ++ after := htext
    rcases List.append_eq_append_iff.mp hsplit with ⟨gap, hgap, rfl⟩ | ⟨path, rfl, rfl⟩
    · rcases List.eq_nil_or_concat gap with rfl | ⟨front, last, rfl⟩
      · exact ⟨[], by simpa using hgap.symm, rfl⟩
      · -- the last character of the host would be a slash
        have hlast : hostText.getLast? = some last := by
          have hends := congrArg List.getLast? hgap
          rw [List.concat_eq_append, ← List.append_assoc, List.getLast?_concat] at hends
          obtain ⟨c, rest, rfl⟩ := List.exists_cons_of_ne_nil h.ne_nil
          simpa [List.getLast?_cons_cons] using hends
        have hinside := h.inside last (List.mem_of_getLast? hlast)
        rw [hslashes last (by simp)] at hinside
        exact absurd hinside (by decide)
    · exact ⟨path, rfl, rfl⟩
  have hbehind : ∀ c, path.head? = some c → SchemeKind.file.endsAuthority c = true := by
    intro c hc
    refine h.behind c ?_
    rw [List.head?_append, hc]
    rfl
  exact ⟨path, ⟨a, b, rfl, ha, hb⟩, h.inside, hbehind, h.ne_nil, h.isDrive, h.reads, h.isElsewhere,
    (isOnDrive_tail_slashes hbehind hslashes).symm.trans h.isOnDrive⟩

theorem readFile_slashes (h : readFile scheme (cs ++ slashes) = .ok url)
    (hslashes : ∀ c ∈ slashes, c = '/') (hhost : url.hostText ≠ []) :
    ∃ shorter, readFile scheme cs = .ok shorter ∧ SharesHost shorter url := by
  obtain ⟨hostText, after, host, hhas, rfl⟩ := exists_hasHost h hhost
  obtain ⟨path, hshorter⟩ := hhas.shorter hslashes
  exact ⟨_, hshorter.readFile_eq, sharesHost_readPath ..⟩

/-! ## URLs of any scheme -/

/-- Slashes alone name no host. -/
theorem hostText_of_slashes (h : readHierarchy .other scheme slashes = .ok url)
    (hslashes : ∀ c ∈ slashes, c = '/') : url.hostText = [] := by
  by_contra hhost
  have hread : readHierarchy .other scheme ([] ++ slashes) = .ok url := h
  obtain ⟨shorter, hshorter, hshares⟩ := readHierarchy_slashes hread hslashes hhost
  cases hshorter
  exact hhost hshares.hostText_eq.symm

theorem readOther_slashes (h : readOther scheme (cs ++ slashes) = .ok url)
    (hslashes : ∀ c ∈ slashes, c = '/') (hhost : url.hostText ≠ []) :
    ∃ shorter, readOther scheme cs = .ok shorter ∧ SharesHost shorter url := by
  generalize hlonger : cs ++ slashes = longer at h
  unfold readOther at h
  split at h
  · next rest =>
    cases cs with
    | nil =>
      obtain rfl : slashes = '/' :: '/' :: rest := hlonger
      have hrest := (List.forall_mem_cons.mp (List.forall_mem_cons.mp hslashes).2).2
      exact absurd (hostText_of_slashes h hrest) hhost
    | cons c cs =>
      obtain ⟨rfl, hrest⟩ := List.cons.inj hlonger
      cases cs with
      | nil =>
        obtain rfl : slashes = '/' :: rest := hrest
        exact absurd (hostText_of_slashes h (List.forall_mem_cons.mp hslashes).2) hhost
      | cons d cs =>
        obtain ⟨rfl, rfl⟩ := List.cons.inj hrest
        exact readHierarchy_slashes h hslashes hhost
  · cases h
    exact absurd rfl hhost
  · cases h
    exact absurd rfl hhost

/-- A URL with a host is one without the slashes at the end of its text, and names the same host. -/
theorem exists_shorter {text shorter : String} (hparse : parse text = .ok url)
    (hhost : url.hostText ≠ []) (htext : strip text = front ++ slashes)
    (hslashes : ∀ c ∈ slashes, c = '/') (hshorter : strip shorter = front) :
    ∃ url', parse shorter = .ok url' ∧ SharesHost url' url := by
  obtain ⟨rest, hsplit⟩ := scheme_of_parse hparse
  rw [htext] at hsplit
  obtain ⟨rest, hfront, rfl⟩ :=
    splitScheme?_front (fun c hc => hslashes c (List.mem_of_head? hc)) hsplit
  cases hkind : SchemeKind.of url.scheme with
  | web =>
    obtain ⟨authority, path, here, hbegins, -⟩ := exists_begins hparse htext hslashes hkind
    have hlonger := hbegins.parse_append htext fun c hc => hslashes c (List.mem_of_head? hc) ▸ rfl
    rw [hparse] at hlonger
    obtain rfl := Except.ok.inj hlonger
    have hnothing : strip shorter = front ++ [] := by rw [hshorter, List.append_nil]
    exact ⟨_, hbegins.parse_append hnothing (by simp), sharesHost_readPath ..⟩
  | file =>
    unfold parse at hparse ⊢
    rw [htext, hsplit] at hparse
    rw [hshorter, hfront]
    simp only [hkind] at hparse ⊢
    exact readFile_slashes hparse hslashes hhost
  | other =>
    unfold parse at hparse ⊢
    rw [htext, hsplit] at hparse
    rw [hshorter, hfront]
    simp only [hkind] at hparse ⊢
    exact readOther_slashes hparse hslashes hhost

end CertRegistry.Url
