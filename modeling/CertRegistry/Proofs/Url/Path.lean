import CertRegistry.Proofs.Url.Local
import CertRegistry.Proofs.Url.Percent

/-!
# Paths that are added to

How a path is read when a name or slashes come behind it. The segments that were there lead where
they led before, since none of them is the last one any more, and what is added goes on from there.
-/

namespace CertRegistry.Url

namespace Path

/-- Where a segment that is not the last one leads. Paths are given backwards. -/
def step (path : List (List Char)) (name : List Char) : List (List Char) :=
  match Segment.of name with
  | .stay => path
  | .back => leave path
  | .enter name => name :: path

/-- Where segments lead of which none is the last one. -/
def walk (names : List (List Char)) : List (List Char) := names.foldl step []

theorem Segment.eq_of_enter {name other : List Char} (h : Segment.of name = .enter other) :
    other = name := by
  unfold Segment.of at h
  split at h
  · cases h
  · cases h
  · exact (Segment.enter.inj h).symm

theorem step_of_enter {path : List (List Char)} {name other : List Char}
    (h : Segment.of name = .enter other) : step path name = name :: path := by
  simp only [step, h, Segment.eq_of_enter h]

theorem walk_concat (names : List (List Char)) (name : List Char) :
    walk (names ++ [name]) = step (walk names) name := by
  simp [walk]

theorem follow_cons {path rest : List (List Char)} (name : List Char) (h : rest ≠ []) :
    follow false path (name :: rest) = follow false (step path name) rest := by
  rw [follow, step]
  cases Segment.of name <;> simp [h, enter]

theorem follow_append {rest : List (List Char)} (path front : List (List Char)) (h : rest ≠ []) :
    follow false path (front ++ rest) = follow false (front.foldl step path) rest := by
  induction front generalizing path with
  | nil => rfl
  | cons name front ih => rw [List.cons_append, follow_cons name (by simp [h]), ih, List.foldl_cons]

/-- The last segment leads where it would lead if it were not the last one, but if it has only dots,
an empty segment comes behind. -/
theorem follow_singleton (path : List (List Char)) (name : List Char) : ∃ blanks,
    follow false path [name] = List.replicate blanks [] ++ step path name := by
  rw [follow, step]
  cases Segment.of name with
  | stay => exact ⟨1, rfl⟩
  | back => exact ⟨1, rfl⟩
  | enter name => exact ⟨0, by simp [follow, enter]⟩

theorem follow_blanks (path : List (List Char)) (count : Nat) :
    follow false path (List.replicate count []) = List.replicate count [] ++ path := by
  induction count generalizing path with
  | zero => rfl
  | succ count ih =>
    rw [List.replicate_succ, follow]
    simp only [show Segment.of [] = .enter [] by decide, enter, Bool.false_eq_true, false_and,
      if_false]
    rw [ih, List.append_cons, ← List.replicate_succ', List.replicate_succ]

theorem toText_append (names more : List (List Char)) :
    toText (names ++ more) = toText names ++ toText more := List.flatMap_append

theorem toText_blanks (count : Nat) :
    toText (List.replicate count []) = List.replicate count '/' := by
  induction count with
  | zero => rfl
  | succ count ih => rw [List.replicate_succ, toText, List.flatMap_cons, ← toText, ih]; rfl

end Path

/-- A path that has not come to its end: nothing yet, or what a slash starts. -/
def StartsPath (path : List Char) : Prop :=
  ∀ c, path.head? = some c → SchemeKind.web.isSlash c = true

/-- The segments of a path that more will be added to. -/
def names (path : List Char) : List (List Char) :=
  if path = [] then [] else (segments .web path).map (Percent.encode Percent.inPath)

/-- The directory in which a name lies that is put behind a path and a slash. -/
def directory (path : List Char) : List Char := Path.toText (Path.walk (names path)).reverse

/-- What stands behind the last slash of a text, or all of it. -/
def lastName (cs : List Char) : List Char :=
  (cs.reverse.takeWhile (!SchemeKind.web.isSlash ·)).reverse

variable {path name : List Char} {slash : Char}

/-! ## What is added -/

theorem segments_append (hpath : StartsPath path) (hslash : SchemeKind.web.isSlash slash = true)
    (more : List Char) :
    (segments .web (path ++ slash :: more)).map (Percent.encode Percent.inPath) =
      names path ++ ((more.map fun c => if SchemeKind.web.isSlash c then '/' else c).splitOn
        '/').map (Percent.encode Percent.inPath) := by
  cases path with
  | nil => simp [segments, names, hslash]
  | cons c path =>
    have hc := hpath c rfl
    have hsplit : ∀ front back : List Char, (front ++ '/' :: back).splitOn '/' =
        front.splitOn '/' ++ back.splitOn '/' :=
      fun front back => List.splitOnP_append_cons front back rfl
    simp only [segments, names, List.cons_append, hc, if_true, List.map_append, List.map_cons,
      hslash, reduceCtorEq, if_false, hsplit]

theorem names_append (hpath : StartsPath path) (hslash : SchemeKind.web.isSlash slash = true)
    (hname : ∀ c ∈ name, SchemeKind.web.isSlash c = false) :
    names (path ++ slash :: name) = names path ++ [Percent.encode Percent.inPath name] := by
  have hmap : name.map (fun c => if SchemeKind.web.isSlash c then '/' else c) = name := by
    refine (List.map_congr_left fun c hc => ?_).trans (List.map_id name)
    rw [hname c hc]
    rfl
  have hmem : '/' ∉ name := fun hmem => absurd (hname '/' hmem) (by decide)
  rw [names, if_neg (by simp), segments_append hpath hslash, hmap,
    List.splitOn_eq_singleton hmem, List.map_singleton]

theorem pathText_eq (path : List Char) :
    pathText .web path = Path.toText (Path.follow false []
      ((segments .web path).map (Percent.encode Percent.inPath))).reverse := rfl

/-- A name that is added lies in the directory. -/
theorem pathText_name (hpath : StartsPath path) (hname : IsPlainSegment name) :
    pathText .web (path ++ '/' :: name) = directory path ++ '/' :: name := by
  have hslash : SchemeKind.web.isSlash '/' = true := rfl
  have hnames := names_append hpath hslash fun c hc => (hname.inside c hc).2.2
  rw [names, if_neg (by simp), hname.encode_eq_self] at hnames
  have hlast : Path.follow false (Path.walk (names path)) [name] =
      name :: Path.walk (names path) := by
    simp [Path.follow, hname.entered, Path.enter]
  rw [pathText_eq, hnames, Path.follow_append _ _ (List.cons_ne_nil _ _), ← Path.walk, hlast,
    List.reverse_cons, Path.toText_append]
  simp [directory, Path.toText]

theorem splitOn_slashes (count : Nat) :
    (List.replicate count '/').splitOn '/' = List.replicate (count + 1) [] := by
  induction count with
  | zero => rfl
  | succ count ih =>
    have hsplit : ('/' :: List.replicate count '/').splitOn '/' =
        ([] : List Char).splitOn '/' ++ (List.replicate count '/').splitOn '/' :=
      List.splitOnP_append_cons [] _ rfl
    rw [List.replicate_succ, hsplit, ih, List.splitOn_nil, List.singleton_append,
      ← List.replicate_succ]

/-- Slashes that are added lead to as many blank segments, and what is no name at the end of a path
that nothing is added to leads to one. -/
theorem follow_slashes (hpath : StartsPath path) (count : Nat) : ∃ blanks,
    Path.follow false [] ((segments .web (path ++ List.replicate count '/')).map
      (Percent.encode Percent.inPath)) = List.replicate blanks [] ++ Path.walk (names path) := by
  -- With a slash behind it no segment of the path is the last one; without, its last one is.
  cases count with
  | succ count =>
    have hmap : (List.replicate count '/').map
        (fun c => if SchemeKind.web.isSlash c then '/' else c) = List.replicate count '/' := by
      rw [List.map_replicate]
      rfl
    refine ⟨count + 1, ?_⟩
    rw [List.replicate_succ, segments_append hpath rfl, hmap, splitOn_slashes, List.map_replicate,
      Percent.encode_nil, Path.follow_append _ _ (by simp), Path.follow_blanks]
    rfl
  | zero =>
    rw [List.replicate_zero, List.append_nil]
    rcases eq_or_ne path [] with rfl | hne
    · exact ⟨1, by decide⟩
    have hnames : (segments .web path).map (Percent.encode Percent.inPath) = names path := by
      rw [names, if_neg hne]
    rw [hnames]
    rcases List.eq_nil_or_concat (names path) with hnil | ⟨front, last, hconcat⟩
    · exact ⟨0, by rw [hnil]; rfl⟩
    · obtain ⟨blanks, hlast⟩ := Path.follow_singleton (Path.walk front) last
      refine ⟨blanks, ?_⟩
      rw [hconcat, List.concat_eq_append, Path.follow_append _ _ (List.cons_ne_nil _ _),
        Path.walk_concat]
      exact hlast

/-- Slashes that are added stay behind the directory. -/
theorem pathText_slashes (hpath : StartsPath path) (count : Nat) : ∃ blanks,
    pathText .web (path ++ List.replicate count '/') =
      directory path ++ List.replicate blanks '/' := by
  obtain ⟨blanks, hfollow⟩ := follow_slashes hpath count
  refine ⟨blanks, ?_⟩
  rw [pathText_eq, hfollow, List.reverse_append, List.reverse_replicate, Path.toText_append,
    Path.toText_blanks]
  rfl

/-! ## Directories -/

theorem isSlash_of_mem_lastName {cs : List Char} {c : Char} (h : c ∈ lastName cs) :
    SchemeKind.web.isSlash c = false := by
  simpa using List.mem_takeWhile_imp (List.mem_reverse.mp h)

/-- A path is what stands before its last slash, that slash, and the last name. -/
theorem exists_front (hpath : StartsPath path) (hne : path ≠ []) : ∃ front slash,
    path = front ++ slash :: lastName path ∧ StartsPath front ∧
      SchemeKind.web.isSlash slash = true := by
  have hparts := List.takeWhile_append_dropWhile (p := (!SchemeKind.web.isSlash ·))
    (l := path.reverse)
  have hhead := List.head?_dropWhile_not (!SchemeKind.web.isSlash ·) path.reverse
  cases hdrop : path.reverse.dropWhile (!SchemeKind.web.isSlash ·) with
  | nil =>
    obtain ⟨c, rest, rfl⟩ := List.exists_cons_of_ne_nil hne
    have hall := List.dropWhile_eq_nil_iff.mp hdrop c (by simp)
    simp [hpath c rfl] at hall
  | cons slash front =>
    rw [hdrop] at hparts hhead
    have hsplit : path = front.reverse ++ slash :: lastName path := by
      rw [← List.reverse_reverse path, ← hparts, lastName, List.reverse_append]
      simp [hparts]
    refine ⟨front.reverse, slash, hsplit, fun c hc => hpath c ?_, by simpa using hhead⟩
    rw [hsplit, List.head?_append, hc]
    rfl

/-- The last name of a path is the last one of a text that ends in it. -/
theorem lastName_of_suffix {cs : List Char} (hpath : StartsPath path) (hne : path ≠ [])
    (h : path <:+ cs) : lastName cs = lastName path := by
  obtain ⟨before, rfl⟩ := h
  obtain ⟨front, slash, hsplit, -, hslash⟩ := exists_front hpath hne
  have hname : ∀ c ∈ (lastName path).reverse, (!SchemeKind.web.isSlash c) = true := by
    intro c hc
    simpa using isSlash_of_mem_lastName (List.mem_reverse.mp hc)
  conv_lhs => rw [hsplit]
  rw [lastName, ← List.append_assoc, List.reverse_append, List.reverse_cons, List.append_assoc,
    List.takeWhile_append_of_pos hname, List.singleton_append,
    List.takeWhile_cons_of_neg (by simp [hslash]), List.append_nil, List.reverse_reverse]

/-- A directory that is named last does not end in a slash. -/
theorem getLast?_directory (hpath : StartsPath path) (hne : path ≠ []) (hname : name ≠ [])
    (h : Path.Segment.of (Percent.encode Percent.inPath (lastName path)) = .enter name) :
    (directory path).getLast? ≠ some '/' := by
  obtain ⟨front, slash, hsplit, hfront, hslash⟩ := exists_front hpath hne
  have hnames : names path = names front ++ [Percent.encode Percent.inPath (lastName path)] := by
    conv_lhs => rw [hsplit]
    exact names_append hfront hslash fun c hc => isSlash_of_mem_lastName hc
  obtain rfl := Path.Segment.eq_of_enter h
  have hdirectory : directory path = Path.toText (Path.walk (names front)).reverse ++
      ('/' :: Percent.encode Percent.inPath (lastName path)) := by
    rw [directory, hnames, Path.walk_concat, Path.step_of_enter h, List.reverse_cons,
      Path.toText_append]
    simp [Path.toText]
  intro hlast
  rw [hdirectory, List.getLast?_append, List.getLast?_cons, List.getLast?_eq_some_getLast hname,
    Option.getD_some, Option.some_or] at hlast
  have hmem := Percent.mem_of_mem_encode (Option.some.inj hlast ▸ List.getLast_mem hname)
    (by decide)
  exact absurd (isSlash_of_mem_lastName hmem) (by decide)

end CertRegistry.Url
