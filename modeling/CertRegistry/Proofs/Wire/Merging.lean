import CertRegistry.Proofs.Wire.Rows
import Mathlib.Data.List.Pairwise

/-!
# One record behind another

Octets of a record that follow octets of the same type add to it: what the second ones say of a
single value holds, lists go on, and records in fields are added to in the same way. What octets
say is more than the record that they hold, since a blank value may stand on the wire as well.
-/

namespace CertRegistry.Wire

/-! ## What a row says -/

/-- The fields of a row that have a tag. -/
def partsOf (tag : Nat) (ps : List Part) : List Part := ps.filter (·.key.tag = tag)

/-- Whether a row has a field with a tag. -/
def carries (tag : Nat) (ps : List Part) : Bool := ps.any (·.key.tag = tag)

/-- A single value after a row, from the one before it and the one that the row holds. -/
def latest {α : Type} (tag : Nat) (ps : List Part) (before after : α) : α :=
  if carries tag ps then after else before

/-- The octets behind a length. -/
def Part.content (p : Part) : Bytes :=
  match takeDelimited p.value with
  | .ok (content, _) => content
  | .error _ => []

/-- The fields of a record in a field. -/
def Part.inner (p : Part) : List Part := (parts p.content).toOption.getD []

/-- The fields of all records that a row has under a tag. -/
def partsWithin (tag : Nat) (ps : List Part) : List Part := (partsOf tag ps).flatMap (·.inner)

/-- A record in a field after a row. It is there when it was there before or the row has it. -/
def latestWithin {M : Type} (merge : List Part → M → M → M) (tag : Nat) (ps : List Part) :
    Option M → Option M → Option M
  | some before, some after => some (merge (partsWithin tag ps) before after)
  | some before, none => some before
  | none, after => after

section Rows

variable {tag : Nat} {ps : List Part} {p : Part}

theorem partsOf_cons_of_eq (h : p.key.tag = tag) :
    partsOf tag (p :: ps) = p :: partsOf tag ps :=
  List.filter_cons_of_pos (decide_eq_true h)

theorem partsOf_cons_of_ne (h : p.key.tag ≠ tag) : partsOf tag (p :: ps) = partsOf tag ps :=
  List.filter_cons_of_neg (by simpa using h)

theorem carries_eq_true : carries tag ps = true ↔ partsOf tag ps ≠ [] := by
  simp [carries, partsOf, List.filter_eq_nil_iff]

theorem latest_of_nil {α : Type} {before after : α} (h : partsOf tag ps = []) :
    latest tag ps before after = before :=
  if_neg fun hcarries => carries_eq_true.mp hcarries h

theorem latest_of_ne_nil {α : Type} {before after : α} (h : partsOf tag ps ≠ []) :
    latest tag ps before after = after :=
  if_pos (carries_eq_true.mpr h)

/-- What stands behind the length is a row of whole fields. -/
def Part.HasRow (depth : Nat) (p : Part) : Prop :=
  takeDelimited p.value = .ok (p.content, []) ∧ p.content = octetsOf p.inner ∧
    ∀ q ∈ p.inner, q.IsWhole depth

theorem hasRow_of_takeDelimited {depth : Nat} {content : Bytes} {qs : List Part}
    (h : takeDelimited p.value = .ok (content, [])) (hcontent : content = octetsOf qs)
    (hqs : ∀ q ∈ qs, q.IsWhole depth) (hmax : depth ≤ Schema.maxDepth) :
    p.HasRow depth ∧ p.inner = qs := by
  have hsame : p.content = content := by simp only [Part.content, h]
  have hinner : p.inner = qs := by
    rw [Part.inner, hsame, parts_eq_ok.mpr ⟨hcontent, fun q hq => (hqs q hq).mono hmax⟩]
    rfl
  rw [Part.HasRow, hinner, hsame]
  exact ⟨⟨h, hcontent, hqs⟩, rfl⟩

end Rows

/-! ## Fields apart from each other -/

/-- Whether to set either of two fields leaves the other one alone. -/
def Field.AreApart {M : Type} (f g : Field M) : Prop :=
  (∀ m b, f.get (g.set m b) = f.get m) ∧ ∀ m b, g.get (f.set m b) = g.get m

namespace Schema

variable {M : Type} {S : Schema M} {level depth : Nat}

/-- To set a field leaves those before it alone. With lawful fields it leaves all others alone. -/
def IsApart (S : Schema M) : Prop :=
  S.fields.Pairwise fun f g => ∀ m b, f.get (g.set m b) = f.get m

theorem tag_of_field? {tag : Nat} {f : Field M} (h : S.field? tag = some f) : f.tag = tag := by
  simpa using List.find?_some h

theorem eq_of_tag_eq (hS : S.Lawful level) {f g : Field M} (hf : f ∈ S.fields)
    (hg : g ∈ S.fields) (htag : f.tag = g.tag) : f = g := by
  have hfound := field?_of_mem hS hf
  rw [htag, field?_of_mem hS hg] at hfound
  exact (Option.some.inj hfound).symm

theorem get_set_of_ne (hS : S.Lawful level) (happart : S.IsApart) {f g : Field M}
    (hf : f ∈ S.fields) (hg : g ∈ S.fields) (hne : f.tag ≠ g.tag) (m : M) (b : g.β) :
    f.get (g.set m b) = f.get m := by
  have hsymm : Std.Symm (@Field.AreApart M) := ⟨fun _ _ h => ⟨h.2, h.1⟩⟩
  have hboth : S.fields.Pairwise Field.AreApart :=
    List.Pairwise.and happart (hS.apart.imp fun h => h.2)
  exact (hboth.forall hf hg fun heq => hne (congrArg Field.tag heq)).1 m b

theorem ext_of_lawful (hS : S.Lawful level) {m m' : M}
    (h : ∀ f ∈ S.fields, f.get m = f.get m') : m = m' := by
  have hfold : ∀ (fs : List (Field M)) (acc : M), (∀ f ∈ fs, f.get m = f.get m') →
      fs.foldl (fun acc f => f.set acc (f.get m)) acc =
        fs.foldl (fun acc f => f.set acc (f.get m')) acc := by
    intro fs
    induction fs with
    | nil => intro acc _; rfl
    | cons f fs ih =>
      intro acc hfs
      obtain ⟨hfirst, hothers⟩ := List.forall_mem_cons.mp hfs
      simp only [List.foldl_cons, hfirst]
      exact ih _ hothers
  rw [← hS.rebuild m, ← hS.rebuild m']
  exact hfold _ _ h

/-- Fields are read apart from each other: each takes the parts that have its tag. -/
theorem foldlM_take_iff (hS : S.Lawful level) (happart : S.IsApart) {ps : List Part} {m m' : M} :
    ps.foldlM (S.take depth) m = .ok m' ↔
      ∀ f ∈ S.fields, (partsOf f.tag ps).foldlM (f.slot.take f.codec depth) (f.get m) =
        .ok (f.get m') := by
  induction ps generalizing m with
  | nil =>
    constructor
    · intro h f _
      cases h
      rfl
    · intro h
      have hsame : m = m' := ext_of_lawful hS fun f hf => Except.ok.inj (h f hf)
      rw [hsame]
      rfl
  | cons p ps ih =>
    rw [List.foldlM_cons, bind_eq_ok]
    cases hfield : S.field? p.key.tag with
    | none =>
      have hunknown : ∀ f ∈ S.fields, p.key.tag ≠ f.tag := by
        intro f hf heq
        simpa [heq] using List.find?_eq_none.mp hfield f hf
      rw [take_of_unknown fun f hf => (hunknown f hf).symm]
      constructor
      · rintro ⟨m₁, hm₁, hfold⟩ f hf
        cases hm₁
        rw [partsOf_cons_of_ne (hunknown f hf)]
        exact ih.mp hfold f hf
      · intro h
        refine ⟨m, rfl, ih.mpr fun f hf => ?_⟩
        rw [← partsOf_cons_of_ne (hunknown f hf)]
        exact h f hf
    | some f =>
      have hf := List.mem_of_find?_eq_some hfield
      have htag : p.key.tag = f.tag := (tag_of_field? hfield).symm
      have hothers : ∀ b, ∀ g ∈ S.fields, g.tag ≠ f.tag → g.get (f.set m b) = g.get m :=
        fun b g hg hne => get_set_of_ne hS happart hg hf hne m b
      rw [take_of_field? hfield]
      constructor
      · rintro ⟨m₁, hm₁, hfold⟩ g hg
        obtain ⟨b, hb, rfl⟩ := map_eq_ok.mp hm₁
        have hrest := ih.mp hfold g hg
        by_cases hsame : g.tag = f.tag
        · obtain rfl := eq_of_tag_eq hS hg hf hsame
          rw [(hS.fields g hg).get_set] at hrest
          rw [partsOf_cons_of_eq htag, List.foldlM_cons]
          exact bind_eq_ok.mpr ⟨b, hb, hrest⟩
        · rw [hothers b g hg hsame] at hrest
          rwa [partsOf_cons_of_ne fun h => hsame (h.symm.trans htag)]
      · intro h
        have hown := h f hf
        rw [partsOf_cons_of_eq htag, List.foldlM_cons] at hown
        obtain ⟨b, hb, hrest⟩ := bind_eq_ok.mp hown
        refine ⟨_, map_eq_ok.mpr ⟨b, hb, rfl⟩, ih.mpr fun g hg => ?_⟩
        by_cases hsame : g.tag = f.tag
        · obtain rfl := eq_of_tag_eq hS hg hf hsame
          rwa [(hS.fields g hg).get_set]
        · rw [hothers b g hg hsame, ← partsOf_cons_of_ne fun h => hsame (h.symm.trans htag)]
          exact h g hg

/-! ## What a row adds -/

/-- How a record and the record that a row makes of a blank one become one when the row follows
the first, by what the row says. -/
def Merges (S : Schema M) (depth : Nat) (merge : List Part → M → M → M) : Prop :=
  ∀ (ps : List Part) (m m' : M), (∀ p ∈ ps, p.IsWhole depth) →
    ps.foldlM (S.take depth) S.blank = .ok m' →
    ps.foldlM (S.take depth) m = .ok (merge ps m m')

end Schema

namespace Slot

variable {α β : Type}

/-- How the content of a field and the one that a row makes of an empty one become one. -/
def Joins (slot : Slot α β) (codec : Codec α) (tag depth : Nat) (join : List Part → β → β → β) :
    Prop :=
  ∀ (ps : List Part) (c b : β), (∀ p ∈ ps, p.IsWhole depth) →
    (partsOf tag ps).foldlM (slot.take codec depth) slot.empty = .ok b →
    (partsOf tag ps).foldlM (slot.take codec depth) c = .ok (join ps c b)

variable {codec : Codec α} {tag depth : Nat}

theorem joins_single [DecidableEq α]
    (hstart : ∀ start start', codec.update depth start = codec.update depth start') :
    (single codec.blank).Joins codec tag depth (latest tag) := by
  intro ps c b _ hb
  cases hrow : partsOf tag ps with
  | nil =>
    rw [latest_of_nil hrow]
    rfl
  | cons p qs =>
    -- The first part does not look at what was there before.
    have hfirst : (single codec.blank).take codec depth c p =
        (single codec.blank).take codec depth codec.blank p := by
      simp only [take, single, Option.getD_some, hstart c codec.blank]
    rw [latest_of_ne_nil (by rw [hrow]; exact List.cons_ne_nil _ _)]
    rw [hrow, List.foldlM_cons] at hb
    rw [List.foldlM_cons, hfirst]
    exact hb

theorem take_repeated_append {p : Part} (vs : List α) {ws ws' : List α}
    (h : repeated.take codec depth ws p = .ok ws') :
    repeated.take codec depth (vs ++ ws) p = .ok (vs ++ ws') := by
  unfold take at h ⊢
  split at h
  · cases h
  next htype =>
    obtain ⟨⟨v, rest⟩, hread, hstore⟩ := bind_eq_ok.mp h
    cases hstore
    rw [if_neg htype]
    refine bind_eq_ok.mpr ⟨_, hread, ?_⟩
    simp only [repeated, List.append_assoc]
    rfl

theorem joins_repeated :
    repeated.Joins codec tag depth fun _ before after => before ++ after := by
  intro ps c b _ hb
  have hrow : ∀ (qs : List Part) (ws ws' : List α),
      qs.foldlM (repeated.take codec depth) ws = .ok ws' →
      qs.foldlM (repeated.take codec depth) (c ++ ws) = .ok (c ++ ws') := by
    intro qs
    induction qs with
    | nil =>
      intro ws ws' h
      cases h
      rfl
    | cons q qs ih =>
      intro ws ws' h
      rw [List.foldlM_cons] at h ⊢
      obtain ⟨ws₁, hfirst, hrest⟩ := bind_eq_ok.mp h
      exact bind_eq_ok.mpr ⟨_, take_repeated_append c hfirst, ih _ _ hrest⟩
  have hall := hrow _ [] _ hb
  rwa [List.append_nil] at hall

section Within

variable {T : Schema α} {level : Nat}

/-- A part makes of a record what the row in it makes of the record. -/
theorem take_optional_iff (hT : T.Lawful level) (hlocal : T.IsLocal) (hdepth : 0 < depth)
    (hmax : depth ≤ Schema.maxDepth) {p : Part} (hp : p.IsWhole (depth + 1)) {b b' : Option α} :
    optional.take T.codec (depth + 1) b p = .ok b' ↔
      p.key.type = .delimited ∧ p.HasRow depth ∧
        ∃ x, p.inner.foldlM (T.take depth) (b.getD T.blank) = .ok x ∧ b' = some x := by
  rw [take_eq_ok (Schema.isLocal_codec hT hlocal) (Nat.succ_pos _) hp]
  refine and_congr_right fun _ => ?_
  have hsome : ∀ x, optional.store b x = b' ↔ b' = some x := fun _ => eq_comm
  simp only [hsome]
  have hstart : (optional.current b).getD T.codec.blank = b.getD T.blank := rfl
  simp only [hstart, Schema.codec_update_eq_ok hT hlocal]
  constructor
  · rintro ⟨x, ⟨content, hread, hreads⟩, hb⟩
    obtain ⟨qs, hcontent, hqs, hfold⟩ := (Schema.reads_iff hlocal hdepth).mp hreads
    rw [List.append_nil] at hcontent
    obtain ⟨hrow, hinner⟩ := hasRow_of_takeDelimited hread hcontent hqs hmax
    rw [hinner]
    exact ⟨hrow, x, hfold, hb⟩
  · rintro ⟨⟨hread, hcontent, hqs⟩, x, hfold, hb⟩
    refine ⟨x, ⟨_, hread, (Schema.reads_iff hlocal hdepth).mpr ⟨_, ?_, hqs, hfold⟩⟩, hb⟩
    rw [hcontent, List.append_nil]

/-- Parts make of a record what the rows in them make of it, one after the other. -/
theorem foldlM_take_some_iff (hT : T.Lawful level) (hlocal : T.IsLocal) (hdepth : 0 < depth)
    (hmax : depth ≤ Schema.maxDepth) {ps : List Part} (hps : ∀ p ∈ ps, p.IsWhole (depth + 1))
    {x : α} {b : Option α} :
    ps.foldlM (optional.take T.codec (depth + 1)) (some x) = .ok b ↔
      (∀ p ∈ ps, p.key.type = .delimited ∧ p.HasRow depth) ∧
        ∃ x', (ps.flatMap (·.inner)).foldlM (T.take depth) x = .ok x' ∧ b = some x' := by
  induction ps generalizing x with
  | nil =>
    have hnone : ([] : List Part).foldlM (optional.take T.codec (depth + 1)) (some x) = .ok b ↔
        b = some x := by
      rw [List.foldlM_nil]
      exact ⟨fun h => (Except.ok.inj h).symm, fun h => h ▸ rfl⟩
    rw [hnone]
    refine ⟨fun h => ⟨List.forall_mem_nil _, x, rfl, h⟩, ?_⟩
    rintro ⟨-, x', hx, hb⟩
    cases hx
    exact hb
  | cons p ps ih =>
    obtain ⟨hp, hps⟩ := List.forall_mem_cons.mp hps
    rw [List.foldlM_cons, bind_eq_ok, List.forall_mem_cons, List.flatMap_cons, List.foldlM_append]
    simp only [bind_eq_ok]
    constructor
    · rintro ⟨b₁, hfirst, hrest⟩
      obtain ⟨htype, hrow, x₁, hx₁, rfl⟩ := (take_optional_iff hT hlocal hdepth hmax hp).mp hfirst
      obtain ⟨hrows, x', hx', rfl⟩ := (ih hps).mp hrest
      exact ⟨⟨⟨htype, hrow⟩, hrows⟩, x', ⟨x₁, hx₁, hx'⟩, rfl⟩
    · rintro ⟨⟨⟨htype, hrow⟩, hrows⟩, x', ⟨x₁, hx₁, hx'⟩, rfl⟩
      exact ⟨some x₁, (take_optional_iff hT hlocal hdepth hmax hp).mpr ⟨htype, hrow, x₁, hx₁, rfl⟩,
        (ih hps).mpr ⟨hrows, x', hx', rfl⟩⟩

theorem joins_optional (hT : T.Lawful level) (hlocal : T.IsLocal)
    {merge : List Part → α → α → α} (hmerge : T.Merges depth merge) (hdepth : 0 < depth)
    (hmax : depth ≤ Schema.maxDepth) :
    optional.Joins T.codec tag (depth + 1) (latestWithin merge tag) := by
  intro ps c b hps hb
  cases c with
  | none => exact hb
  | some m =>
    have hwhole : ∀ p ∈ partsOf tag ps, p.IsWhole (depth + 1) :=
      fun p hp => hps p (List.mem_filter.mp hp).1
    cases hrow : partsOf tag ps with
    | nil =>
      rw [hrow] at hb
      cases hb
      rfl
    | cons p qs =>
      -- A part that finds no record starts from the blank one.
      have hfirst : optional.take T.codec (depth + 1) none p =
          optional.take T.codec (depth + 1) (some T.blank) p := rfl
      have hblank : (partsOf tag ps).foldlM (optional.take T.codec (depth + 1)) (some T.blank) =
          .ok b := by
        rw [hrow, List.foldlM_cons] at hb ⊢
        rwa [← hfirst]
      obtain ⟨hrows, x, hx, rfl⟩ := (foldlM_take_some_iff hT hlocal hdepth hmax hwhole).mp hblank
      have hinner : ∀ q ∈ partsWithin tag ps, q.IsWhole depth := by
        intro q hq
        obtain ⟨p, hp, hq⟩ := List.mem_flatMap.mp hq
        exact (hrows p hp).2.2.2 q hq
      rw [← hrow]
      exact (foldlM_take_some_iff hT hlocal hdepth hmax hwhole).mpr
        ⟨hrows, _, hmerge _ m x hinner hx, rfl⟩

end Within

end Slot

/-! ## Records -/

namespace Field

variable {M α : Type} {tag : Nat} {name : String} {codec : Codec α} {depth : Nat}
  {merge : List Part → M → M → M}

/-- Whether records are joined in a field as a row says. -/
def IsMerged (f : Field M) (depth : Nat) (merge : List Part → M → M → M) : Prop :=
  ∃ join, f.slot.Joins f.codec f.tag depth join ∧
    ∀ ps m m', f.get (merge ps m m') = join ps (f.get m) (f.get m')

theorem isMerged_single [DecidableEq α] {get : M → α} {set : M → α → M}
    (hstart : ∀ start start', codec.update depth start = codec.update depth start')
    (hget : ∀ ps m m', get (merge ps m m') = latest tag ps (get m) (get m')) :
    (single tag name codec get set).IsMerged depth merge := by
  have hjoins : (Slot.single codec.blank).Joins codec tag depth (latest tag) :=
    Slot.joins_single hstart
  exact ⟨latest tag, hjoins, hget⟩

theorem isMerged_repeated {get : M → List α} {set : M → List α → M}
    (hget : ∀ ps m m', get (merge ps m m') = get m ++ get m') :
    (repeated tag name codec get set).IsMerged depth merge := by
  have hjoins : Slot.repeated.Joins codec tag depth fun _ before after => before ++ after :=
    Slot.joins_repeated
  exact ⟨_, hjoins, hget⟩

theorem isMerged_optional {T : Schema α} {level : Nat} {inner : List Part → α → α → α}
    {get : M → Option α} {set : M → Option α → M} (hT : T.Lawful level) (hlocal : T.IsLocal)
    (hinner : T.Merges depth inner) (hdepth : 0 < depth) (hmax : depth ≤ Schema.maxDepth)
    (hget : ∀ ps m m', get (merge ps m m') = latestWithin inner tag ps (get m) (get m')) :
    (optional tag name T.codec get set).IsMerged (depth + 1) merge :=
  ⟨latestWithin inner tag, Slot.joins_optional hT hlocal hinner hdepth hmax, hget⟩

end Field

namespace Schema

variable {M : Type} {S : Schema M} {level : Nat}

/-- Records are joined field by field. -/
theorem merges_of_fields (hS : S.Lawful level) (happart : S.IsApart) {depth : Nat}
    {merge : List Part → M → M → M}
    (hfields : ∀ f ∈ S.fields, f.IsMerged depth merge) : S.Merges depth merge := by
  intro ps m m' hps hm'
  refine (foldlM_take_iff hS happart).mpr fun f hf => ?_
  obtain ⟨join, hjoin, hmerge⟩ := hfields f hf
  rw [hmerge]
  refine hjoin ps _ _ hps ?_
  rw [← hS.blank f hf]
  exact (foldlM_take_iff hS happart).mp hm' f hf

/-- A field that nobody knows says nothing. -/
theorem reads_insert {depth : Nat} (hlocal : S.IsLocal) (hdepth : 0 < depth)
    (hmax : depth ≤ maxDepth) {front back : Bytes} {ps : List Part} {p : Part}
    (hfront : parts front = .ok ps) (hp : p.IsWhole depth)
    (hunknown : ∀ f ∈ S.fields, f.tag ≠ p.key.tag) {m m' : M} :
    Reads (S.readField depth) m (front ++ p.octets ++ back) m' [] ↔
      Reads (S.readField depth) m (front ++ back) m' [] := by
  have hskip : ∀ m₁, Reads (S.readField depth) m₁ (p.octets ++ back) m' [] ↔
      Reads (S.readField depth) m₁ back m' [] := by
    intro m₁
    rw [reads_append hlocal hdepth hmax (parts_octets (hp.mono hmax))]
    simp only [reads_octets hlocal hdepth hp hmax, take_of_unknown hunknown, Except.ok.injEq,
      exists_eq_left']
  rw [List.append_assoc, reads_append hlocal hdepth hmax hfront,
    reads_append hlocal hdepth hmax hfront]
  simp only [hskip]

/-- Octets of a record add to those before them, and fields that nobody knows say nothing. -/
structure Cumulates (S : Schema M) (merge : List Part → M → M → M) : Prop where
  append : ∀ {a b : Bytes} {m m' : M}, S.decode a = .ok m → S.decode b = .ok m' →
    ∃ ps, parts b = .ok ps ∧ S.decode (a ++ b) = .ok (merge ps m m')
  insert : ∀ {front back : Bytes} {p : Part}, (∃ ps, parts front = .ok ps) → p.IsWhole maxDepth →
    (∀ f ∈ S.fields, f.tag ≠ p.key.tag) →
    ∀ m, S.decode (front ++ p.octets ++ back) = .ok m ↔ S.decode (front ++ back) = .ok m

theorem cumulates_of_merges (hS : S.Lawful level) (hlocal : S.IsLocal)
    {merge : List Part → M → M → M} (hmerge : S.Merges maxDepth merge) : S.Cumulates merge where
  append {a b m m'} ha hb := by
    obtain ⟨ps, hps, -⟩ := (decode_eq_ok hS hlocal).mp ha
    obtain ⟨qs, hqs, hm'⟩ := (decode_eq_ok hS hlocal).mp hb
    obtain ⟨hb, hwhole⟩ := parts_eq_ok.mp hqs
    refine ⟨qs, hqs, (decode_iff_reads hS).mpr ?_⟩
    refine (reads_append hlocal (by decide) (Nat.le_refl _) hps).mpr
      ⟨m, (decode_iff_reads hS).mp ha, ?_⟩
    refine (reads_iff hlocal (by decide)).mpr ⟨qs, ?_, hwhole, hmerge qs m m' hwhole hm'⟩
    rw [hb, List.append_nil]
  insert {front back p} hfront hp hunknown m := by
    obtain ⟨ps, hps⟩ := hfront
    rw [decode_iff_reads hS, decode_iff_reads hS]
    exact reads_insert hlocal (by decide) (Nat.le_refl _) hps hp hunknown

end Schema

end CertRegistry.Wire
