import CertRegistry.Proofs.Wire.Merging
import Mathlib.Data.List.Induction

/-!
# What a row says

A row of fields says what a record is. Of the parts with the tag of a single value each has to spell
such a value, and the last one holds; the rows in the parts with the tag of a record are read as one
row. A value of which nothing is said is blank.
-/

namespace CertRegistry.Wire

/-- Whether a part holds a number. -/
def Part.IsNumber (p : Part) (n : Nat) : Prop :=
  p.key.type = .varint ∧ takeVarint p.value = .ok (n, [])

/-- Whether a part holds a text. -/
def Part.IsText (p : Part) (s : String) : Prop :=
  p.key.type = .delimited ∧ takeDelimited p.value = .ok (Bytes.ofText s, [])

/-- Whether parts say of a single value what it is. -/
structure Yield {α : Type} (reads : Part → α → Prop) (blank : α) (ps : List Part) (a : α) :
    Prop where
  each : ∀ p ∈ ps, ∃ v, reads p v
  last : (ps = [] ∧ a = blank) ∨ ∃ front p, ps = front ++ [p] ∧ reads p a

section Single

variable {α : Type} {reads : Part → α → Prop} {blank a : α} {ps : List Part} {p : Part}

theorem yield_nil : Yield reads blank [] a ↔ a = blank := by
  constructor
  · rintro ⟨-, ⟨-, h⟩ | ⟨front, p, h, -⟩⟩
    · exact h
    · exact absurd h.symm (List.concat_ne_nil _ _)
  · exact fun h => ⟨List.forall_mem_nil _, .inl ⟨rfl, h⟩⟩

theorem yield_concat :
    Yield reads blank (ps ++ [p]) a ↔ (∀ q ∈ ps, ∃ v, reads q v) ∧ reads p a := by
  constructor
  · rintro ⟨heach, ⟨h, -⟩ | ⟨front, q, h, hread⟩⟩
    · exact absurd h (List.concat_ne_nil _ _)
    · obtain ⟨-, hlast⟩ := List.append_inj' h rfl
      cases hlast
      exact ⟨(List.forall_mem_append.mp heach).1, hread⟩
  · rintro ⟨heach, hread⟩
    exact ⟨List.forall_mem_append.mpr ⟨heach, List.forall_mem_singleton.mpr ⟨a, hread⟩⟩,
      .inr ⟨ps, p, rfl, hread⟩⟩

/-- Parts say something of a value if each of them can be read. -/
theorem exists_yield : (∃ a, Yield reads blank ps a) ↔ ∀ p ∈ ps, ∃ v, reads p v := by
  refine ⟨fun ⟨_, h⟩ => h.each, fun h => ?_⟩
  rcases List.eq_nil_or_concat ps with rfl | ⟨front, p, rfl⟩
  · exact ⟨blank, yield_nil.mpr rfl⟩
  · rw [List.concat_eq_append] at h ⊢
    obtain ⟨hfront, hlast⟩ := List.forall_mem_append.mp h
    obtain ⟨a, hread⟩ := List.forall_mem_singleton.mp hlast
    exact ⟨a, yield_concat.mpr ⟨hfront, hread⟩⟩

/-- To read parts one by one, each in place of those before it, is to take the last one. -/
theorem foldlM_eq_ok_iff_yield {take : α → Part → Except Fault α}
    (htake : ∀ p ∈ ps, ∀ b b', take b p = .ok b' ↔ reads p b') :
    ps.foldlM take blank = .ok a ↔ Yield reads blank ps a := by
  induction ps using List.reverseRecOn generalizing a with
  | nil => exact ⟨fun h => yield_nil.mpr (Except.ok.inj h).symm, fun h => yield_nil.mp h ▸ rfl⟩
  | append_singleton ps p ih =>
    obtain ⟨hfront, hlast⟩ := List.forall_mem_append.mp htake
    have hp := List.forall_mem_singleton.mp hlast
    simp only [List.foldlM_append, bind_eq_ok, List.foldlM_cons, List.foldlM_nil, bind_pure,
      hp, ih hfront, exists_and_right, exists_yield, yield_concat]

end Single

namespace Slot

variable {α : Type} [DecidableEq α] {codec : Codec α} {depth : Nat} {reads : Part → α → Prop}
  {ps : List Part} {a : α}

/-- A field of a single value holds what the parts with its tag say. -/
theorem foldlM_take_single_iff (hcodec : codec.IsLocal) (hdepth : 0 < depth)
    (hps : ∀ p ∈ ps, p.IsWhole depth)
    (hread : ∀ p start v, p.key.type = codec.type ∧
      codec.update depth start p.value = .ok (v, []) ↔ reads p v) :
    ps.foldlM ((single codec.blank).take codec depth) codec.blank = .ok a ↔
      Yield reads codec.blank ps a := by
  refine foldlM_eq_ok_iff_yield fun p hp b b' => ?_
  rw [take_eq_ok hcodec hdepth (hps p hp)]
  simp only [single, exists_eq_right, hread]

end Slot

/-! ## Numbers and texts -/

/-- Whether a part holds a number that stands for a value. -/
def Part.IsNumeral {α : Type} (f : Nat → α) (p : Part) (v : α) : Prop :=
  ∃ n, p.IsNumber n ∧ v = f n

theorem Part.isNumeral_iff {α : Type} {codec : Codec α} {f : Nat → α} {depth : Nat} {start v : α}
    {p : Part} (htype : codec.type = .varint)
    (hupdate : ∀ bs, codec.update depth start bs =
      (do let (n, rest) ← takeVarint bs; return (f n, rest))) :
    p.key.type = codec.type ∧ codec.update depth start p.value = .ok (v, []) ↔
      p.IsNumeral f v := by
  rw [htype, hupdate]
  constructor
  · rintro ⟨hkey, h⟩
    obtain ⟨⟨n, rest⟩, hread, h⟩ := bind_eq_ok.mp h
    cases h
    exact ⟨n, ⟨hkey, hread⟩, rfl⟩
  · rintro ⟨n, ⟨hkey, hread⟩, rfl⟩
    exact ⟨hkey, bind_eq_ok.mpr ⟨_, hread, rfl⟩⟩

theorem Part.isText_iff {depth : Nat} {start v : String} {p : Part} :
    p.key.type = Codec.text.type ∧ Codec.text.update depth start p.value = .ok (v, []) ↔
      p.IsText v := by
  refine and_congr_right fun _ => ?_
  rw [Codec.text_update_eq_ok]
  constructor
  · rintro ⟨content, hread, htext⟩
    rwa [← Bytes.ofText_of_text? htext] at hread
  · exact fun hread => ⟨_, hread, Bytes.text?_ofText v⟩

/-! ## Records in fields -/

namespace Slot

variable {α : Type} {T : Schema α} {level depth : Nat} {ps : List Part} {b : Option α}

/-- The rows in parts make one record of a blank one; without parts there is none. -/
theorem foldlM_take_none_iff (hT : T.Lawful level) (hlocal : T.IsLocal) (hdepth : 0 < depth)
    (hmax : depth ≤ Schema.maxDepth) (hps : ∀ p ∈ ps, p.IsWhole (depth + 1)) :
    ps.foldlM (optional.take T.codec (depth + 1)) none = .ok b ↔
      (∀ p ∈ ps, p.key.type = .delimited ∧ p.HasRow depth) ∧
        ((ps = [] ∧ b = none) ∨ (ps ≠ [] ∧
          ∃ x, (ps.flatMap (·.inner)).foldlM (T.take depth) T.blank = .ok x ∧ b = some x)) := by
  cases hrow : ps with
  | nil =>
    have hnone : (pure none : Except Fault (Option α)) = .ok b ↔ b = none :=
      ⟨fun h => (Except.ok.inj h).symm, fun h => h ▸ rfl⟩
    simp [hnone]
  | cons p qs =>
    -- A part that finds no record starts from the blank one.
    have hfirst : optional.take T.codec (depth + 1) none p =
        optional.take T.codec (depth + 1) (some T.blank) p := rfl
    rw [List.foldlM_cons, hfirst, ← List.foldlM_cons, ← hrow,
      foldlM_take_some_iff hT hlocal hdepth hmax hps]
    simp [hrow]

end Slot

end CertRegistry.Wire
