import CertRegistry.Node.Block
import CertRegistry.Proofs.Json.Recognition

/-!
# The heights of blocks

The height of a block is told by its header alone: by the last member for it, as a number in digits
or as a text of digits. Whatever does not spell a number of 64 bits in this way tells no height.
-/

namespace CertRegistry

open Json

/-- Whether the value of a document is a number, or a text that spells one: digits alone in either
case, but for a plus sign before those of a text. -/
inductive Json.Doc.TellsNumber (n : Nat) : Doc → Prop
  | number {cs : List Char} (h : Text.IsDecimal cs n) : TellsNumber n (.number cs)
  | text {spelled : List Spelled} {s : String} (hs : Spelled.string? spelled = some s)
    (h : Text.IsDecimal s.toList n ∨ ∃ digits, s.toList = '+' :: digits ∧
      Text.IsDecimal digits n) : TellsNumber n (.text spelled)

namespace Block

/-- What the header of a block means, where the values in it may nest only so deep. -/
def headerField (depth : Nat) : Json.Field Block :=
  .optional "header" (Doc.value? depth) fun b v => { b with header := v }

def schema (depth : Nat) : Schema Block where
  blank := {}
  fields := [
    .required "header_signature" Doc.text? fun b v => { b with headerSignature := v },
    headerField depth]

theorem isMeant_shape (depth : Nat) : shape.IsMeant depth (schema depth) where
  blank := rfl
  members := .cons (Member.isMeant_required (Reader.understands_text _) _ _)
    (.cons (Member.isMeant_optional (Reader.understands_value _) _ _) .nil)

theorem understands_shape (depth : Nat) :
    Understands (shape.reader (depth + 2)) (schema (depth + 1)).meant :=
  Record.understands (isMeant_shape (depth + 1))

theorem recognizes_shape (depth : Nat) : Recognizes (shape.reader depth) := by
  refine Record.recognizes ?_ depth
  intro m hm
  rcases List.mem_cons.mp hm with rfl | hm
  · exact Member.recognizes_required Reader.recognizes_text _ _
  · obtain rfl := List.mem_singleton.mp hm
    exact Member.recognizes_optional Reader.recognizes_value _ _

/-- Whether this is the header that a document of a block has. A block may be written as a list of
its parts. -/
inductive ShowsHeader (header : Doc) : Doc → Prop
  | member {members : List (List Spelled × Doc)} {key : List Spelled} (h : (key, header) ∈ members)
    (hkey : Spelled.string? key = some "header") : ShowsHeader header (.object members)
  | item (signature : Doc) : ShowsHeader header (.list [signature, header])

/-- Whether this is where a document of a block tells the height: the last member for it in a header
that is an object. -/
def ShowsHeight (d height : Doc) : Prop :=
  ∃ members, ShowsHeader (.object members) d ∧ Doc.lastMember? "block_num" members = some height

theorem header_of_items {depth : Nat} {items : List Doc} {b : Block}
    (h : (schema depth).meant (.list items) = some b) :
    (∀ signature header, items = [signature, header] → header.value? depth = some b.header) ∧
      ((∀ signature header, items ≠ [signature, header]) → b.header = .null) := by
  cases items with
  | nil => cases h
  | cons signature items =>
    obtain ⟨a, ha, h⟩ := Option.bind_eq_some_iff.mp h
    obtain ⟨s, -, rfl⟩ := Option.map_eq_some_iff.mp ha
    cases items with
    | nil =>
      obtain rfl := Option.some.inj h
      exact ⟨nofun, fun _ => rfl⟩
    | cons header items =>
      obtain ⟨a, ha, h⟩ := Option.bind_eq_some_iff.mp h
      obtain ⟨v, hv, rfl⟩ := Option.map_eq_some_iff.mp ha
      cases items with
      | nil =>
        obtain rfl := Option.some.inj h
        refine ⟨fun _ _ heq => ?_, fun hno => absurd rfl (hno signature header)⟩
        cases heq
        exact hv
      | cons extra items => cases h

/-- The header of a block is what is shown for it, and nothing if none is shown. -/
theorem header_of_meant {depth : Nat} {d : Doc} {b : Block} (h : (schema depth).meant d = some b) :
    (∀ header, ShowsHeader header d → header.value? depth = some b.header) ∧
      ((∀ header, ¬ ShowsHeader header d) → b.header = .null) := by
  cases d with
  | object members =>
    have hread : ∀ a d a', (headerField depth).read a d = some a' →
        d.value? depth = some a'.header := by
      intro a d a' ha
      obtain ⟨v, hv, rfl⟩ := Option.map_eq_some_iff.mp ha
      exact hv
    have hother : ∀ g ∈ (schema depth).fields, g.name ≠ (headerField depth).name → ∀ a d a',
        g.read a d = some a' → a'.header = a.header := by
      intro g hg hne a d a' ha
      rcases List.mem_cons.mp hg with rfl | hg
      · obtain ⟨v, -, rfl⟩ := Option.map_eq_some_iff.mp ha
        rfl
      · exact absurd (congrArg Field.name (List.mem_singleton.mp hg)) hne
    obtain ⟨hshown, hnone⟩ := Schema.part_of_members Block.header
      (fun d v => d.value? depth = some v) hread hother rfl h
    refine ⟨?_, fun hno => hnone fun m hm hkey => hno m.2 (.member hm hkey)⟩
    rintro header ⟨hmem, hkey⟩
    exact hshown _ hmem hkey
  | list items =>
    obtain ⟨hshown, hnone⟩ := header_of_items h
    exact ⟨fun header hheader => by cases hheader; exact hshown _ _ rfl,
      fun hno => hnone fun signature header heq => hno header (heq ▸ .item signature)⟩
  | _ => cases h

/-! ## Heights -/

section Tells

variable {b : Block} {v : Value} {n : Nat}

theorem height?_of_text {s : String} (h : b.header.member? "block_num" = some (.text s)) :
    b.height? = Text.natural? UInt64.size s := by
  simp only [height?, h]

theorem height?_of_natural (h : b.header.member? "block_num" = some (.number (.natural n))) :
    b.height? = some n := by
  simp only [height?, h]

theorem height?_of_none (h : b.header.member? "block_num" = none) : b.height? = none := by
  simp only [height?, h]

/-- Other values tell no height. -/
theorem height?_of_other (h : b.header.member? "block_num" = some v)
    (htext : ∀ s, v ≠ .text s) (hnatural : ∀ m, v ≠ .number (.natural m)) : b.height? = none := by
  unfold height?
  rw [h]
  split
  · next heq => exact absurd (Option.some.inj heq) (htext _)
  · next heq => exact absurd (Option.some.inj heq) (hnatural _)
  · rfl

theorem tells_text {spelled : List Spelled} {s : String}
    (h : b.header.member? "block_num" = some (.text s)) (hs : Spelled.string? spelled = some s) :
    b.height? = some n ↔ n < UInt64.size ∧ Doc.TellsNumber n (.text spelled) := by
  rw [height?_of_text h, Text.natural?_eq_some_iff, and_comm]
  refine and_congr_right fun _ => ⟨fun hdigits => .text hs hdigits, ?_⟩
  rintro (_ | ⟨hs', hdigits⟩)
  rw [hs] at hs'
  cases hs'
  exact hdigits

theorem tells_number {cs : List Char} {x : Number} (hcs : IsNumber cs)
    (h : b.header.member? "block_num" = some (.number x)) (hx : Number.ofChars? cs = some x) :
    b.height? = some n ↔ n < UInt64.size ∧ Doc.TellsNumber n (.number cs) := by
  have hnatural : n < UInt64.size ∧ Doc.TellsNumber n (.number cs) ↔ x = .natural n := by
    rw [← Option.some.injEq, ← hx, Number.ofChars?_eq_natural_iff hcs, and_comm]
    refine and_congr_left fun _ => ⟨?_, .number⟩
    rintro ⟨hdecimal⟩
    exact hdecimal
  rw [hnatural]
  cases x with
  | natural m => rw [height?_of_natural h, Option.some.injEq, Number.natural.injEq]
  | negative m =>
    rw [height?_of_other h nofun nofun]
    exact iff_of_false nofun nofun
  | fraction x =>
    rw [height?_of_other h nofun nofun]
    exact iff_of_false nofun nofun

/-- The height is the number that the document of its value tells. -/
theorem tells_of_value? {depth : Nat} {d : Doc} (hd : d.IsWritten)
    (hmeans : d.value? (depth + 1) = some v) (h : b.header.member? "block_num" = some v) :
    b.height? = some n ↔ n < UInt64.size ∧ d.TellsNumber n := by
  cases d with
  | text spelled =>
    obtain ⟨s, hs, rfl⟩ := Option.map_eq_some_iff.mp hmeans
    exact tells_text h hs
  | number cs =>
    obtain ⟨x, hx, rfl⟩ := Option.map_eq_some_iff.mp hmeans
    exact tells_number hd.isNumber h hx
  | null =>
    obtain rfl := Option.some.inj hmeans
    rw [height?_of_other h nofun nofun]
    exact iff_of_false nofun nofun
  | bool t =>
    obtain rfl := Option.some.inj hmeans
    rw [height?_of_other h nofun nofun]
    exact iff_of_false nofun nofun
  | list items =>
    have hlist : ∃ vs, v = .list vs := by
      cases depth with
      | zero => cases hmeans
      | succ depth =>
        obtain ⟨vs, -, rfl⟩ := Option.map_eq_some_iff.mp hmeans
        exact ⟨vs, rfl⟩
    obtain ⟨vs, rfl⟩ := hlist
    rw [height?_of_other h nofun nofun]
    exact iff_of_false nofun nofun
  | object members =>
    have hobject : ∃ vs, v = .object vs := by
      cases depth with
      | zero => cases hmeans
      | succ depth =>
        obtain ⟨vs, -, rfl⟩ := Option.map_eq_some_iff.mp hmeans
        exact ⟨_, rfl⟩
    obtain ⟨vs, rfl⟩ := hobject
    rw [height?_of_other h nofun nofun]
    exact iff_of_false nofun nofun

end Tells

theorem ShowsHeader.isWritten {header d : Doc} (h : ShowsHeader header d) (hd : d.IsWritten) :
    header.IsWritten := by
  cases h with
  | member hmem => exact hd.of_mem_members _ hmem
  | item signature => exact hd.of_mem_items header (by simp)

theorem isWritten_of_lastMember? {name : String} {members : List (List Spelled × Doc)} {d : Doc}
    (h : Doc.lastMember? name members = some d) (hd : (Doc.object members).IsWritten) :
    d.IsWritten := by
  obtain ⟨m, hm, rfl⟩ := Option.map_eq_some_iff.mp h
  exact hd.of_mem_members m (List.mem_reverse.mp (List.mem_of_find?_eq_some hm))

/-- The height of a block is the number that is told where its document shows a height. -/
theorem height?_of_meant {depth : Nat} {d : Doc} {b : Block} (hd : d.IsWritten)
    (h : (schema (depth + 2)).meant d = some b) {n : Nat} :
    b.height? = some n ↔ n < UInt64.size ∧ ∃ height, ShowsHeight d height ∧
      height.TellsNumber n := by
  obtain ⟨hshown, hnone⟩ := header_of_meant h
  constructor
  · intro hheight
    have hsome : b.header.member? "block_num" ≠ none := by
      intro hmissing
      rw [height?_of_none hmissing] at hheight
      cases hheight
    by_cases hheader : ∃ header, ShowsHeader header d
    · obtain ⟨header, hheader⟩ := hheader
      have hmeans := hshown header hheader
      cases header with
      | object members =>
        have hrel := Doc.member?_of_value? hmeans "block_num"
        cases hlast : Doc.lastMember? "block_num" members with
        | none =>
          rw [hlast] at hrel
          generalize b.header.member? "block_num" = v? at hrel hsome
          cases hrel
          exact absurd rfl hsome
        | some height =>
          rw [hlast] at hrel
          generalize hmember : b.header.member? "block_num" = v? at hrel
          cases hrel with
          | some hvalue =>
            have hwritten := isWritten_of_lastMember? hlast (hheader.isWritten hd)
            obtain ⟨hn, htells⟩ := (tells_of_value? hwritten hvalue hmember).mp hheight
            exact ⟨hn, height, ⟨members, hheader, hlast⟩, htells⟩
      | _ => exact absurd (Doc.member?_of_isNoObject hmeans nofun "block_num") hsome
    · have hnull := hnone fun header hh => hheader ⟨header, hh⟩
      rw [hnull] at hsome
      exact absurd rfl hsome
  · rintro ⟨hn, height, ⟨members, hheader, hlast⟩, htells⟩
    have hrel := Doc.member?_of_value? (hshown _ hheader) "block_num"
    rw [hlast] at hrel
    generalize hmember : b.header.member? "block_num" = v? at hrel
    cases hrel with
    | some hvalue =>
      have hwritten := isWritten_of_lastMember? hlast (hheader.isWritten hd)
      exact (tells_of_value? hwritten hvalue hmember).mpr ⟨hn, htells⟩

/-- The height of a block that is read from a text is told by any document of the text: it is the
number of 64 bits that the last member for it in the header tells, in digits or in a text of digits.
If there is none, or it tells no such number, there is no height. -/
theorem height_told {text : String} {b : Block}
    (h : shape.reader.parse text = .ok b) :
    (∃ d : Doc, d.IsOf text) ∧ ∀ d : Doc, d.IsOf text →
      (∀ n, b.height? = some n ↔ n < UInt64.size ∧
        ∃ height, ShowsHeight d height ∧ height.TellsNumber n) ∧
      ∀ n < UInt64.size, ∀ height, ShowsHeight d height →
        (height = .number (toString n).toList ∨ ∃ spelled, height = .text spelled ∧
          Spelled.string? spelled = some (toString n)) → b.height? = some n := by
  refine ⟨Reader.exists_isOf_of_parse (recognizes_shape maxDepth) h, fun d hd => ?_⟩
  have hmeant := (Reader.parse_eq_ok_iff (understands_shape 126) hd).mp h
  have htold := fun n => @height?_of_meant 125 d b hd.isWritten hmeant n
  refine ⟨htold, fun n hn height hheight hrendered => (htold n).mpr ⟨hn, height, hheight, ?_⟩⟩
  rcases hrendered with rfl | ⟨spelled, rfl, hspelled⟩
  · exact .number (Text.isDecimal_toString n)
  · exact .text hspelled (.inl (Text.isDecimal_toString n))

/-- Of two heights the last one counts, also as a text with a sign and zeros before it. -/
theorem height_told_twice :
    let text := "\x7b\"header_signature\":\"s\",\"header\":" ++
      "\x7b\"block_num\":12,\"block_num\":\"+007\"\x7d\x7d"
    ∃ b, shape.reader.parse text = .ok b ∧ b.height? = some 7 ∧
      ∀ d : Doc, d.IsOf text → ∃ height, ShowsHeight d height ∧ height.TellsNumber 7 := by
  intro text
  have hread : ((shape.reader.parse text).toOption.bind height?) = some 7 := by decide +kernel
  obtain ⟨b, hb, hheight⟩ := Option.bind_eq_some_iff.mp hread
  have hparse := toOption_eq_some.mp hb
  obtain ⟨-, htold⟩ := height_told hparse
  exact ⟨b, hparse, hheight, fun d hd => (((htold d hd).1 7).mp hheight).2⟩

end Block

end CertRegistry
