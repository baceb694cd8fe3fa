import CertRegistry.Proofs.Node.Blocks
import CertRegistry.Proofs.Node.Documents

/-!
# What the bodies of answers mean

A body means what a document of it means: the data in its envelope, the receipt for batches, or what
a refusal says. A text that is no JSON, or JSON of another shape, means nothing.
-/

namespace CertRegistry.Rest

open Json

variable {α : Type} {f : Doc → Option α} {blank : α}

/-! ## Envelopes -/

/-- What is said of where a list goes on. -/
def Paging.schema : Schema Paging where
  blank := {}
  fields := [.optional "next" (Doc.option? Doc.text?) fun p v => { p with next := v }]

theorem Paging.understands_shape (depth : Nat) :
    Understands (shape.reader (depth + 2)) schema.meant :=
  Record.understands ⟨rfl, .cons (Member.isMeant_optional
    (Reader.understands_option (Reader.understands_text _)) _ _) .nil⟩

theorem Paging.recognizes_shape (depth : Nat) : Recognizes (shape.reader depth) :=
  Record.recognizes (List.forall_mem_singleton.mpr (Member.recognizes_optional
    (fun depth => Reader.recognizes_option (Reader.recognizes_text depth)) _ _)) depth

namespace Envelope

/-- What the data in an envelope means. -/
def dataField (f : Doc → Option α) : Json.Field (Envelope α) :=
  .required "data" f fun e v => { e with data := v }

/-- What an envelope means, by the meaning of the data in it. -/
def schema (blank : α) (f : Doc → Option α) : Schema (Envelope α) where
  blank := { data := blank }
  fields := [
    dataField f,
    .optional "link" (Doc.option? Doc.text?) fun e v => { e with link := v },
    .optional "paging" (Doc.option? Paging.schema.meant) fun e v => { e with paging := v }]

theorem understands_shape {reader : Reader α} {depth : Nat}
    (h : Understands (reader (depth + 2)) f) :
    Understands ((shape blank reader).reader (depth + 3)) (schema blank f).meant :=
  Record.understands ⟨rfl, .cons (Member.isMeant_required h _ _)
    (.cons (Member.isMeant_optional (Reader.understands_option (Reader.understands_text _)) _ _)
      (.cons (Member.isMeant_optional
        (Reader.understands_option (Paging.understands_shape depth)) _ _) .nil))⟩

theorem recognizes_shape {reader : Reader α} (h : ∀ depth, Recognizes (reader depth))
    (depth : Nat) : Recognizes ((shape blank reader).reader depth) := by
  refine Record.recognizes ?_ depth
  refine List.forall_mem_cons.mpr ⟨Member.recognizes_required h _ _, ?_⟩
  refine List.forall_mem_cons.mpr ⟨Member.recognizes_optional
    (fun depth => Reader.recognizes_option (Reader.recognizes_text depth)) _ _, ?_⟩
  exact List.forall_mem_singleton.mpr (Member.recognizes_optional
    (fun depth => Reader.recognizes_option (Paging.recognizes_shape depth)) _ _)

theorem isMeant_shape {reader : Reader α} (h : ∀ depth, Recognizes (reader depth))
    (h' : Understands (reader 127) f) :
    (shape blank reader).reader.IsMeant (schema blank f).meant :=
  ⟨recognizes_shape h _, understands_shape h'⟩

/-- Whether this is the data that a document of an envelope has. An envelope may be written as a
list of its parts. -/
inductive ShowsData (data : Doc) : Doc → Prop
  | member {members : List (List Spelled × Doc)} {key : List Spelled} (h : (key, data) ∈ members)
    (hkey : Spelled.string? key = some "data") : ShowsData data (.object members)
  | item (more : List Doc) : ShowsData data (.list (data :: more))

theorem data_of_ofItems {fields : List (Json.Field (Envelope α))}
    (hfields : ∀ g ∈ fields, ∀ e d e', g.read e d = some e' → e'.data = e.data) {items : List Doc}
    {e e' : Envelope α} (h : Schema.ofItems fields e items = some e') : e'.data = e.data := by
  induction fields generalizing items e with
  | nil =>
    cases items with
    | nil => rw [Option.some.inj h]
    | cons d items => cases h
  | cons g fields ih =>
    obtain ⟨hg, hmore⟩ := List.forall_mem_cons.mp hfields
    cases items with
    | nil =>
      rw [Schema.ofItems] at h
      split at h
      · cases h
      · rw [Option.some.inj h]
    | cons d items =>
      obtain ⟨e₁, he₁, h⟩ := Option.bind_eq_some_iff.mp h
      exact (ih hmore h).trans (hg e d e₁ he₁)

/-- An envelope that is understood shows its data: none of it is made up. -/
theorem exists_data_of_meant {d : Doc} {e : Envelope α} (h : (schema blank f).meant d = some e) :
    ∃ data, ShowsData data d ∧ f data = some e.data := by
  have hread : ∀ e d e', (dataField f).read e d = some e' → f d = some e'.data := by
    intro e d e' he
    obtain ⟨v, hv, rfl⟩ := Option.map_eq_some_iff.mp he
    exact hv
  have hother : ∀ g ∈ (schema blank f).fields.tail, ∀ e d e', g.read e d = some e' →
      e'.data = e.data := by
    intro g hg e d e' he
    rcases List.mem_cons.mp hg with rfl | hg
    · obtain ⟨v, -, rfl⟩ := Option.map_eq_some_iff.mp he
      rfl
    · obtain rfl := List.mem_singleton.mp hg
      obtain ⟨v, -, rfl⟩ := Option.map_eq_some_iff.mp he
      rfl
  cases d with
  | object members =>
    have hapart : ∀ g ∈ (schema blank f).fields, g.name ≠ (dataField f).name → ∀ e d e',
        g.read e d = some e' → e'.data = e.data := by
      intro g hg hne
      rcases List.mem_cons.mp hg with rfl | hg
      · exact absurd rfl hne
      · exact hother g hg
    obtain ⟨hshown, -⟩ := Schema.part_of_members Envelope.data (fun d v => f d = some v) hread
      hapart rfl h
    rcases Schema.exists_of_mandatory List.mem_cons_self rfl h with hseen | ⟨m, hm, hkey⟩
    · cases hseen
    · exact ⟨m.2, .member hm hkey, hshown m hm hkey⟩
  | list items =>
    cases items with
    | nil => cases h
    | cons data more =>
      obtain ⟨e₁, he₁, h⟩ := Option.bind_eq_some_iff.mp h
      exact ⟨data, .item more, by rw [data_of_ofItems hother h]; exact hread _ _ _ he₁⟩
  | _ => cases h

end Envelope

/-! ## Data -/

/-- What an entry of the state means, with its data as it is sent. -/
def EncodedEntry.schema : Schema EncodedEntry where
  blank := {}
  fields := [
    .required "address" Doc.text? fun e v => { e with address := v },
    .required "data" Doc.text? fun e v => { e with data := v }]

theorem EncodedEntry.understands_shape (depth : Nat) :
    Understands (shape.reader (depth + 2)) schema.meant :=
  Record.understands ⟨rfl, .cons (Member.isMeant_required (Reader.understands_text _) _ _)
    (.cons (Member.isMeant_required (Reader.understands_text _) _ _) .nil)⟩

theorem EncodedEntry.recognizes_shape (depth : Nat) : Recognizes (shape.reader depth) := by
  refine Record.recognizes ?_ depth
  refine List.forall_mem_cons.mpr ⟨Member.recognizes_required Reader.recognizes_text _ _, ?_⟩
  exact List.forall_mem_singleton.mpr (Member.recognizes_required Reader.recognizes_text _ _)

/-- What the receipt for batches means. -/
def Receipt.schema : Schema Receipt where
  blank := {}
  fields := [.required "link" Doc.text? fun r v => { r with link := v }]

theorem Receipt.understands_shape (depth : Nat) :
    Understands (shape.reader (depth + 2)) schema.meant :=
  Record.understands ⟨rfl, .cons (Member.isMeant_required (Reader.understands_text _) _ _) .nil⟩

theorem Receipt.isMeant_shape : shape.reader.IsMeant schema.meant where
  recognizes := Record.recognizes (List.forall_mem_singleton.mpr
    (Member.recognizes_required Reader.recognizes_text _ _)) _
  understands := understands_shape 126

/-- What an answer with the statuses of batches means. -/
abbrev statusesSchema : Schema (Envelope (List BatchStatus)) :=
  Envelope.schema [] (Doc.list? BatchStatus.schema.meant)

/-- What an answer with entries of the state means. -/
abbrev pageSchema : Schema (Envelope (List EncodedEntry)) :=
  Envelope.schema [] (Doc.list? EncodedEntry.schema.meant)

/-- What an answer with the data at an address means. -/
abbrev storedSchema : Schema (Envelope String) := Envelope.schema "" Doc.text?

/-- What an answer with blocks means. Their headers stand in a list in an envelope, which leaves
that much less room for what is nested in them. -/
abbrev blocksSchema : Schema (Envelope (List Block)) :=
  Envelope.schema [] (Doc.list? (Block.schema 125).meant)

theorem isMeant_statuses :
    (Envelope.shape [] (.list BatchStatus.shape.reader)).reader.IsMeant statusesSchema.meant :=
  Envelope.isMeant_shape (Reader.recognizes_list BatchStatus.recognizes_shape)
    (Reader.understands_list (BatchStatus.understands_shape 122))

theorem isMeant_page :
    (Envelope.shape [] (.list EncodedEntry.shape.reader)).reader.IsMeant pageSchema.meant :=
  Envelope.isMeant_shape (Reader.recognizes_list EncodedEntry.recognizes_shape)
    (Reader.understands_list (EncodedEntry.understands_shape 124))

theorem isMeant_stored : (Envelope.shape "" .text).reader.IsMeant storedSchema.meant :=
  Envelope.isMeant_shape Reader.recognizes_text (Reader.understands_text _)

theorem isMeant_blocks :
    (Envelope.shape [] (.list Block.shape.reader)).reader.IsMeant blocksSchema.meant :=
  Envelope.isMeant_shape (Reader.recognizes_list Block.recognizes_shape)
    (Reader.understands_list (Block.understands_shape 124))

/-! ## Refusals -/

/-- What the title and the message of a refusal mean. -/
def Refusal.schema : Schema Refusal where
  blank := {}
  fields := [
    .optional "title" (Doc.option? Doc.text?) fun r v => { r with title := v },
    .optional "message" (Doc.option? Doc.text?) fun r v => { r with message := v }]

def RefusalEnvelope.schema : Schema RefusalEnvelope where
  blank := {}
  fields := [.required "error" Refusal.schema.meant fun e v => { e with error := v }]

theorem Refusal.understands_shape (depth : Nat) :
    Understands (shape.reader (depth + 2)) schema.meant :=
  Record.understands ⟨rfl, .cons (Member.isMeant_optional
    (Reader.understands_option (Reader.understands_text _)) _ _) (.cons
      (Member.isMeant_optional (Reader.understands_option (Reader.understands_text _)) _ _) .nil)⟩

theorem Refusal.recognizes_shape (depth : Nat) : Recognizes (shape.reader depth) := by
  refine Record.recognizes ?_ depth
  refine List.forall_mem_cons.mpr ⟨Member.recognizes_optional
    (fun depth => Reader.recognizes_option (Reader.recognizes_text depth)) _ _, ?_⟩
  exact List.forall_mem_singleton.mpr (Member.recognizes_optional
    (fun depth => Reader.recognizes_option (Reader.recognizes_text depth)) _ _)

theorem RefusalEnvelope.understands_shape (depth : Nat) :
    Understands (shape.reader (depth + 3)) schema.meant :=
  Record.understands ⟨rfl, .cons
    (Member.isMeant_required (Refusal.understands_shape depth) _ _) .nil⟩

theorem RefusalEnvelope.isMeant_shape : shape.reader.IsMeant schema.meant where
  recognizes := Record.recognizes (List.forall_mem_singleton.mpr
    (Member.recognizes_required Refusal.recognizes_shape _ _)) _
  understands := understands_shape 125

/-- Which text a refusal has, by its body: the message, or the title if there is no message, or else
the whole body. -/
inductive SaidBy (body : String) : String → Prop
  | message {refusal : Refusal} {text : String}
    (h : Holds (fun d => RefusalEnvelope.schema.meant d = some ⟨refusal⟩) body)
    (hmessage : refusal.message = some text) : SaidBy body text
  | title {refusal : Refusal} {text : String}
    (h : Holds (fun d => RefusalEnvelope.schema.meant d = some ⟨refusal⟩) body)
    (hmessage : refusal.message = none) (htitle : refusal.title = some text) : SaidBy body text
  | silent {refusal : Refusal}
    (h : Holds (fun d => RefusalEnvelope.schema.meant d = some ⟨refusal⟩) body)
    (hmessage : refusal.message = none) (htitle : refusal.title = none) : SaidBy body body
  | other (h : ∀ d : Doc, d.IsOf body → RefusalEnvelope.schema.meant d = none) : SaidBy body body

theorem saidBy_refusalText (body : String) : SaidBy body (refusalText body) := by
  unfold refusalText
  cases hparse : RefusalEnvelope.shape.reader.parse body with
  | error fault => exact .other fun d hd => RefusalEnvelope.isMeant_shape.eq_none hparse hd
  | ok envelope =>
    obtain ⟨refusal⟩ := envelope
    have hholds := RefusalEnvelope.isMeant_shape.holds hparse
    obtain ⟨title, message⟩ := refusal
    cases message with
    | some text => exact .message hholds rfl
    | none =>
      cases title with
      | some text => exact .title hholds rfl rfl
      | none => exact .silent hholds rfl rfl

theorem refusalText_of_holds {body : String} {refusal : Refusal}
    (h : Holds (fun d => RefusalEnvelope.schema.meant d = some ⟨refusal⟩) body) :
    refusalText body = ((refusal.message).or refusal.title).getD body := by
  obtain ⟨⟨d, hd⟩, hall⟩ := h
  have hparse := (Reader.parse_eq_ok_iff RefusalEnvelope.isMeant_shape.understands hd).mpr
    (hall d hd)
  simp only [refusalText, hparse]

/-- A refusal has no second text. -/
theorem SaidBy.eq_refusalText {body text : String} (h : SaidBy body text) :
    text = refusalText body := by
  cases h with
  | message h hmessage =>
    rw [refusalText_of_holds h, hmessage]
    rfl
  | title h hmessage htitle =>
    rw [refusalText_of_holds h, hmessage, htitle]
    rfl
  | silent h hmessage htitle =>
    rw [refusalText_of_holds h, hmessage, htitle]
    rfl
  | other h =>
    unfold refusalText
    cases hparse : RefusalEnvelope.shape.reader.parse body with
    | error fault => rfl
    | ok envelope =>
      obtain ⟨⟨d, hd⟩, hall⟩ := RefusalEnvelope.isMeant_shape.holds hparse
      exact nomatch (hall d hd).symm.trans (h d hd)

end CertRegistry.Rest
