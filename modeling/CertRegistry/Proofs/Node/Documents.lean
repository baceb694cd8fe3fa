import CertRegistry.Proofs.Json.Members
import CertRegistry.Proofs.Json.Recognition
import CertRegistry.Proofs.Node.Answers

/-!
# Documents of batch statuses

What a document says of a batch, without regard to the order of members, to members that nobody asks
for and to the layout. A status is found in what is written for it, whether its members stand in the
order of their declaration or in that of their names.
-/

namespace CertRegistry

open Json

/-! ## Refused transactions -/

namespace InvalidTransaction

/-- What the members of a refused transaction mean. -/
def schema : Schema InvalidTransaction where
  blank := {}
  fields := [
    .required "id" Doc.text? fun t v => { t with id := v },
    .optional "message" Doc.text? fun t v => { t with message := v },
    .optional "extended_data" (Doc.option? Doc.text?) fun t v => { t with extendedData := v }]

theorem isMeant_shape (depth : Nat) : shape.IsMeant (depth + 1) schema :=
  ⟨rfl, .cons (Member.isMeant_required (Reader.understands_text _) _ _)
    (.cons (Member.isMeant_optional (Reader.understands_text _) _ _)
      (.cons (Member.isMeant_optional (Reader.understands_option (Reader.understands_text _)) _ _)
        .nil))⟩

theorem recognizes_shape (depth : Nat) : Recognizes (shape.reader depth) := by
  refine Record.recognizes ?_ depth
  refine List.forall_mem_cons.mpr ⟨Member.recognizes_required Reader.recognizes_text _ _, ?_⟩
  refine List.forall_mem_cons.mpr ⟨Member.recognizes_optional Reader.recognizes_text _ _, ?_⟩
  exact List.forall_mem_singleton.mpr (Member.recognizes_optional
    (fun depth => Reader.recognizes_option (Reader.recognizes_text depth)) _ _)

theorem commutes_schema : schema.Commutes := by
  refine .cons (List.forall_mem_cons.mpr ⟨?_, List.forall_mem_singleton.mpr ?_⟩)
    (.cons (List.forall_mem_singleton.mpr ?_) (List.pairwise_singleton _ _))
  · exact Field.commutes_of_set (fun _ _ => rfl) (fun _ _ => rfl) fun _ _ _ => rfl
  · exact Field.commutes_of_set (fun _ _ => rfl) (fun _ _ => rfl) fun _ _ _ => rfl
  · exact Field.commutes_of_set (fun _ _ => rfl) (fun _ _ => rfl) fun _ _ _ => rfl

/-- Whether two documents of a refused transaction differ at most in the order of members and in
members that nobody asks for. -/
def Alike (d d' : Doc) : Prop := Doc.SameRecord (shape.members.map (·.name)) (fun _ => Eq) d d'

theorem Alike.meant_eq {d d' : Doc} (h : Alike d d') : schema.meant d = schema.meant d' :=
  Schema.meant_congr commutes_schema (fun _ _ _ _ heq _ => by rw [heq]) h

/-- The members in the order of their declaration. -/
def written (t : InvalidTransaction) : List (String × Value) :=
  [("id", .text t.id), ("message", .text t.message)] ++
    match t.extendedData with
    | some data => [("extended_data", .text data)]
    | none => []

theorem apart_written (t : InvalidTransaction) :
    t.written.Pairwise fun m m' => m.1 ≠ m'.1 := by
  obtain ⟨id, message, extendedData⟩ := t
  cases extendedData <;> simp [written]

theorem meant_written (t : InvalidTransaction) :
    schema.meant (Value.object t.written).doc = some t := by
  obtain ⟨id, message, extendedData⟩ := t
  cases extendedData <;>
    simp [written, Value.doc, Value.docMembers, schema, Schema.meant, Schema.ofMembers,
      Spelled.string?_ofText, Field.required, Field.optional, Doc.text?, Doc.option?]

theorem meant_toJson (t : InvalidTransaction) : schema.meant t.toJson.doc = some t :=
  calc schema.meant t.toJson.doc
      = schema.meant (Value.object t.written).doc :=
        Alike.meant_eq (Value.sameRecord_record _ (fun _ _ => rfl) t.apart_written)
    _ = some t := t.meant_written

theorem isPlain_written (t : InvalidTransaction) : ∀ m ∈ t.written, m.2.IsPlain := by
  obtain ⟨id, message, extendedData⟩ := t
  intro m hm
  cases extendedData with
  | none =>
    simp only [written, List.append_nil, List.mem_cons, List.not_mem_nil, or_false] at hm
    rcases hm with rfl | rfl <;> exact .text _
  | some data =>
    simp only [written, List.cons_append, List.nil_append, List.mem_cons, List.not_mem_nil,
      or_false] at hm
    rcases hm with rfl | rfl | rfl <;> exact .text _

theorem isPlain_toJson (t : InvalidTransaction) : t.toJson.IsPlain :=
  Value.isPlain_record t.apart_written t.isPlain_written

end InvalidTransaction

/-! ## Statuses -/

namespace BatchStatus

/-- What the members of a status mean. -/
def schema : Schema BatchStatus where
  blank := {}
  fields := [
    .required "id" Doc.text? fun s v => { s with id := v },
    .required "status" (Doc.choice? (StatusKind.all.map fun kind => (kind.name, kind)))
      fun s v => { s with status := v },
    .optional "invalid_transactions" (Doc.list? InvalidTransaction.schema.meant)
      fun s v => { s with invalidTransactions := v }]

theorem isMeant_shape (depth : Nat) : shape.IsMeant (depth + 3) schema :=
  ⟨rfl, .cons (Member.isMeant_required (Reader.understands_text _) _ _)
    (.cons (Member.isMeant_required (Reader.understands_choice _ (depth + 1)) _ _)
      (.cons (Member.isMeant_optional (Reader.understands_list
        (Record.understands (InvalidTransaction.isMeant_shape depth))) _ _) .nil))⟩

theorem understands_shape (depth : Nat) : Understands (shape.reader (depth + 4)) schema.meant :=
  Record.understands (isMeant_shape depth)

theorem recognizes_shape (depth : Nat) : Recognizes (shape.reader depth) := by
  refine Record.recognizes ?_ depth
  refine List.forall_mem_cons.mpr ⟨Member.recognizes_required Reader.recognizes_text _ _, ?_⟩
  refine List.forall_mem_cons.mpr
    ⟨Member.recognizes_required (Reader.recognizes_choice _) _ _, ?_⟩
  exact List.forall_mem_singleton.mpr (Member.recognizes_optional
    (Reader.recognizes_list InvalidTransaction.recognizes_shape) _ _)

theorem commutes_schema : schema.Commutes := by
  refine .cons (List.forall_mem_cons.mpr ⟨?_, List.forall_mem_singleton.mpr ?_⟩)
    (.cons (List.forall_mem_singleton.mpr ?_) (List.pairwise_singleton _ _))
  · exact Field.commutes_of_set (fun _ _ => rfl) (fun _ _ => rfl) fun _ _ _ => rfl
  · exact Field.commutes_of_set (fun _ _ => rfl) (fun _ _ => rfl) fun _ _ _ => rfl
  · exact Field.commutes_of_set (fun _ _ => rfl) (fun _ _ => rfl) fun _ _ _ => rfl

/-- Whether two documents of a status differ at most in the order of members and in members that
nobody asks for, in the status itself and in its refused transactions. -/
def Alike (d d' : Doc) : Prop :=
  Doc.SameRecord (shape.members.map (·.name)) (fun name d d' => d = d' ∨
    name = "invalid_transactions" ∧ Doc.SameItems InvalidTransaction.Alike d d') d d'

theorem Alike.meant_eq {d d' : Doc} (h : Alike d d') : schema.meant d = schema.meant d' := by
  refine Schema.meant_congr commutes_schema (fun f hf d d' halike s => ?_) h
  rcases halike with rfl | ⟨hname, hsame⟩
  · rfl
  · have hlist := hsame.list?_eq fun _ _ => InvalidTransaction.Alike.meant_eq
    rcases List.mem_cons.mp hf with rfl | hf
    · exact absurd hname (by decide)
    rcases List.mem_cons.mp hf with rfl | hf
    · exact absurd hname (by decide)
    · obtain rfl := List.mem_singleton.mp hf
      exact congrArg (Option.map _) hlist

/-- Two texts of a status hold the same if they differ at most in blanks, in the order of members
and in members that nobody asks for. -/
theorem parse_iff_of_alike {d d' : Doc} {text text' : String} (h : d.IsOf text)
    (h' : d'.IsOf text') (halike : Alike d d') (s : BatchStatus) :
    shape.reader.parse text = .ok s ↔ shape.reader.parse text' = .ok s := by
  rw [Reader.parse_eq_ok_iff (understands_shape 124) h,
    Reader.parse_eq_ok_iff (understands_shape 124) h', halike.meant_eq]

/-- The members in the order of their declaration, with the refused transactions in some form. -/
def written (transaction : InvalidTransaction → Value) (s : BatchStatus) : List (String × Value) :=
  [("id", .text s.id), ("status", .text s.status.name),
    ("invalid_transactions", .list (s.invalidTransactions.map transaction))]

theorem meant_written {transaction : InvalidTransaction → Value}
    (h : ∀ t, InvalidTransaction.schema.meant (transaction t).doc = some t) (s : BatchStatus) :
    schema.meant (Value.object (s.written transaction)).doc = some s := by
  obtain ⟨id, status, transactions⟩ := s
  have hlist := Doc.list?_of_forall h transactions
  have hkind := StatusKind.lookup_name status
  simp only [written, Value.doc, Value.docMembers, schema, Schema.meant,
    Schema.ofMembers] at hlist ⊢
  simp [Spelled.string?_ofText, Field.required, Field.optional, Doc.text?, Doc.choice?, hlist,
    hkind]

theorem meant_toJson (s : BatchStatus) : schema.meant s.toJson.doc = some s :=
  calc schema.meant s.toJson.doc
      = schema.meant (Value.object (s.written (·.toJson))).doc :=
        Alike.meant_eq (Value.sameRecord_record _ (fun _ _ => .inl rfl) (by simp))
    _ = some s := meant_written InvalidTransaction.meant_toJson s

theorem isPlain_written {transaction : InvalidTransaction → Value}
    (h : ∀ t, (transaction t).IsPlain) (s : BatchStatus) :
    ∀ m ∈ s.written transaction, m.2.IsPlain := by
  intro m hm
  simp only [written, List.mem_cons, List.not_mem_nil, or_false] at hm
  rcases hm with rfl | rfl | rfl
  · exact .text _
  · exact .text _
  · exact .list (List.forall_mem_map.mpr fun t _ => h t)

theorem isPlain_toJson (s : BatchStatus) : s.toJson.IsPlain :=
  Value.isPlain_record (by simp) (isPlain_written InvalidTransaction.isPlain_toJson s)

/-! ## Lists of statuses -/

/-- Statuses are read back from whatever is written for them by their members. -/
theorem parse_list {write : BatchStatus → Value} (h : ∀ s, schema.meant (write s).doc = some s)
    {statuses : List BatchStatus} {text : String}
    (htext : (Value.list (statuses.map write)).doc.IsOf text) :
    (Reader.list shape.reader).parse text = .ok statuses :=
  (Reader.parse_eq_ok_iff (Reader.understands_list (understands_shape 123)) htext).mpr
    (Doc.list?_of_forall h statuses)

end BatchStatus

end CertRegistry
