import CertRegistry.Node.Memory
import CertRegistry.Proofs.Bytes.Base64
import CertRegistry.Proofs.Json.Printer
import CertRegistry.Rest.Client

/-!
# Answers of a node are read back

A client reads in an answer what the node put there: the statuses of batches, and the entries of its
state with their octets.
-/

namespace CertRegistry

open Json Rest

theorem StatusKind.lookup_name (kind : StatusKind) :
    (all.map fun k => (k.name, k)).lookup kind.name = some kind := by
  cases kind <;> decide

theorem InvalidTransaction.reads_toJson (t : InvalidTransaction) (depth : Nat) :
    Opens t.toJson.compact.toList ∧
      Reads (shape.reader (depth + 2)) t.toJson.compact.toList t := by
  obtain ⟨id, message, extendedData⟩ := t
  cases extendedData with
  | none =>
    have hobject : toJson ⟨id, message, none⟩ =
        .object [("id", .text id), ("message", .text message)] := by
      simp (disch := decide) only [toJson, Value.record, List.append_nil, List.foldl_cons,
        List.foldl_nil, putMember_nil, putMember_of_gt]
    rw [hobject]
    refine ⟨Value.opens_object _, Value.reads_object ?_⟩
    refine .member rfl (by simp) (Member.reads_required _ _ _ (Reader.reads_text id _)) ?_
    refine .member rfl (by simp) (Member.reads_optional _ _ _ (Reader.reads_text message _)) ?_
    exact .done (by simp [shape, Member.required, Member.optional])
  | some data =>
    have hobject : toJson ⟨id, message, some data⟩ = .object [("extended_data", .text data),
        ("id", .text id), ("message", .text message)] := by
      simp (disch := decide) only [toJson, Value.record, List.cons_append, List.nil_append,
        List.foldl_cons, List.foldl_nil, putMember_nil, putMember_of_lt, putMember_of_gt]
    rw [hobject]
    refine ⟨Value.opens_object _, Value.reads_object ?_⟩
    refine .member rfl (by simp) (Member.reads_optional _ _ _
      (Reader.reads_option (opens_textOf data) (Reader.reads_text data _))) ?_
    refine .member rfl (by simp) (Member.reads_required _ _ _ (Reader.reads_text id _)) ?_
    refine .member rfl (by simp) (Member.reads_optional _ _ _ (Reader.reads_text message _)) ?_
    exact .done (by simp [shape, Member.required, Member.optional])

theorem BatchStatus.reads_toJson (s : BatchStatus) (depth : Nat) :
    Opens s.toJson.compact.toList ∧
      Reads (shape.reader (depth + 4)) s.toJson.compact.toList s := by
  obtain ⟨id, status, transactions⟩ := s
  have hobject : toJson ⟨id, status, transactions⟩ = .object [("id", .text id),
      ("invalid_transactions", .list (transactions.map (·.toJson))),
      ("status", .text status.name)] := by
    simp (disch := decide) only [toJson, Value.record, List.foldl_cons, List.foldl_nil,
      putMember_nil, putMember_of_lt, putMember_of_gt]
  have hlist : Reads (Reader.list InvalidTransaction.shape.reader (depth + 3))
      (Value.list (transactions.map (·.toJson))).compact.toList transactions := by
    refine Value.reads_list (List.forall₂_map_left_iff.mpr (List.forall₂_same.mpr ?_))
    exact fun t _ => t.reads_toJson depth
  rw [hobject]
  refine ⟨Value.opens_object _, Value.reads_object ?_⟩
  refine .member rfl (by simp) (Member.reads_required _ _ _ (Reader.reads_text id _)) ?_
  refine .member rfl (by simp) (Member.reads_optional _ _ _ hlist) ?_
  refine .member rfl (by simp) (Member.reads_required _ _ _
    (Reader.reads_choice _ (StatusKind.lookup_name status))) ?_
  exact .done (by simp [shape, Member.required, Member.optional])

namespace Rest

theorem Receipt.parse_link (link : String) :
    Receipt.shape.reader.parse (Value.record [("link", .text link)]).compact =
      .ok { link } := by
  refine Reader.parse_eq_ok (Value.reads_object ?_)
  refine .member rfl (by simp) (Member.reads_required _ _ _ (Reader.reads_text link _)) ?_
  exact .done (by simp [shape, Member.required])

theorem EncodedEntry.reads_record (address data : String) (depth : Nat) :
    Reads (shape.reader (depth + 2))
      (Value.record [("address", .text address), ("data", .text data)]).compact.toList
      { address, data } := by
  have hobject : Value.record [("address", .text address), ("data", .text data)] =
      .object [("address", .text address), ("data", .text data)] := by
    simp (disch := decide) only [Value.record, List.foldl_cons, List.foldl_nil, putMember_nil,
      putMember_of_gt]
  rw [hobject]
  refine Value.reads_object ?_
  refine .member rfl (by simp) (Member.reads_required _ _ _ (Reader.reads_text address _)) ?_
  refine .member rfl (by simp) (Member.reads_required _ _ _ (Reader.reads_text data _)) ?_
  exact .done (by simp [shape, Member.required])

/-- Statuses come in an envelope without anything else. -/
theorem Envelope.parse_statuses (statuses : List BatchStatus) :
    (Envelope.shape [] (.list BatchStatus.shape.reader)).reader.parse
      (Value.record [("data", .list (statuses.map (·.toJson)))]).compact =
      .ok { data := statuses } := by
  have hlist : Reads (Reader.list BatchStatus.shape.reader (maxDepth - 1))
      (Value.list (statuses.map (·.toJson))).compact.toList statuses := by
    refine Value.reads_list (List.forall₂_map_left_iff.mpr (List.forall₂_same.mpr ?_))
    exact fun s _ => s.reads_toJson _
  refine Reader.parse_eq_ok (Value.reads_object ?_)
  refine .member rfl (by simp) (Member.reads_required _ _ _ hlist) ?_
  exact .done (by simp [shape, Member.required, Member.optional])

/-- A single text comes in an envelope without anything else. -/
theorem Envelope.parse_text (data : String) :
    (Envelope.shape "" .text).reader.parse (Value.record [("data", .text data)]).compact =
      .ok { data } := by
  refine Reader.parse_eq_ok (Value.reads_object ?_)
  refine .member rfl (by simp) (Member.reads_required _ _ _ (Reader.reads_text data _)) ?_
  exact .done (by simp [shape, Member.required, Member.optional])

/-- What is said of where a list goes on, if it does. -/
def Paging.members (paging : Paging) : List (String × Value) :=
  match paging.next with
  | some next => [("next", .text next)]
  | none => []

theorem Paging.reads_record (paging : Paging) (depth : Nat) :
    Reads (shape.reader (depth + 2)) (Value.record paging.members).compact.toList paging := by
  obtain ⟨_ | next⟩ := paging
  · exact Value.reads_object (.done (by simp [shape, Member.optional]))
  · have hobject : Value.record (members { next := some next }) =
        .object [("next", .text next)] := by
      simp only [members, Value.record, List.foldl_cons, List.foldl_nil, putMember_nil]
    rw [hobject]
    refine Value.reads_object ?_
    refine .member rfl (by simp) (Member.reads_optional _ _ _
      (Reader.reads_option (opens_textOf next) (Reader.reads_text next _))) ?_
    exact .done (by simp [shape, Member.optional])

/-- A page with its entries tells where the list goes on. -/
theorem Envelope.parse_page (entries : List EncodedEntry) (paging : Paging) :
    (Envelope.shape [] (.list EncodedEntry.shape.reader)).reader.parse
      (Value.record [("data", .list (entries.map fun entry =>
        .record [("address", .text entry.address), ("data", .text entry.data)])),
        ("paging", .record paging.members)]).compact =
      .ok { data := entries, paging := some paging } := by
  have hobject : ∀ items, Value.record [("data", .list items), ("paging", .record paging.members)] =
      .object [("data", .list items), ("paging", .record paging.members)] := by
    intro items
    simp (disch := decide) only [Value.record, List.foldl_cons, List.foldl_nil, putMember_nil,
      putMember_of_gt]
  have hlist : Reads (Reader.list EncodedEntry.shape.reader (maxDepth - 1))
      (Value.list (entries.map fun entry => .record [("address", .text entry.address),
        ("data", .text entry.data)])).compact.toList entries := by
    refine Value.reads_list ?_
    rw [List.forall₂_map_left_iff, List.forall₂_same]
    intro entry _
    exact ⟨Value.opens_object _, EncodedEntry.reads_record _ _ _⟩
  rw [hobject]
  refine Reader.parse_eq_ok (Value.reads_object ?_)
  refine .member rfl (by simp) (Member.reads_required _ _ _ hlist) ?_
  refine .member rfl (by simp) (Member.reads_optional _ _ _
    (Reader.reads_option (Value.opens_object _) (paging.reads_record _))) ?_
  exact .done (by simp [shape, Member.required, Member.optional])

/-- Entries come in an envelope that leads nowhere. -/
theorem Envelope.parse_entries (entries : List (String × Bytes)) :
    (Envelope.shape [] (.list EncodedEntry.shape.reader)).reader.parse
      (Value.record [("data", .list (entries.map fun (address, data) =>
        .record [("address", .text address), ("data", .text (Base64.encode data))])),
        ("paging", .record [])]).compact =
      .ok { data := entries.map fun (address, data) => { address, data := Base64.encode data }
            paging := some {} } := by
  have hpage := Envelope.parse_page
    (entries.map fun (address, data) => { address, data := Base64.encode data }) {}
  rw [List.map_map] at hpage
  exact hpage

/-- What is stored under an address, as it is sent. -/
def StateEntry.encoded (entry : StateEntry) : EncodedEntry where
  address := entry.address
  data := Base64.encode entry.data

theorem Client.decodeEntry_encoded (entry : StateEntry) :
    decodeEntry entry.encoded = .ok entry := by
  unfold decodeEntry decodeData
  simp only [StateEntry.encoded, Base64.decode_encode]
  rfl

theorem Client.mapM_decodeEntry_encoded (entries : List StateEntry) :
    (entries.map StateEntry.encoded).mapM decodeEntry = .ok entries := by
  induction entries with
  | nil => rfl
  | cons entry entries ih =>
    rw [List.map_cons, List.mapM_cons, decodeEntry_encoded, ih]
    rfl

end Rest

end CertRegistry
