import CertRegistry.Proofs.Registry.Registrations
import CertRegistry.Proofs.Wire.Cumulation
import CertRegistry.Proofs.Wire.Values

/-!
# Payloads that ask for an action

A payload is a row of fields that gives the number of an action and may say which agent to create.
Which octets are one, and what they say, is told here from the parts of the row. What is decoded
from octets is decided by that alone.
-/

namespace CertRegistry

open Wire Wire.Codec Wire.Field

/-! ## What octets say -/

/-- Whether a row of fields describes an agent to create. -/
structure CreateAgentAction.IsTold (ps : List Part) (details : CreateAgentAction) : Prop where
  name : Yield Part.IsText "" (partsOf 1 ps) details.name
  timestamp : Yield (Part.IsNumeral UInt64.ofNat) 0 (partsOf 2 ps) details.timestamp

namespace RegistryPayload

/-- Whether a row of fields is a payload. The agent, if anything is said of it, is what all rows
under its tag say together. -/
structure IsTold (ps : List Part) (payload : RegistryPayload) : Prop where
  whole : ∀ p ∈ ps, p.IsWhole Schema.maxDepth
  action : Yield (Part.IsNumeral Int32.ofNat) 0 (partsOf 1 ps) payload.action
  rows : ∀ p ∈ partsOf 2 ps, p.key.type = .delimited ∧ p.HasRow (Schema.maxDepth - 1)
  details : (partsOf 2 ps = [] ∧ payload.createAgent = none) ∨ (partsOf 2 ps ≠ [] ∧
    ∃ details, CreateAgentAction.IsTold (partsWithin 2 ps) details ∧
      payload.createAgent = some details)

/-- Whether octets say a payload. -/
def IsSpelled (bs : Bytes) (payload : RegistryPayload) : Prop :=
  ∃ ps, bs = octetsOf ps ∧ IsTold ps payload

/-- Whether octets are a row of whole fields of which those with a known tag have the type that
belongs to it, and texts are texts. -/
def IsWellFormed (bs : Bytes) : Prop :=
  ∃ ps, bs = octetsOf ps ∧ (∀ p ∈ ps, p.IsWhole Schema.maxDepth) ∧
    (∀ p ∈ partsOf 1 ps, ∃ n, p.IsNumber n) ∧
    ∀ p ∈ partsOf 2 ps, p.key.type = .delimited ∧ p.HasRow (Schema.maxDepth - 1) ∧
      (∀ q ∈ partsOf 1 p.inner, ∃ s, q.IsText s) ∧ ∀ q ∈ partsOf 2 p.inner, ∃ n, q.IsNumber n

end RegistryPayload

section Rows

variable {ps : List Part}

theorem exists_isNumeral {α : Type} {f : Nat → α} {p : Part} :
    (∃ v, p.IsNumeral f v) ↔ ∃ n, p.IsNumber n :=
  ⟨fun ⟨_, n, h, _⟩ => ⟨n, h⟩, fun ⟨n, h⟩ => ⟨f n, n, h, rfl⟩⟩

/-- The parts with a tag in the rows under another one. -/
theorem forall_mem_partsOf_partsWithin {P : Part → Prop} {tag inner : Nat} :
    (∀ q ∈ partsOf inner (partsWithin tag ps), P q) ↔
      ∀ p ∈ partsOf tag ps, ∀ q ∈ partsOf inner p.inner, P q := by
  simp only [partsWithin, partsOf, List.mem_filter, List.mem_flatMap]
  constructor
  · intro h p hp q hq
    exact h q ⟨⟨p, hp, hq.1⟩, hq.2⟩
  · rintro h q ⟨⟨p, hp, hq⟩, htag⟩
    exact h p hp q ⟨hq, htag⟩

theorem CreateAgentAction.isApart_schema : CreateAgentAction.schema.IsApart := by
  simp [Schema.IsApart, CreateAgentAction.schema, single]

theorem RegistryPayload.isApart_schema : RegistryPayload.schema.IsApart := by
  simp [Schema.IsApart, RegistryPayload.schema, single, Field.optional]

theorem CreateAgentAction.foldlM_take_iff_isTold {depth : Nat} (hdepth : 0 < depth)
    (hps : ∀ p ∈ ps, p.IsWhole depth) {details : CreateAgentAction} :
    ps.foldlM (CreateAgentAction.schema.take depth) CreateAgentAction.schema.blank = .ok details ↔
      IsTold ps details := by
  have hwhole : ∀ tag, ∀ p ∈ partsOf tag ps, p.IsWhole depth :=
    fun _ p hp => hps p (List.mem_filter.mp hp).1
  have hname := Slot.foldlM_take_single_iff (a := details.name) isLocal_text hdepth (hwhole 1)
    fun _ _ _ => Part.isText_iff
  have htimestamp := Slot.foldlM_take_single_iff (a := details.timestamp) isLocal_uint64 hdepth
    (hwhole 2) fun _ _ _ => Part.isNumeral_iff (f := UInt64.ofNat) rfl fun _ => rfl
  rw [Schema.foldlM_take_iff lawful_schema isApart_schema]
  simp only [schema, List.forall_mem_cons]
  constructor
  · rintro ⟨h, h', -⟩
    exact ⟨hname.mp h, htimestamp.mp h'⟩
  · rintro ⟨h, h'⟩
    exact ⟨hname.mpr h, htimestamp.mpr h', List.forall_mem_nil _⟩

theorem RegistryPayload.foldlM_take_iff_isTold (hps : ∀ p ∈ ps, p.IsWhole Schema.maxDepth)
    {payload : RegistryPayload} :
    ps.foldlM (RegistryPayload.schema.take Schema.maxDepth) RegistryPayload.schema.blank =
      .ok payload ↔ IsTold ps payload := by
  have hwhole : ∀ tag, ∀ p ∈ partsOf tag ps, p.IsWhole Schema.maxDepth :=
    fun _ p hp => hps p (List.mem_filter.mp hp).1
  have haction := Slot.foldlM_take_single_iff (a := payload.action) isLocal_int32 (by decide)
    (hwhole 1) fun _ _ _ => Part.isNumeral_iff (f := Int32.ofNat) rfl fun _ => rfl
  have hdetails := Slot.foldlM_take_none_iff (b := payload.createAgent)
    CreateAgentAction.lawful_schema CreateAgentAction.isLocal_schema (show 0 < 99 by decide)
    (by decide) (hwhole 2)
  have hinner : (∀ p ∈ partsOf 2 ps, p.key.type = .delimited ∧ p.HasRow 99) →
      ∀ {details}, (partsWithin 2 ps).foldlM (CreateAgentAction.schema.take 99)
        CreateAgentAction.schema.blank = .ok details ↔
          CreateAgentAction.IsTold (partsWithin 2 ps) details := by
    intro hrows details
    refine CreateAgentAction.foldlM_take_iff_isTold (by decide) fun q hq => ?_
    obtain ⟨p, hp, hq⟩ := List.mem_flatMap.mp hq
    exact (hrows p hp).2.2.2 q hq
  rw [Schema.foldlM_take_iff lawful_schema isApart_schema]
  simp only [schema, List.forall_mem_cons]
  constructor
  · rintro ⟨h, h', -⟩
    obtain ⟨hrows, hrest⟩ := hdetails.mp h'
    refine ⟨hps, haction.mp h, hrows, hrest.imp_right ?_⟩
    rintro ⟨hne, details, hfold, heq⟩
    exact ⟨hne, details, (hinner hrows).mp hfold, heq⟩
  · rintro ⟨-, h, hrows, hrest⟩
    refine ⟨haction.mpr h, hdetails.mpr ⟨hrows, hrest.imp_right ?_⟩, List.forall_mem_nil _⟩
    rintro ⟨hne, details, htold, heq⟩
    exact ⟨hne, details, (hinner hrows).mpr htold, heq⟩

end Rows

namespace RegistryPayload

variable {bs : Bytes}

/-- What is decoded is what the octets say. -/
theorem decode_eq_ok_iff_isSpelled {payload : RegistryPayload} :
    schema.decode bs = .ok payload ↔ IsSpelled bs payload := by
  rw [Schema.decode_eq_ok lawful_schema isLocal_schema]
  simp only [parts_eq_ok, IsSpelled, and_assoc]
  constructor
  · rintro ⟨ps, hbs, hwhole, hfold⟩
    exact ⟨ps, hbs, (foldlM_take_iff_isTold hwhole).mp hfold⟩
  · rintro ⟨ps, hbs, htold⟩
    exact ⟨ps, hbs, htold.whole, (foldlM_take_iff_isTold htold.whole).mpr htold⟩

/-- Well-formed octets say a payload. -/
theorem isWellFormed_iff_exists_isSpelled :
    IsWellFormed bs ↔ ∃ payload, IsSpelled bs payload := by
  constructor
  · rintro ⟨ps, hbs, hwhole, hnumbers, hrows⟩
    obtain ⟨action, haction⟩ := exists_yield.mpr fun p hp => exists_isNumeral.mpr (hnumbers p hp)
    have hnames : ∀ q ∈ partsOf 1 (partsWithin 2 ps), ∃ s, q.IsText s :=
      forall_mem_partsOf_partsWithin.mpr fun p hp => (hrows p hp).2.2.1
    have htimestamps : ∀ q ∈ partsOf 2 (partsWithin 2 ps), ∃ n, q.IsNumber n :=
      forall_mem_partsOf_partsWithin.mpr fun p hp => (hrows p hp).2.2.2
    obtain ⟨name, hname⟩ := exists_yield.mpr hnames
    obtain ⟨timestamp, htimestamp⟩ :=
      exists_yield.mpr fun q hq => exists_isNumeral.mpr (htimestamps q hq)
    have hrow : ∀ p ∈ partsOf 2 ps, p.key.type = .delimited ∧ p.HasRow (Schema.maxDepth - 1) :=
      fun p hp => ⟨(hrows p hp).1, (hrows p hp).2.1⟩
    by_cases hnone : partsOf 2 ps = []
    · exact ⟨⟨action, none⟩, ps, hbs, hwhole, haction, hrow, .inl ⟨hnone, rfl⟩⟩
    · exact ⟨⟨action, some ⟨name, timestamp⟩⟩, ps, hbs, hwhole, haction, hrow,
        .inr ⟨hnone, _, ⟨hname, htimestamp⟩, rfl⟩⟩
  · rintro ⟨payload, ps, hbs, hwhole, haction, hrows, hdetails⟩
    refine ⟨ps, hbs, hwhole, fun p hp => exists_isNumeral.mp (haction.each p hp), fun p hp => ?_⟩
    rcases hdetails with ⟨hnone, -⟩ | ⟨-, details, htold, -⟩
    · rw [hnone] at hp
      cases hp
    · have hnames := forall_mem_partsOf_partsWithin.mp htold.name.each
      have htimestamps := forall_mem_partsOf_partsWithin.mp htold.timestamp.each
      exact ⟨(hrows p hp).1, (hrows p hp).2, hnames p hp,
        fun q hq => exists_isNumeral.mp (htimestamps p hp q hq)⟩

end RegistryPayload

/-! ## Actions -/

namespace ActionKind

theorem ofNumber?_eq_some_iff {n : Int32} {kind : ActionKind} :
    ofNumber? n = some kind ↔ n = kind.number := by
  refine ⟨fun h => ?_, fun h => h ▸ ofNumber?_number kind⟩
  simpa [eq_comm] using List.find?_some h

/-- The numbers of actions are those from zero to ten. -/
theorem exists_number_iff {n : Int32} :
    (∃ kind : ActionKind, n = kind.number) ↔ 0 ≤ n ∧ n ≤ 10 := by
  simp only [Int32.le_iff_toInt_le]
  constructor
  · rintro ⟨kind, rfl⟩
    cases kind <;> decide
  · rintro ⟨hlow, hhigh⟩
    have hnonneg : 0 ≤ n.toInt := hlow
    have hle : n.toInt ≤ 10 := hhigh
    have hnumbers : all.map (·.number.toInt) = [0, 1, 2, 3, 4, 5, 6, 7, 8, 9, 10] := by decide
    have hcases : n.toInt ∈ all.map (·.number.toInt) := by
      rw [hnumbers]
      simp only [List.mem_cons]
      omega
    obtain ⟨kind, -, hkind⟩ := List.mem_map.mp hcases
    exact ⟨kind, Int32.toInt_inj.mp hkind.symm⟩

theorem mem_all (kind : ActionKind) : kind ∈ all := by cases kind <;> decide

theorem name_injective : Function.Injective name := by
  have hnodup : (all.map name).Nodup := by decide
  intro kind other h
  exact List.inj_on_of_nodup_map hnodup (mem_all kind) (mem_all other) h

/-- An action is told by its name as well as by its number. -/
theorem name_eq_iff {kind other : ActionKind} :
    kind.name = other.name ↔ kind.number = other.number := by
  constructor
  · intro h
    rw [name_injective h]
  · intro h
    have hkind := ofNumber?_number kind
    rw [h, ofNumber?_number other] at hkind
    rw [Option.some.inj hkind]

end ActionKind

namespace Action

/-- An action with an empty name taken for none. -/
def plain : Action → Action
  | createAgent name timestamp => .createAgent (name.filter (· ≠ "")) timestamp

/-- What a payload asks for. -/
inductive IsAsked (payload : RegistryPayload) : Except Rejection Action → Prop
  | creation (h : payload.action = 1) : IsAsked payload
      (.ok (plain (.createAgent (payload.createAgent.map (·.name))
        ((payload.createAgent.map (·.timestamp)).getD 0))))
  | unsupported {kind : ActionKind} (h : payload.action = kind.number)
    (hkind : kind ≠ .createAgent) : IsAsked payload (.error (.unsupported kind))
  | unknown (h : payload.action < 0 ∨ 10 < payload.action) :
    IsAsked payload (.error (.unknown payload.action))

variable {bs : Bytes}

theorem plain_createAgent (name : Option String) (timestamp : UInt64) :
    plain (.createAgent name timestamp) =
      .createAgent (if name.getD "" = "" then none else some (name.getD "")) timestamp := by
  cases name with
  | none => rfl
  | some name => by_cases h : name = "" <;> simp [plain, Option.filter_some, h]

/-- Absent and empty names are written alike. -/
theorem encode_plain (action : Action) : action.plain.encode = action.encode := by
  cases action with
  | createAgent name timestamp =>
    rw [plain_createAgent]
    split
    · next hname => simp only [encode, payload, hname, Option.getD_none]
    · rfl

theorem decode_encode_plain {action : Action} (h : action.encode.Storable) :
    decode action.encode = .ok action.plain := by
  cases action with
  | createAgent name timestamp =>
    rw [decode_encode (Nat.lt_trans h (by decide)), plain_createAgent]

/-- Only actions that differ in no more than an empty name are written alike. -/
theorem encode_eq_iff {action other : Action} (h : action.encode.Storable) :
    action.encode = other.encode ↔ action.plain = other.plain := by
  constructor
  · intro heq
    have hdecode := decode_encode_plain h
    rw [heq, decode_encode_plain (heq ▸ h)] at hdecode
    exact (Except.ok.inj hdecode).symm
  · intro heq
    rw [← encode_plain action, heq, encode_plain]

/-- Every payload asks for an action or for one that this client has not. -/
theorem isAsked_ofPayload (payload : RegistryPayload) : IsAsked payload (ofPayload payload) := by
  unfold ofPayload
  split
  · next hkind =>
    have hasked := IsAsked.creation (ActionKind.ofNumber?_eq_some_iff.mp hkind)
    rw [plain_createAgent] at hasked
    cases hdetails : payload.createAgent with
    | none => rwa [hdetails] at hasked
    | some details => rwa [hdetails] at hasked
  · next kind hne hkind =>
    exact .unsupported (ActionKind.ofNumber?_eq_some_iff.mp hkind) hne
  · next hnone =>
    have hnumber : ¬ (0 ≤ payload.action ∧ payload.action ≤ 10) := by
      rw [← ActionKind.exists_number_iff]
      rintro ⟨kind, hkind⟩
      rw [ActionKind.ofNumber?_eq_some_iff.mpr hkind] at hnone
      cases hnone
    rw [Classical.not_and_iff_not_or_not, Int32.not_le, Int32.not_le] at hnumber
    exact .unknown hnumber

theorem decode_of_isSpelled {payload : RegistryPayload}
    (h : RegistryPayload.IsSpelled bs payload) : IsAsked payload (decode bs) := by
  rw [decode, RegistryPayload.decode_eq_ok_iff_isSpelled.mpr h]
  exact isAsked_ofPayload payload

/-- Octets are malformed if they say no payload. -/
theorem decode_malformed_iff :
    (∃ fault, decode bs = .error (.malformed fault)) ↔ ¬ RegistryPayload.IsWellFormed bs := by
  rw [RegistryPayload.isWellFormed_iff_exists_isSpelled, not_exists]
  constructor
  · rintro ⟨fault, hfault⟩ payload hspelled
    have hasked := decode_of_isSpelled hspelled
    rw [hfault] at hasked
    cases hasked
  · intro hnever
    cases hdecode : RegistryPayload.schema.decode bs with
    | ok payload =>
      exact absurd (RegistryPayload.decode_eq_ok_iff_isSpelled.mp hdecode) (hnever payload)
    | error fault => exact ⟨fault, by rw [decode, hdecode]⟩

theorem Rejection.message_unsupported_eq_iff {kind other : ActionKind} :
    (unsupported kind).message = (unsupported other).message ↔ kind.number = other.number :=
  (String.append_right_inj "Unsupported action: ").trans ActionKind.name_eq_iff

/-- An action is read back from what is written of it, but for an empty name, and from nothing else
that is written. Whatever else octets are, they are malformed if they say no payload; if they say
one, it asks for an action of this client or for another one. That one is told by its name, which no
action with another number has, or by its number if no action has it. -/
theorem decode_decided :
    (∀ action : Action, action.encode.Storable → decode action.encode = .ok action.plain ∧
      ∀ other : Action, action.encode = other.encode ↔ action.plain = other.plain) ∧
    (∀ bs, ((∃ fault, decode bs = .error (.malformed fault)) ↔
        ¬ RegistryPayload.IsWellFormed bs) ∧
      (RegistryPayload.IsWellFormed bs ↔ ∃ payload, RegistryPayload.IsSpelled bs payload) ∧
      ∀ payload, RegistryPayload.IsSpelled bs payload → IsAsked payload (decode bs)) ∧
    (∀ kind, (Rejection.unsupported kind).message = "Unsupported action: " ++ kind.name ∧
      ∀ other, (Rejection.unsupported kind).message = (Rejection.unsupported other).message ↔
        kind.number = other.number) ∧
    ∀ n : Int32, (Rejection.unknown n).message =
      "Unsupported action: unknown action " ++ toString n.toInt :=
  ⟨fun _ h => ⟨decode_encode_plain h, fun _ => encode_eq_iff h⟩, fun _ => ⟨decode_malformed_iff,
    RegistryPayload.isWellFormed_iff_exists_isSpelled, fun _ => decode_of_isSpelled⟩,
    fun _ => ⟨rfl, fun _ => Rejection.message_unsupported_eq_iff⟩, fun _ => rfl⟩

/-- An empty name, and octets in the middle of a number. -/
theorem decode_decided_unnamed :
    decode (createAgent (some "") 7).encode = .ok (.createAgent none 7) ∧
      (createAgent (some "") 7).encode = (createAgent none 7).encode ∧
      ¬ RegistryPayload.IsWellFormed [255, 255, 255] := by
  obtain ⟨hwritten, hread, -⟩ := decode_decided
  obtain ⟨hdecode, hsame⟩ := hwritten (createAgent (some "") 7) (by decide +kernel)
  exact ⟨hdecode, (hsame _).mpr rfl, (hread _).1.mp ⟨_, rfl⟩⟩

end Action

end CertRegistry
