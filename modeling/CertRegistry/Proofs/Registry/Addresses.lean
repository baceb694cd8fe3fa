import CertRegistry.Proofs.Bytes.HexReading
import CertRegistry.Proofs.Node.Requests
import CertRegistry.Proofs.Node.Storage
import CertRegistry.Registry.Client

/-!
# Addresses keep records apart

The parts of an address have fixed widths: six digits for the family, two that are reserved, two for
the type and sixty from the digest of the key. So an address tells the type of its record and the
beginning of the digest of its key, and nothing else; and what starts with the digits of a type is
an address of that type.
-/

namespace CertRegistry

namespace RecordType

theorem length_digits (type : RecordType) : type.digits.length = 2 := by
  cases type <;> rfl

theorem isDigit_of_mem_digits (type : RecordType) : ∀ c ∈ type.digits.toList, Hex.IsDigit c := by
  cases type <;> exact forall_mem_of_all (by decide)

theorem digits_injective : Function.Injective digits := by
  have hall : ∀ type other : RecordType, type.digits = other.digits → type = other := by
    intro type other h
    cases type <;> cases other <;> first | rfl | exact absurd h (by decide)
  exact hall

end RecordType

/-- Two digits are written for each octet, so the first octets give the first digits. -/
theorem Hex.take_digits (count : Nat) (bs : Bytes) :
    (digits bs).take (2 * count) = digits (bs.take count) := by
  induction bs generalizing count with
  | nil => rw [List.take_nil]; exact List.take_nil
  | cons b bs ih =>
    cases count with
    | zero => rfl
    | succ count =>
      rw [Nat.mul_succ, digits_cons, List.take_succ_cons, List.take_succ_cons, ih,
        List.take_succ_cons, digits_cons]

namespace Address

/-! ## Digests -/

/-- The digits of the whole digest of a text. -/
def digest (text : String) : String := Hex.encode (sha256 (Bytes.ofText text))

/-- The first digits of a text, if it has so many. -/
def cut? (count : Nat) (digits : String) : Option String :=
  if count ≤ digits.length then some (String.ofList (digits.toList.take count)) else none

theorem length_digest (text : String) : (digest text).length = 64 := by
  rw [digest, Hex.length_encode, length_sha256]

/-- A digest is long enough for every part of an address. -/
theorem cut?_digest (octets : Nat) {count : Nat} (h : octets ≤ 32) (hcount : count = 2 * octets)
    (text : String) : cut? count (digest text) = some (digestDigits octets text) := by
  rw [cut?, hcount, if_pos (by rw [length_digest]; omega), digest, digestDigits,
    Hex.encode_eq_ofList, String.toList_ofList, Hex.take_digits, Hex.encode_eq_ofList]

theorem length_digestDigits {count : Nat} (h : count ≤ 32) (text : String) :
    (digestDigits count text).length = 2 * count := by
  rw [digestDigits, Hex.length_encode, List.length_take, length_sha256]
  omega

/-! ## Parts of an address -/

variable {type other : RecordType} {key key' : String}

theorem length_typePrefix (type : RecordType) : (typePrefix type).length = 10 := by
  simp only [typePrefix, familyNamespace, String.length_append, RecordType.length_digits,
    length_digestDigits (show 3 ≤ 32 by decide)]
  rfl

theorem length_ofKey (type : RecordType) (key : String) : (ofKey type key).length = length := by
  rw [ofKey, String.length_append, length_typePrefix,
    length_digestDigits (show 30 ≤ 32 by decide), length]

theorem isDigit_of_mem_typePrefix (type : RecordType) :
    ∀ c ∈ (typePrefix type).toList, Hex.IsDigit c := by
  have hreserved : ∀ c ∈ "00".toList, Hex.IsDigit c := forall_mem_of_all (by decide)
  intro c hc
  simp only [typePrefix, String.toList_append, List.mem_append] at hc
  rcases hc with (hc | hc) | hc
  · exact Hex.isDigit_of_mem_encode hc
  · exact hreserved c hc
  · exact type.isDigit_of_mem_digits c hc

theorem isDigit_of_mem_ofKey (type : RecordType) (key : String) :
    ∀ c ∈ (ofKey type key).toList, Hex.IsDigit c := by
  intro c hc
  rw [ofKey, String.toList_append] at hc
  rcases List.mem_append.mp hc with hc | hc
  · exact isDigit_of_mem_typePrefix type c hc
  · exact Hex.isDigit_of_mem_encode hc

theorem typePrefix_prefix_ofKey (type : RecordType) (key : String) :
    (typePrefix type).toList <+: (ofKey type key).toList := by
  rw [ofKey, String.toList_append]
  exact List.prefix_append _ _

theorem typePrefix_injective : Function.Injective typePrefix := by
  intro type other h
  have htext : (familyNamespace ++ "00").toList ++ type.digits.toList =
      (familyNamespace ++ "00").toList ++ other.digits.toList := by
    rw [← String.toList_append, ← String.toList_append]
    exact congrArg String.toList h
  exact RecordType.digits_injective (String.toList_inj.mp (List.append_cancel_left htext))

/-- The digits of a type are in front of the addresses of that type only. -/
theorem typePrefix_prefix_ofKey_iff :
    (typePrefix type).toList <+: (ofKey other key).toList ↔ type = other := by
  constructor
  · intro h
    have hlength : (typePrefix type).toList.length = (typePrefix other).toList.length := by
      rw [String.length_toList, String.length_toList, length_typePrefix, length_typePrefix]
    have hfront := List.prefix_of_prefix_length_le h (typePrefix_prefix_ofKey other key)
      (Nat.le_of_eq hlength)
    exact typePrefix_injective (String.toList_inj.mp (hfront.eq_of_length hlength))
  · rintro rfl
    exact typePrefix_prefix_ofKey type key

theorem ofKey_eq_iff : ofKey type key = ofKey other key' ↔
    type = other ∧ digestDigits 30 key = digestDigits 30 key' := by
  constructor
  · intro h
    obtain rfl : type = other :=
      typePrefix_prefix_ofKey_iff.mp (h ▸ typePrefix_prefix_ofKey type key)
    have htext : (typePrefix type).toList ++ (digestDigits 30 key).toList =
        (typePrefix type).toList ++ (digestDigits 30 key').toList := by
      rw [← String.toList_append, ← String.toList_append]
      exact congrArg String.toList h
    exact ⟨rfl, String.toList_inj.mp (List.append_cancel_left htext)⟩
  · rintro ⟨rfl, hdigits⟩
    rw [ofKey, ofKey, hdigits]

/-! ## Records of one type -/

open Rest Ledger

/-- Entries that show what is stored under the addresses of a type, and nothing that is stored under
an address of another type. -/
def ShowsType (state : List (String × Bytes)) (type : RecordType) (entries : List StateEntry) :
    Prop :=
  ∀ other key data, { address := ofKey other key, data } ∈ entries ↔
    other = type ∧ (ofKey other key, data) ∈ state

theorem showsType_filter (state : List (String × Bytes)) (type : RecordType) :
    ShowsType state type ((state.filter fun (address, _) =>
      (typePrefix type).toList.isPrefixOf address.toList).map
        fun (address, data) => { address, data }) := by
  intro other key data
  simp only [List.mem_map, List.mem_filter, List.isPrefixOf_iff_prefix]
  constructor
  · rintro ⟨⟨address, data'⟩, ⟨hmem, hfront⟩, heq⟩
    obtain ⟨rfl, rfl⟩ := StateEntry.mk.inj heq
    exact ⟨(typePrefix_prefix_ofKey_iff.mp hfront).symm, hmem⟩
  · rintro ⟨rfl, hmem⟩
    exact ⟨(ofKey other key, data), ⟨hmem, typePrefix_prefix_ofKey other key⟩, rfl⟩

/-- What a node shows to a client that asks for the addresses of a type. -/
theorem ends_listState_typePrefix {client : Client} {port : Nat} (hclient : client.IsLocal port)
    (now : Nat) (ledger : Ledger) (pages : Nat) (type : RecordType) : ∃ entries,
      Talk.Ends (client.listState node (pages + 1) (some (typePrefix type))) now ledger entries
        ledger ∧
      ShowsType ledger.state type entries := by
  have hlength : (typePrefix type).length ≤ 70 := by
    rw [length_typePrefix]
    decide
  exact ⟨_, ends_listState hclient (fun c hc => (isDigit_of_mem_typePrefix type c hc).isAny)
    (isSendable_stateQuery hclient.port_lt hlength) pages, showsType_filter _ _⟩

/-- An address has seventy digits: those of the family and the type, and the first sixty of the
digest of the key. Two addresses are the same if and only if their types and these digits are; and
the digits of a type start the addresses of that type and no other ones. So a list of the entries of
one type, and the agents that a client lists in particular, has no entry of another type, whatever
the node stores. -/
theorem records_kept_apart :
    (∀ type key, (ofKey type key).length = 70 ∧ (∀ c ∈ (ofKey type key).toList, Hex.IsDigit c) ∧
      (typePrefix type).toList <+: (ofKey type key).toList ∧
      ∃ family digits, cut? 6 (digest familyName) = some family ∧
        cut? 60 (digest key) = some digits ∧
        typePrefix type = family ++ "00" ++ type.digits ∧
        ofKey type key = family ++ "00" ++ type.digits ++ digits) ∧
    (∀ type other key key', ofKey type key = ofKey other key' ↔
      type = other ∧ cut? 60 (digest key) = cut? 60 (digest key')) ∧
    (∀ type other key, (typePrefix type).toList <+: (ofKey other key).toList ↔ type = other) ∧
    (∀ type other key key', type ≠ other → ofKey type key ≠ ofKey other key') ∧
    ∀ (client : RegistryClient) (port now : Nat) (ledger : Ledger) (pages : Nat),
      client.rest.IsLocal port →
      (∀ type, ∃ entries, Talk.Ends
        (client.rest.listState node (pages + 1) (some (typePrefix type))) now ledger entries
          ledger ∧ ShowsType ledger.state type entries) ∧
      ∃ entries, ShowsType ledger.state .agent entries ∧
        ∀ agents, RegistryClient.agentsOf entries = .ok agents →
          Talk.Ends (client.listAgents node (pages + 1)) now ledger agents ledger := by
  have hfamily : cut? 6 (digest familyName) = some familyNamespace :=
    cut?_digest 3 (by decide) rfl familyName
  have hdigits : ∀ key, cut? 60 (digest key) = some (digestDigits 30 key) :=
    cut?_digest 30 (by decide) rfl
  refine ⟨fun type key => ⟨length_ofKey type key, isDigit_of_mem_ofKey type key,
    typePrefix_prefix_ofKey type key, _, _, hfamily, hdigits key, rfl, rfl⟩,
    fun type other key key' => ?_, fun type other key => typePrefix_prefix_ofKey_iff,
    fun type other key key' hne heq => hne (ofKey_eq_iff.mp heq).1,
    fun client port now ledger pages hclient => ⟨fun type =>
      ends_listState_typePrefix hclient now ledger pages type, ?_⟩⟩
  · rw [hdigits, hdigits, Option.some.injEq]
    exact ofKey_eq_iff
  · obtain ⟨entries, hends, hshows⟩ := ends_listState_typePrefix hclient now ledger pages .agent
    exact ⟨entries, hshows, fun agents hagents => Talk.Ends.bind hends (Talk.Ends.ofExcept hagents)⟩

/-- A node that stores an agent and an organization with the same key lists only the agent. -/
theorem records_kept_apart_same_key :
    Client.IsLocal { base := Url.localBase 8008, timeoutSeconds := 30 } 8008 ∧
      ∃ entries, Talk.Ends (Client.listState node
        { base := Url.localBase 8008, timeoutSeconds := 30 } 1 (some (typePrefix .agent))) 0
        { state := [(ofKey .agent "a", [0x0a, 0x00]), (ofKey .organization "a", [0xff])] } entries
        { state := [(ofKey .agent "a", [0x0a, 0x00]), (ofKey .organization "a", [0xff])] } ∧
      { address := ofKey .agent "a", data := [0x0a, 0x00] } ∈ entries ∧
      { address := ofKey .organization "a", data := [0xff] } ∉ entries := by
  have hclient : Client.IsLocal { base := Url.localBase 8008, timeoutSeconds := 30 } 8008 :=
    ⟨by decide, rfl, by decide⟩
  obtain ⟨-, -, -, -, hlists⟩ := records_kept_apart
  obtain ⟨hshow, -⟩ := hlists
    { rest := { base := Url.localBase 8008, timeoutSeconds := 30 }
      family := { name := familyName, version := familyVersion }
      statusWaitSeconds := 10 } 8008 0
    { state := [(ofKey .agent "a", [0x0a, 0x00]), (ofKey .organization "a", [0xff])] } 0 hclient
  obtain ⟨entries, hends, hshows⟩ := hshow .agent
  refine ⟨hclient, entries, hends, (hshows _ _ _).mpr ⟨rfl, List.mem_cons_self⟩, ?_⟩
  exact fun hmem => absurd ((hshows _ _ _).mp hmem).1 (by decide)

end Address

end CertRegistry
