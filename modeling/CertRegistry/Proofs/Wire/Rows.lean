import CertRegistry.Proofs.Wire.Codecs
import CertRegistry.Proofs.Wire.Parts

/-!
# Records from rows of fields

A codec reads what the type of its key spells and looks at nothing behind it. So the parts of a row
are known before a record is read from it, and the record is what they make of the blank one, one
part after the other.
-/

namespace CertRegistry.Wire

/-! ## Codecs that keep to their own octets -/

namespace Codec

variable {α : Type}

/-- A codec takes the octets of one value and looks at nothing behind them. -/
structure IsLocal (c : Codec α) : Prop where
  update : ∀ depth start, Local (c.update depth start)
  spells : ∀ depth start tag bs v, c.update depth start bs = .ok (v, []) →
    Spells 1 ⟨tag, c.type⟩ bs

theorem isLocal_varint {c : Codec α} (f : Nat → α) (htype : c.type = .varint)
    (hupdate : ∀ depth start bs, c.update depth start bs =
      (do let (n, rest) ← takeVarint bs; return (f n, rest))) : c.IsLocal where
  update depth start bs v rest h := by
    rw [hupdate] at h
    obtain ⟨⟨n, tail⟩, hread, h⟩ := bind_eq_ok.mp h
    cases h
    obtain ⟨used, hbs, hused⟩ := local_takeVarint _ _ _ hread
    refine ⟨used, hbs, fun more => ?_⟩
    rw [hupdate]
    exact bind_eq_ok.mpr ⟨_, hused more, rfl⟩
  spells depth start tag bs v h := by
    rw [hupdate] at h
    obtain ⟨⟨n, tail⟩, hread, h⟩ := bind_eq_ok.mp h
    cases h
    rw [htype]
    exact .varint hread

theorem isLocal_uint64 : uint64.IsLocal := isLocal_varint UInt64.ofNat rfl fun _ _ _ => rfl

theorem isLocal_int32 : int32.IsLocal := isLocal_varint Int32.ofNat rfl fun _ _ _ => rfl

theorem isLocal_bool : bool.IsLocal :=
  isLocal_varint (fun n => decide (n ≠ 0)) rfl fun _ _ _ => rfl

theorem spells_of_takeDelimited {tag : Nat} {bs content : Bytes}
    (h : takeDelimited bs = .ok (content, [])) : Spells 1 ⟨tag, .delimited⟩ bs := by
  obtain ⟨head, hbs, hhead⟩ := exists_of_takeDelimited h
  rw [hbs, List.append_nil]
  exact .delimited hhead

theorem isLocal_octets : octets.IsLocal where
  update _ _ := local_takeDelimited
  spells _ _ _ _ _ h := spells_of_takeDelimited h

theorem text_update_eq_ok {depth : Nat} {start v : String} {bs rest : Bytes} :
    text.update depth start bs = .ok (v, rest) ↔
      ∃ content, takeDelimited bs = .ok (content, rest) ∧ Bytes.text? content = some v := by
  constructor
  · intro h
    obtain ⟨⟨content, tail⟩, hread, h⟩ := bind_eq_ok.mp h
    simp only at h
    split at h
    · next s htext =>
      cases h
      exact ⟨content, hread, htext⟩
    · cases h
  · rintro ⟨content, hread, htext⟩
    refine bind_eq_ok.mpr ⟨_, hread, ?_⟩
    simp only [htext]
    rfl

theorem isLocal_text : text.IsLocal where
  update depth start bs v rest h := by
    obtain ⟨content, hread, htext⟩ := text_update_eq_ok.mp h
    obtain ⟨used, hbs, hused⟩ := local_takeDelimited _ _ _ hread
    exact ⟨used, hbs, fun more => text_update_eq_ok.mpr ⟨content, hused more, htext⟩⟩
  spells depth start tag bs v h := by
    obtain ⟨content, hread, -⟩ := text_update_eq_ok.mp h
    exact spells_of_takeDelimited hread

end Codec

theorem Reads.of_local {M : Type} {step : M → Bytes → Except Fault (M × Bytes)}
    (hstep : ∀ m, Local (step m)) {m m' : M} {bs rest : Bytes} (h : Reads step m bs m' rest) :
    ∃ used, bs = used ++ rest ∧ ∀ more, Reads step m (used ++ more) m' more := by
  induction h with
  | done m bs => exact ⟨[], rfl, fun more => .done _ _⟩
  | more first _ ih =>
    obtain ⟨front, rfl, hfront⟩ := hstep _ _ _ _ first
    obtain ⟨back, rfl, hback⟩ := ih
    refine ⟨front ++ back, (List.append_assoc _ _ _).symm, fun more => ?_⟩
    rw [List.append_assoc]
    exact .more (hfront _) (hback more)

/-- Of octets that spell a value no front spells one. -/
theorem Spells.eq_nil_of_append {depth : Nat} {key : Key} {value more : Bytes}
    (h : Spells depth key value) (hmore : Spells depth key (value ++ more)) : more = [] := by
  have hfront := skipValue_append h more
  have hall := skipValue_append hmore []
  rw [List.append_nil, hfront] at hall
  exact Except.ok.inj hall

/-! ## Parts read into fields -/

namespace Slot

variable {α β : Type} {slot : Slot α β} {codec : Codec α} {depth : Nat}

/-- What a field holds once it has read a part. -/
def take (slot : Slot α β) (codec : Codec α) (depth : Nat) (b : β) (p : Part) : Except Fault β :=
  if p.key.type ≠ codec.type then fail (.wrongWireType p.key.type codec.type)
  else do
    let (v, _) ← codec.update depth ((slot.current b).getD codec.blank) p.value
    return slot.store b v

theorem take_eq_ok (hcodec : codec.IsLocal) (hdepth : 0 < depth) {p : Part}
    (hp : p.IsWhole depth) {b b' : β} :
    slot.take codec depth b p = .ok b' ↔
      p.key.type = codec.type ∧ ∃ v, codec.update depth
          ((slot.current b).getD codec.blank) p.value = .ok (v, []) ∧ slot.store b v = b' := by
  unfold take
  split
  · next htype =>
    constructor
    · intro h
      cases h
    · intro h
      exact absurd h.1 htype
  · next htype =>
    have htype := Decidable.not_not.mp htype
    constructor
    · intro h
      obtain ⟨⟨v, rest⟩, hread, h⟩ := bind_eq_ok.mp h
      cases h
      obtain ⟨used, hvalue, hused⟩ := hcodec.update _ _ _ _ _ hread
      have hhere := hused []
      rw [List.append_nil] at hhere
      -- What the codec took spells a value by itself, so nothing of the part is left.
      have hfront := (hcodec.spells _ _ p.key.tag _ _ hhere).mono hdepth
      have hwhole := hp.value
      rw [← htype] at hfront
      rw [hvalue] at hwhole
      obtain rfl := hfront.eq_nil_of_append hwhole
      exact ⟨htype, v, hread, rfl⟩
    · rintro ⟨-, v, hread, rfl⟩
      exact bind_eq_ok.mpr ⟨_, hread, rfl⟩

end Slot

namespace Field

variable {M : Type} {f : Field M} {depth : Nat}

theorem update_eq_ok {type : WireType} {m m' : M} {bs rest : Bytes} :
    f.update depth type m bs = .ok (m', rest) ↔
      type = f.codec.type ∧ ∃ v, f.codec.update depth
          ((f.slot.current (f.get m)).getD f.codec.blank) bs = .ok (v, rest) ∧
        f.set m (f.slot.store (f.get m) v) = m' := by
  unfold update
  split
  · next htype =>
    constructor
    · intro h
      cases h
    · intro h
      exact absurd h.1 htype
  · next htype =>
    constructor
    · intro h
      obtain ⟨⟨v, tail⟩, hread, h⟩ := bind_eq_ok.mp h
      cases h
      exact ⟨Decidable.not_not.mp htype, v, hread, rfl⟩
    · rintro ⟨-, v, hread, rfl⟩
      exact bind_eq_ok.mpr ⟨_, hread, rfl⟩

theorem local_update (hf : f.codec.IsLocal) (type : WireType) (m : M) :
    Local (f.update depth type m) := by
  intro bs m' rest h
  obtain ⟨htype, v, hread, hset⟩ := update_eq_ok.mp h
  obtain ⟨used, hbs, hused⟩ := hf.update _ _ _ _ _ hread
  exact ⟨used, hbs, fun more => update_eq_ok.mpr ⟨htype, v, hused more, hset⟩⟩

end Field

/-! ## Parts read into records -/

namespace Schema

variable {M : Type} {S : Schema M} {level depth : Nat}

/-- Whether all fields keep to their own octets. -/
def IsLocal (S : Schema M) : Prop := ∀ f ∈ S.fields, f.codec.IsLocal

/-- What a record is once it has read a part. -/
def take (S : Schema M) (depth : Nat) (m : M) (p : Part) : Except Fault M :=
  match S.field? p.key.tag with
  | some f => f.set m <$> f.slot.take f.codec depth (f.get m) p
  | none => .ok m

theorem take_of_field? {f : Field M} {m : M} {p : Part} (hf : S.field? p.key.tag = some f) :
    S.take depth m p = f.set m <$> f.slot.take f.codec depth (f.get m) p := by
  simp only [take, hf]

theorem take_of_unknown {m : M} {p : Part} (h : ∀ f ∈ S.fields, f.tag ≠ p.key.tag) :
    S.take depth m p = .ok m := by
  have hnone : S.field? p.key.tag = none := by
    refine List.find?_eq_none.mpr fun f hf => ?_
    simpa using h f hf
  simp only [take, hnone]

theorem local_readField (hlocal : S.IsLocal) (m : M) : Local (S.readField depth m) := by
  intro bs m' rest h
  obtain ⟨⟨key, tail⟩, hkey, hfield⟩ := bind_eq_ok.mp h
  obtain ⟨head, hbs, hhead⟩ := local_takeKey _ _ _ hkey
  simp only at hfield
  split at hfield
  · next f hf =>
    obtain ⟨value, htail, hvalue⟩ :=
      Field.local_update (hlocal f (List.mem_of_find?_eq_some hf)) _ _ _ _ _
        (mapError_eq_ok.mp hfield)
    refine ⟨head ++ value, by rw [hbs, htail, List.append_assoc], fun more => ?_⟩
    rw [List.append_assoc]
    refine bind_eq_ok.mpr ⟨_, hhead _, ?_⟩
    simp only [hf, hvalue more, mapError_ok]
  · next hf =>
    obtain ⟨behind, hskip, hfield⟩ := bind_eq_ok.mp hfield
    cases hfield
    obtain ⟨value, htail, hspells⟩ := exists_of_skipValue hskip
    refine ⟨head ++ value, by rw [hbs, htail, List.append_assoc], fun more => ?_⟩
    rw [List.append_assoc]
    refine bind_eq_ok.mpr ⟨_, hhead _, ?_⟩
    simp only [hf]
    exact bind_eq_ok.mpr ⟨_, skipValue_append hspells more, rfl⟩

/-- A field is read from octets when a part is at their front. -/
theorem readField_eq_ok (hlocal : S.IsLocal) (hdepth : 0 < depth) {m m' : M} {bs rest : Bytes} :
    S.readField depth m bs = .ok (m', rest) ↔
      ∃ p : Part, p.IsWhole depth ∧ bs = p.octets ++ rest ∧ S.take depth m p = .ok m' := by
  constructor
  · intro h
    obtain ⟨⟨key, tail⟩, hkey, hfield⟩ := bind_eq_ok.mp h
    obtain ⟨head, hbs, hhead⟩ := local_takeKey _ _ _ hkey
    have hhere := hhead []
    rw [List.append_nil] at hhere
    simp only at hfield
    split at hfield
    · next f hf =>
      have hcodec := hlocal f (List.mem_of_find?_eq_some hf)
      obtain ⟨htype, v, hread, hset⟩ := Field.update_eq_ok.mp (mapError_eq_ok.mp hfield)
      obtain ⟨value, htail, hvalue⟩ := hcodec.update _ _ _ _ _ hread
      have hown := hvalue []
      rw [List.append_nil] at hown
      have hspells := (hcodec.spells _ _ key.tag _ _ hown).mono hdepth
      rw [← htype] at hspells
      have hwhole : Part.IsWhole depth ⟨key, head, value⟩ := ⟨hhere, hspells⟩
      refine ⟨⟨key, head, value⟩, hwhole, by rw [hbs, htail, Part.octets, List.append_assoc], ?_⟩
      rw [take_of_field? hf]
      exact map_eq_ok.mpr ⟨_, (Slot.take_eq_ok hcodec hdepth hwhole).mpr ⟨htype, v, hown, rfl⟩,
        hset⟩
    · next hf =>
      obtain ⟨behind, hskip, hfield⟩ := bind_eq_ok.mp hfield
      cases hfield
      obtain ⟨value, htail, hspells⟩ := exists_of_skipValue hskip
      refine ⟨⟨key, head, value⟩, ⟨hhere, hspells⟩,
        by rw [hbs, htail, Part.octets, List.append_assoc], ?_⟩
      simp only [take, hf]
  · rintro ⟨p, hwhole, rfl, htake⟩
    rw [Part.octets, List.append_assoc]
    refine bind_eq_ok.mpr ⟨_, local_takeKey.append hwhole.head _, ?_⟩
    simp only
    cases hf : S.field? p.key.tag with
    | some f =>
      rw [take_of_field? hf] at htake
      have hcodec := hlocal f (List.mem_of_find?_eq_some hf)
      obtain ⟨b, hb, hset⟩ := map_eq_ok.mp htake
      obtain ⟨htype, v, hread, rfl⟩ := (Slot.take_eq_ok hcodec hdepth hwhole).mp hb
      exact mapError_eq_ok.mpr (Field.update_eq_ok.mpr
        ⟨htype, v, (hcodec.update _ _).append hread rest, hset⟩)
    | none =>
      simp only [take, hf] at htake
      cases htake
      exact bind_eq_ok.mpr ⟨_, skipValue_append hwhole.value rest, rfl⟩

/-- Reading field by field is reading the parts of a row. -/
theorem reads_iff (hlocal : S.IsLocal) (hdepth : 0 < depth) {m m' : M} {bs rest : Bytes} :
    Reads (S.readField depth) m bs m' rest ↔
      ∃ ps : List Part, bs = octetsOf ps ++ rest ∧ (∀ p ∈ ps, p.IsWhole depth) ∧
        ps.foldlM (S.take depth) m = .ok m' := by
  constructor
  · intro h
    induction h with
    | done m bs => exact ⟨[], rfl, List.forall_mem_nil _, rfl⟩
    | more first _ ih =>
      obtain ⟨p, hp, hbs, htake⟩ := (readField_eq_ok hlocal hdepth).mp first
      obtain ⟨ps, rfl, hps, hfold⟩ := ih
      refine ⟨p :: ps, by rw [hbs, octetsOf_cons, List.append_assoc],
        List.forall_mem_cons.mpr ⟨hp, hps⟩, ?_⟩
      rw [List.foldlM_cons]
      exact bind_eq_ok.mpr ⟨_, htake, hfold⟩
  · rintro ⟨ps, rfl, hps, hfold⟩
    induction ps generalizing m with
    | nil =>
      cases hfold
      exact .done _ _
    | cons p ps ih =>
      obtain ⟨hp, hps⟩ := List.forall_mem_cons.mp hps
      rw [List.foldlM_cons] at hfold
      obtain ⟨m₁, htake, hfold⟩ := bind_eq_ok.mp hfold
      refine .more ((readField_eq_ok hlocal hdepth).mpr ⟨p, hp, ?_, htake⟩) (ih hps hfold)
      rw [octetsOf_cons, List.append_assoc]

/-- A record in a field is read from the octets that its length takes, and from no others. -/
theorem codec_update_eq_ok (hS : S.Lawful level) (hlocal : S.IsLocal) {start v : M}
    {bs rest : Bytes} :
    S.codec.update (depth + 1) start bs = .ok (v, rest) ↔
      ∃ content, takeDelimited bs = .ok (content, rest) ∧
        Reads (S.readField depth) start content v [] := by
  have hstep : Consumes (S.readField depth) := consumes_readField hS
  constructor
  · intro h
    obtain ⟨⟨n, tail⟩, hlength, hread⟩ := bind_eq_ok.mp h
    simp only at hread
    split at hread
    · cases hread
    next hn =>
      obtain ⟨hreads, hrest⟩ := (readUntil_eq_ok hstep (by omega)).mp hread
      obtain ⟨content, rfl, hcontent⟩ := hreads.of_local (local_readField hlocal)
      have hown := hcontent []
      rw [List.append_nil] at hown
      obtain rfl : n = content.length := by
        rw [List.length_append] at hrest hn
        omega
      refine ⟨content, bind_eq_ok.mpr ⟨_, hlength, ?_⟩, hown⟩
      simp only
      rw [if_neg hn, List.take_left, List.drop_left]
      rfl
  · rintro ⟨content, hread, hreads⟩
    obtain ⟨⟨n, tail⟩, hlength, hread⟩ := bind_eq_ok.mp hread
    simp only at hread
    split at hread
    · cases hread
    next hn =>
      cases hread
      refine bind_eq_ok.mpr ⟨_, hlength, ?_⟩
      simp only
      rw [if_neg hn]
      refine (readUntil_eq_ok hstep (by omega)).mpr ⟨?_, List.length_drop⟩
      obtain ⟨used, hused, hmore⟩ := hreads.of_local (local_readField hlocal)
      rw [List.append_nil] at hused
      have hown := hmore (tail.drop n)
      rwa [← hused, List.take_append_drop] at hown

theorem isLocal_codec (hS : S.Lawful level) (hlocal : S.IsLocal) : S.codec.IsLocal where
  update depth start bs v rest h := by
    cases depth with
    | zero => cases h
    | succ depth =>
      obtain ⟨content, hread, hreads⟩ := (codec_update_eq_ok hS hlocal).mp h
      obtain ⟨used, hbs, hused⟩ := local_takeDelimited _ _ _ hread
      exact ⟨used, hbs, fun more =>
        (codec_update_eq_ok hS hlocal).mpr ⟨content, hused more, hreads⟩⟩
  spells depth start tag bs v h := by
    cases depth with
    | zero => cases h
    | succ depth =>
      obtain ⟨content, hread, -⟩ := (codec_update_eq_ok hS hlocal).mp h
      exact Codec.spells_of_takeDelimited hread

/-- Octets hold the record that reading them turns the blank one into. -/
theorem decode_iff_reads (hS : S.Lawful level) {bs : Bytes} {m : M} :
    S.decode bs = .ok m ↔ Reads (S.readField maxDepth) S.blank bs m [] := by
  have hstep : Consumes (S.readField maxDepth) := consumes_readField hS
  rw [decode, map_eq_ok]
  constructor
  · rintro ⟨⟨m', rest⟩, hread, rfl⟩
    obtain ⟨hreads, hlength⟩ := (readUntil_eq_ok hstep (by omega)).mp hread
    obtain rfl := List.length_eq_zero_iff.mp hlength
    exact hreads
  · intro hreads
    exact ⟨(m, []), (readUntil_eq_ok hstep (by omega)).mpr ⟨hreads, rfl⟩, rfl⟩

/-- What octets hold is what their parts make of the blank record. -/
theorem decode_eq_ok (hS : S.Lawful level) (hlocal : S.IsLocal) {bs : Bytes} {m : M} :
    S.decode bs = .ok m ↔
      ∃ ps, parts bs = .ok ps ∧ ps.foldlM (S.take maxDepth) S.blank = .ok m := by
  rw [decode_iff_reads hS, reads_iff hlocal (by decide)]
  simp only [List.append_nil, parts_eq_ok, and_assoc]

theorem reads_octets (hlocal : S.IsLocal) (hdepth : 0 < depth) {p : Part} (hp : p.IsWhole depth)
    (hmax : depth ≤ maxDepth) {m m' : M} :
    Reads (S.readField depth) m p.octets m' [] ↔ S.take depth m p = .ok m' := by
  rw [reads_iff hlocal hdepth]
  constructor
  · rintro ⟨ps, hps, hwhole, hfold⟩
    have hparts := parts_eq_ok.mpr ⟨hps.trans (List.append_nil _), fun q hq =>
      (hwhole q hq).mono hmax⟩
    rw [parts_octets (hp.mono hmax)] at hparts
    cases hparts
    simpa only [List.foldlM_cons, List.foldlM_nil, bind_pure] using hfold
  · intro h
    refine ⟨[p], ?_, List.forall_mem_singleton.mpr hp, ?_⟩
    · simp only [octetsOf_cons, octetsOf_nil, List.append_nil]
    · simpa only [List.foldlM_cons, List.foldlM_nil, bind_pure] using h

/-- A row is read from its front on. -/
theorem reads_append (hlocal : S.IsLocal) (hdepth : 0 < depth) (hmax : depth ≤ maxDepth)
    {front back : Bytes} {ps : List Part} (hfront : parts front = .ok ps) {m m' : M} :
    Reads (S.readField depth) m (front ++ back) m' [] ↔
      ∃ m₁, Reads (S.readField depth) m front m₁ [] ∧ Reads (S.readField depth) m₁ back m' [] := by
  constructor
  · intro h
    obtain ⟨rs, hrow, hrs, hfold⟩ := (reads_iff hlocal hdepth).mp h
    rw [List.append_nil] at hrow
    obtain ⟨qs, hback, rfl⟩ := (parts_append hfront).mp
      (parts_eq_ok.mpr ⟨hrow, fun r hr => (hrs r hr).mono hmax⟩)
    obtain ⟨hps, hqs⟩ := List.forall_mem_append.mp hrs
    rw [List.foldlM_append] at hfold
    obtain ⟨m₁, hm₁, hm'⟩ := bind_eq_ok.mp hfold
    refine ⟨m₁, (reads_iff hlocal hdepth).mpr ⟨ps, ?_, hps, hm₁⟩,
      (reads_iff hlocal hdepth).mpr ⟨qs, ?_, hqs, hm'⟩⟩
    · rw [List.append_nil, (parts_eq_ok.mp hfront).1]
    · rw [List.append_nil, (parts_eq_ok.mp hback).1]
  · rintro ⟨m₁, hm₁, hm'⟩
    obtain ⟨used, hused, hmore⟩ := hm₁.of_local (local_readField hlocal)
    rw [List.append_nil] at hused
    rw [hused]
    exact (hmore back).trans hm'

end Schema

end CertRegistry.Wire
