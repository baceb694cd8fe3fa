import CertRegistry.Proofs.Wire.Merging

/-!
# Writers that know more fields

A writer may know fields that a record type lacks, in the record itself and in the records that
stand in its fields. Whoever reads such octets is left with the record that the other octets hold.
-/

namespace CertRegistry.Wire

theorem takeDelimited_value {depth : Nat} {p : Part} (hp : p.IsWhole depth)
    (htype : p.key.type = .delimited) : takeDelimited p.value = .ok (p.content, []) := by
  obtain ⟨⟨tag, type⟩, head, value⟩ := p
  have htype : type = .delimited := htype
  subst htype
  have hspells : Spells depth ⟨tag, .delimited⟩ value := hp.value
  cases hspells with
  | delimited h =>
    have hread := takeDelimited_append h []
    rw [List.append_nil] at hread
    simp only [Part.content, hread]

namespace Schema

variable {M : Type} {S : Schema M} {depth : Nat}

/-- Octets with more fields than others: ones that the record type lacks, and more in the octets
of the fields it has where `inner` says so of their tag. -/
inductive Widens (S : Schema M) (depth : Nat) (inner : Nat → Bytes → Bytes → Prop) (bs : Bytes) :
    Bytes → Prop
  | same : Widens S depth inner bs bs
  | insert {front back : Bytes} {p : Part} (h : Widens S depth inner bs (front ++ back))
    (hfront : ∃ ps, parts front = .ok ps) (hp : p.IsWhole depth)
    (hunknown : ∀ f ∈ S.fields, f.tag ≠ p.key.tag) :
    Widens S depth inner bs (front ++ p.octets ++ back)
  | within {front back : Bytes} {q q' : Part}
    (h : Widens S depth inner bs (front ++ q.octets ++ back))
    (hfront : ∃ ps, parts front = .ok ps) (hq : q.IsWhole depth) (hq' : q'.IsWhole depth)
    (hkey : q'.key = q.key) (htype : q.key.type = .delimited)
    (hcontent : inner q.key.tag q.content q'.content) :
    Widens S depth inner bs (front ++ q'.octets ++ back)

/-- Octets with more fields in the record itself. -/
def WidensFlat (S : Schema M) (depth : Nat) : Bytes → Bytes → Prop :=
  S.Widens depth fun _ _ _ => False

/-- Parts that no field tells apart are read alike. -/
theorem take_congr {q q' : Part} (hkey : q'.key = q.key)
    (hfields : ∀ f ∈ S.fields, f.tag = q.key.tag → ∀ b b',
      f.slot.take f.codec depth b q' = .ok b' ↔ f.slot.take f.codec depth b q = .ok b')
    {m m' : M} : S.take depth m q' = .ok m' ↔ S.take depth m q = .ok m' := by
  unfold take
  rw [hkey]
  split
  · next f hf =>
    simp only [map_eq_ok, hfields f (List.mem_of_find?_eq_some hf) (tag_of_field? hf)]
  · exact Iff.rfl

/-- What a wider row makes of a record is what the narrow one makes of it. -/
theorem reads_of_widens {inner : Nat → Bytes → Bytes → Prop} (hlocal : S.IsLocal)
    (hdepth : 0 < depth) (hmax : depth ≤ maxDepth)
    (hinner : ∀ {q q' : Part}, q.IsWhole depth → q'.IsWhole depth → q'.key = q.key →
      q.key.type = .delimited → inner q.key.tag q.content q'.content →
      ∀ m m', S.take depth m q' = .ok m' ↔ S.take depth m q = .ok m')
    {bs bs' : Bytes} (h : S.Widens depth inner bs bs') {m m' : M} :
    Reads (S.readField depth) m bs' m' [] ↔ Reads (S.readField depth) m bs m' [] := by
  induction h with
  | same => exact Iff.rfl
  | insert _ hfront hp hunknown ih =>
    obtain ⟨ps, hps⟩ := hfront
    rw [reads_insert hlocal hdepth hmax hps hp hunknown, ih]
  | @within front back q q' _ hfront hq hq' hkey htype hcontent ih =>
    obtain ⟨ps, hps⟩ := hfront
    have hsame := hinner hq hq' hkey htype hcontent
    have hback : ∀ m₁, Reads (S.readField depth) m₁ (q'.octets ++ back) m' [] ↔
        Reads (S.readField depth) m₁ (q.octets ++ back) m' [] := by
      intro m₁
      rw [reads_append hlocal hdepth hmax (parts_octets (hq'.mono hmax)),
        reads_append hlocal hdepth hmax (parts_octets (hq.mono hmax))]
      simp only [reads_octets hlocal hdepth hq hmax, reads_octets hlocal hdepth hq' hmax, hsame]
    rw [← ih, List.append_assoc, List.append_assoc, reads_append hlocal hdepth hmax hps,
      reads_append hlocal hdepth hmax hps]
    simp only [hback]

theorem reads_of_widensFlat (hlocal : S.IsLocal) (hdepth : 0 < depth) (hmax : depth ≤ maxDepth)
    {bs bs' : Bytes} (h : S.WidensFlat depth bs bs') {m m' : M} :
    Reads (S.readField depth) m bs' m' [] ↔ Reads (S.readField depth) m bs m' [] :=
  reads_of_widens hlocal hdepth hmax (fun _ _ _ _ hnever => hnever.elim) h

end Schema

/-- A field that holds records takes a wider one for the narrow one. -/
theorem Slot.take_congr_of_widensFlat {α β : Type} {slot : Slot α β} {T : Schema α}
    {level depth : Nat} (hT : T.Lawful level) (hlocal : T.IsLocal) (hdepth : 0 < depth)
    (hmax : depth ≤ Schema.maxDepth) {q q' : Part} (hq : q.IsWhole (depth + 1))
    (hq' : q'.IsWhole (depth + 1)) (hkey : q'.key = q.key) (htype : q.key.type = .delimited)
    (hcontent : T.WidensFlat depth q.content q'.content) (b b' : β) :
    slot.take T.codec (depth + 1) b q' = .ok b' ↔ slot.take T.codec (depth + 1) b q = .ok b' := by
  have hcodec := Schema.isLocal_codec hT hlocal
  have hread := takeDelimited_value hq htype
  have hread' := takeDelimited_value hq' (by rw [hkey, htype])
  rw [take_eq_ok hcodec (Nat.succ_pos _) hq, take_eq_ok hcodec (Nat.succ_pos _) hq', hkey]
  simp only [Schema.codec_update_eq_ok hT hlocal, hread, hread', Except.ok.injEq, Prod.mk.injEq,
    and_true, exists_eq_left', Schema.reads_of_widensFlat hlocal hdepth hmax hcontent]

end CertRegistry.Wire
