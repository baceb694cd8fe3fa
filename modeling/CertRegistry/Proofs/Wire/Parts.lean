import CertRegistry.Proofs.Wire.Schema

/-!
# Fields in a row

Octets that hold a record are a row of fields. Where each of them ends can be told without knowing
the record: the type in its key says how its value is spelled. Readers take what spells a key or a
value and look at nothing behind it, so a row falls into its parts in one way only.
-/

namespace CertRegistry.Wire

/-- A reader takes some octets and looks at nothing behind them. -/
def Local {α : Type} (read : Bytes → Except Fault (α × Bytes)) : Prop :=
  ∀ bs a rest, read bs = .ok (a, rest) →
    ∃ used, bs = used ++ rest ∧ ∀ more, read (used ++ more) = .ok (a, more)

theorem Local.append {α : Type} {read : Bytes → Except Fault (α × Bytes)} (h : Local read)
    {bs : Bytes} {a : α} (hread : read bs = .ok (a, [])) (more : Bytes) :
    read (bs ++ more) = .ok (a, more) := by
  obtain ⟨used, hused, hmore⟩ := h _ _ _ hread
  rw [List.append_nil] at hused
  rw [hused]
  exact hmore more

/-! ## Numbers, keys and octets with a length -/

theorem varintAfter?_local {before n : Nat} {bs rest : Bytes}
    (h : varintAfter? before bs = some (n, rest)) :
    ∃ used, bs = used ++ rest ∧ ∀ more, varintAfter? before (used ++ more) = some (n, more) := by
  induction bs generalizing before n with
  | nil => cases h
  | cons b bs ih =>
    simp only [varintAfter?] at h
    split at h
    · next hlast =>
      split at h
      · cases h
      · next hfits =>
        cases h
        refine ⟨[b], rfl, fun more => ?_⟩
        simp only [List.singleton_append, varintAfter?]
        rw [if_pos hlast, if_neg hfits]
    · next hmore =>
      split at h
      · cases h
      · next hroom =>
        split at h
        · next high tail heq =>
          cases h
          obtain ⟨used, rfl, hused⟩ := ih heq
          refine ⟨b :: used, rfl, fun more => ?_⟩
          simp only [List.cons_append, varintAfter?, hused]
          rw [if_neg hmore, if_neg hroom]
        · cases h

theorem local_takeVarint : Local takeVarint := by
  intro bs n rest h
  obtain ⟨used, hbs, hused⟩ := varintAfter?_local (takeVarint_eq_ok.mp h)
  exact ⟨used, hbs, fun more => takeVarint_eq_ok.mpr (hused more)⟩

theorem local_takeKey : Local takeKey := by
  intro bs key rest h
  obtain ⟨⟨n, tail⟩, hread, h⟩ := bind_eq_ok.mp h
  obtain ⟨used, hbs, hused⟩ := local_takeVarint _ _ _ hread
  simp only at h
  split at h
  · cases h
  next hsize =>
    split at h
    · cases h
    next type htype =>
      split at h
      · cases h
      next hzero =>
        cases h
        refine ⟨used, hbs, fun more => bind_eq_ok.mpr ⟨_, hused more, ?_⟩⟩
        simp only [if_neg hsize, htype, if_neg hzero]
        rfl

theorem takeDelimited_append {bs content : Bytes} (h : takeVarint bs = .ok (content.length, []))
    (more : Bytes) : takeDelimited (bs ++ content ++ more) = .ok (content, more) := by
  rw [List.append_assoc]
  refine bind_eq_ok.mpr ⟨_, local_takeVarint.append h _, ?_⟩
  simp only
  rw [if_neg (by simp), List.take_left, List.drop_left]
  rfl

theorem exists_of_takeDelimited {bs content rest : Bytes}
    (h : takeDelimited bs = .ok (content, rest)) :
    ∃ head, bs = head ++ content ++ rest ∧ takeVarint head = .ok (content.length, []) := by
  obtain ⟨⟨n, tail⟩, hread, h⟩ := bind_eq_ok.mp h
  obtain ⟨head, hbs, hhead⟩ := local_takeVarint _ _ _ hread
  simp only at h
  split at h
  · cases h
  next hlength =>
    cases h
    refine ⟨head, ?_, ?_⟩
    · rw [hbs, List.append_assoc, List.take_append_drop]
    · have hhere := hhead []
      rw [List.append_nil] at hhere
      rw [hhere, List.length_take_of_le (Nat.not_lt.mp hlength)]

theorem local_takeDelimited : Local takeDelimited := by
  intro bs content rest h
  obtain ⟨head, hbs, hhead⟩ := exists_of_takeDelimited h
  exact ⟨head ++ content, hbs, takeDelimited_append hhead⟩

/-! ## What spells a value -/

/-- A field as it stands among others: its key, the octets of the key and those of the value. -/
structure Part where
  key : Key
  head : Bytes
  value : Bytes
  deriving DecidableEq, Repr

def Part.octets (p : Part) : Bytes := p.head ++ p.value

/-- The octets of a row of fields. -/
def octetsOf (ps : List Part) : Bytes := ps.flatMap (·.octets)

@[simp]
theorem octetsOf_nil : octetsOf [] = [] := rfl

@[simp]
theorem octetsOf_cons (p : Part) (ps : List Part) : octetsOf (p :: ps) = p.octets ++ octetsOf ps :=
  rfl

@[simp]
theorem octetsOf_append (ps qs : List Part) : octetsOf (ps ++ qs) = octetsOf ps ++ octetsOf qs :=
  List.flatMap_append

/-- Octets that spell a value behind a key. The number bounds how deep groups may nest. -/
inductive Spells : Nat → Key → Bytes → Prop
  | varint {depth tag n : Nat} {bs : Bytes} (h : takeVarint bs = .ok (n, [])) :
    Spells (depth + 1) ⟨tag, .varint⟩ bs
  | fixed64 {depth tag : Nat} {bs : Bytes} (h : bs.length = 8) :
    Spells (depth + 1) ⟨tag, .fixed64⟩ bs
  | fixed32 {depth tag : Nat} {bs : Bytes} (h : bs.length = 4) :
    Spells (depth + 1) ⟨tag, .fixed32⟩ bs
  | delimited {depth tag : Nat} {bs content : Bytes}
    (h : takeVarint bs = .ok (content.length, [])) :
    Spells (depth + 1) ⟨tag, .delimited⟩ (bs ++ content)
  /-- A row of fields up to a key that ends the group. -/
  | group {depth tag : Nat} {ps : List Part} {close : Bytes}
    (heads : ∀ p ∈ ps, takeKey p.head = .ok (p.key, []))
    (values : ∀ p ∈ ps, Spells depth p.key p.value)
    (hclose : takeKey close = .ok (⟨tag, .endGroup⟩, [])) :
    Spells (depth + 1) ⟨tag, .startGroup⟩ (octetsOf ps ++ close)

theorem Spells.mono {depth depth' : Nat} {key : Key} {value : Bytes} (h : Spells depth key value)
    (hle : depth ≤ depth') : Spells depth' key value := by
  induction h generalizing depth' with
  | @varint depth tag n bs h =>
    obtain ⟨d, rfl⟩ := Nat.exists_eq_add_of_lt hle
    exact .varint h
  | @fixed64 depth tag bs h =>
    obtain ⟨d, rfl⟩ := Nat.exists_eq_add_of_lt hle
    exact .fixed64 h
  | @fixed32 depth tag bs h =>
    obtain ⟨d, rfl⟩ := Nat.exists_eq_add_of_lt hle
    exact .fixed32 h
  | @delimited depth tag bs content h =>
    obtain ⟨d, rfl⟩ := Nat.exists_eq_add_of_lt hle
    exact .delimited h
  | @group depth tag ps close heads _ hclose ih =>
    obtain ⟨d, rfl⟩ := Nat.exists_eq_add_of_lt hle
    exact .group heads (fun p hp => ih p hp (Nat.le_add_right _ _)) hclose

theorem Spells.type_ne {depth : Nat} {key : Key} {value : Bytes} (h : Spells depth key value) :
    key.type ≠ .endGroup := by
  cases h <;> simp

theorem length_head_pos {p : Part} (h : takeKey p.head = .ok (p.key, [])) :
    0 < p.octets.length := by
  have := length_takeKey h
  simp only [Part.octets, List.length_append]
  simp only [List.length_nil] at this
  omega

theorem length_le_length_octetsOf {ps : List Part}
    (h : ∀ p ∈ ps, takeKey p.head = .ok (p.key, [])) : ps.length ≤ (octetsOf ps).length := by
  induction ps with
  | nil => exact Nat.le_refl 0
  | cons p ps ih =>
    have hfirst := length_head_pos (h p List.mem_cons_self)
    have hrest := ih fun q hq => h q (List.mem_cons_of_mem _ hq)
    simp only [octetsOf_cons, List.length_append, List.length_cons]
    omega

section Group

variable {skip : WireType → Nat → Bytes → Except Fault Bytes} {tag : Nat}

theorem skipGroup_append {ps : List Part} {close : Bytes}
    (heads : ∀ p ∈ ps, takeKey p.head = .ok (p.key, []))
    (htypes : ∀ p ∈ ps, p.key.type ≠ .endGroup)
    (hskip : ∀ p ∈ ps, ∀ more, skip p.key.type p.key.tag (p.value ++ more) = .ok more)
    (hclose : takeKey close = .ok (⟨tag, .endGroup⟩, [])) {count : Nat} (hcount : ps.length < count)
    (more : Bytes) : skipGroup skip tag count (octetsOf ps ++ (close ++ more)) = .ok more := by
  induction ps generalizing count with
  | nil =>
    obtain ⟨count, rfl⟩ := Nat.exists_eq_succ_of_ne_zero (Nat.ne_zero_of_lt hcount)
    refine bind_eq_ok.mpr ⟨_, local_takeKey.append hclose more, ?_⟩
    simp only [if_true]
    rfl
  | cons p ps ih =>
    obtain ⟨count, rfl⟩ := Nat.exists_eq_succ_of_ne_zero (Nat.ne_zero_of_lt hcount)
    have hhead := local_takeKey.append (heads p List.mem_cons_self)
      (p.value ++ (octetsOf ps ++ (close ++ more)))
    simp only [octetsOf_cons, Part.octets, List.append_assoc]
    refine bind_eq_ok.mpr ⟨_, hhead, ?_⟩
    simp only
    rw [if_neg (htypes p List.mem_cons_self)]
    refine bind_eq_ok.mpr ⟨_, hskip p List.mem_cons_self _, ?_⟩
    refine ih (fun q hq => heads q (List.mem_cons_of_mem _ hq))
      (fun q hq => htypes q (List.mem_cons_of_mem _ hq))
      (fun q hq => hskip q (List.mem_cons_of_mem _ hq)) ?_
    rw [List.length_cons] at hcount
    omega

theorem exists_of_skipGroup {P : Key → Bytes → Prop}
    (hskip : ∀ {key : Key} {bs rest}, skip key.type key.tag bs = .ok rest →
      ∃ value, bs = value ++ rest ∧ P key value) {count : Nat} {bs rest : Bytes}
    (h : skipGroup skip tag count bs = .ok rest) :
    ∃ ps close, bs = octetsOf ps ++ close ++ rest ∧
      (∀ p ∈ ps, takeKey p.head = .ok (p.key, [])) ∧ (∀ p ∈ ps, P p.key p.value) ∧
      takeKey close = .ok (⟨tag, .endGroup⟩, []) := by
  induction count generalizing bs with
  | zero => cases h
  | succ count ih =>
    obtain ⟨⟨key, tail⟩, hkey, hmatch⟩ := bind_eq_ok.mp h
    obtain ⟨head, rfl, hhead⟩ := local_takeKey _ _ _ hkey
    have hhere := hhead []
    rw [List.append_nil] at hhere
    simp only at hmatch
    split at hmatch
    · next hend =>
      split at hmatch
      · next htag =>
        cases hmatch
        refine ⟨[], head, rfl, List.forall_mem_nil _, List.forall_mem_nil _, ?_⟩
        rw [hhere, ← htag, ← hend]
      · cases hmatch
    · obtain ⟨after, hvalue, hothers⟩ := bind_eq_ok.mp hmatch
      obtain ⟨value, rfl, hspells⟩ := hskip hvalue
      obtain ⟨ps, close, rfl, heads, values, hclose⟩ := ih hothers
      refine ⟨⟨key, head, value⟩ :: ps, close, ?_, List.forall_mem_cons.mpr ⟨hhere, heads⟩,
        List.forall_mem_cons.mpr ⟨hspells, values⟩, hclose⟩
      simp only [octetsOf_cons, Part.octets, List.append_assoc]

end Group

/-- What spells a value is skipped, whatever comes behind it. -/
theorem skipValue_append {depth : Nat} {key : Key} {value : Bytes} (h : Spells depth key value)
    (more : Bytes) : skipValue depth key.type key.tag (value ++ more) = .ok more := by
  induction h generalizing more with
  | varint h => exact map_eq_ok.mpr ⟨_, local_takeVarint.append h more, rfl⟩
  | fixed64 h =>
    simp only [skipValue, skipOctets, List.length_append]
    rw [if_neg (by omega), ← h, List.drop_left]
  | fixed32 h =>
    simp only [skipValue, skipOctets, List.length_append]
    rw [if_neg (by omega), ← h, List.drop_left]
  | delimited h => exact map_eq_ok.mpr ⟨_, takeDelimited_append h more, rfl⟩
  | @group depth tag ps close heads values hclose ih =>
    have hle := length_le_length_octetsOf heads
    have hpos := length_takeKey hclose
    rw [List.append_assoc]
    refine skipGroup_append heads (fun p hp => (values p hp).type_ne) ih hclose ?_ more
    simp only [List.length_append]
    simp only [List.length_nil] at hpos
    omega

/-- Only what spells a value is skipped. -/
theorem exists_of_skipValue {depth : Nat} {key : Key} {bs rest : Bytes}
    (h : skipValue depth key.type key.tag bs = .ok rest) :
    ∃ value, bs = value ++ rest ∧ Spells depth key value := by
  induction depth generalizing key bs rest with
  | zero => cases h
  | succ depth ih =>
    have hoctets : ∀ count, skipOctets count bs = .ok rest →
        ∃ value, bs = value ++ rest ∧ value.length = count := by
      intro count h
      unfold skipOctets at h
      split at h
      · cases h
      next hlength =>
        cases h
        exact ⟨bs.take count, (List.take_append_drop _ _).symm,
          List.length_take_of_le (Nat.not_lt.mp hlength)⟩
    obtain ⟨tag, type⟩ := key
    cases type with
    | varint =>
      obtain ⟨⟨n, tail⟩, hread, rfl⟩ := map_eq_ok.mp h
      obtain ⟨used, hbs, hused⟩ := local_takeVarint _ _ _ hread
      have hhere := hused []
      rw [List.append_nil] at hhere
      exact ⟨used, hbs, .varint hhere⟩
    | fixed64 =>
      obtain ⟨value, hbs, hlength⟩ := hoctets 8 h
      exact ⟨value, hbs, .fixed64 hlength⟩
    | fixed32 =>
      obtain ⟨value, hbs, hlength⟩ := hoctets 4 h
      exact ⟨value, hbs, .fixed32 hlength⟩
    | delimited =>
      obtain ⟨⟨content, tail⟩, hread, rfl⟩ := map_eq_ok.mp h
      obtain ⟨head, hbs, hhead⟩ := exists_of_takeDelimited hread
      exact ⟨head ++ content, hbs, .delimited hhead⟩
    | startGroup =>
      obtain ⟨ps, close, hbs, heads, values, hclose⟩ := exists_of_skipGroup ih h
      exact ⟨octetsOf ps ++ close, hbs, .group heads values hclose⟩
    | endGroup => cases h

/-! ## The parts of a row -/

/-- Whether a part is one whole field. -/
structure Part.IsWhole (depth : Nat) (p : Part) : Prop where
  head : takeKey p.head = .ok (p.key, [])
  value : Spells depth p.key p.value

theorem Part.IsWhole.mono {depth depth' : Nat} {p : Part} (h : p.IsWhole depth)
    (hle : depth ≤ depth') : p.IsWhole depth' :=
  ⟨h.head, h.value.mono hle⟩

/-- The first field of a row, and the octets behind it. -/
def takePart (bs : Bytes) : Except Fault (Part × Bytes) := do
  let (key, rest) ← takeKey bs
  let behind ← skipValue Schema.maxDepth key.type key.tag rest
  return ({ key, head := bs.take (bs.length - rest.length)
            value := rest.take (rest.length - behind.length) }, behind)

/-- As many fields of a row at most; there may be no octets behind them. -/
def takeParts : Nat → Bytes → Except Fault (List Part)
  | _, [] => .ok []
  | 0, _ => fail .overrun
  | count + 1, bs => do
    let (p, rest) ← takePart bs
    return p :: (← takeParts count rest)

/-- The fields of a row. Each takes at least one octet. -/
def parts (bs : Bytes) : Except Fault (List Part) := takeParts bs.length bs

theorem takePart_eq_ok {bs rest : Bytes} {p : Part} :
    takePart bs = .ok (p, rest) ↔ p.IsWhole Schema.maxDepth ∧ bs = p.octets ++ rest := by
  have htake : ∀ used more : Bytes,
      (used ++ more).take ((used ++ more).length - more.length) = used := by
    intro used more
    rw [List.length_append, Nat.add_sub_cancel, List.take_left]
  constructor
  · intro h
    obtain ⟨⟨key, tail⟩, hkey, h⟩ := bind_eq_ok.mp h
    obtain ⟨behind, hskip, h⟩ := bind_eq_ok.mp h
    obtain ⟨head, rfl, hhead⟩ := local_takeKey _ _ _ hkey
    obtain ⟨value, rfl, hspells⟩ := exists_of_skipValue hskip
    have hhere := hhead []
    rw [List.append_nil] at hhere
    simp only [htake] at h
    cases h
    exact ⟨⟨hhere, hspells⟩, (List.append_assoc _ _ _).symm⟩
  · rintro ⟨hwhole, rfl⟩
    rw [Part.octets, List.append_assoc]
    refine bind_eq_ok.mpr ⟨_, local_takeKey.append hwhole.head _, ?_⟩
    refine bind_eq_ok.mpr ⟨_, skipValue_append hwhole.value rest, ?_⟩
    simp only [htake]
    rfl

theorem takeParts_nil {count : Nat} {ps : List Part} :
    takeParts count [] = .ok ps ↔ [] = octetsOf ps ∧ ∀ p ∈ ps, p.IsWhole Schema.maxDepth := by
  rw [takeParts]
  constructor
  · intro h
    cases h
    exact ⟨rfl, List.forall_mem_nil _⟩
  · rintro ⟨hnil, hwhole⟩
    have hle := length_le_length_octetsOf fun p hp => (hwhole p hp).head
    rw [← hnil] at hle
    rw [List.length_eq_zero_iff.mp (Nat.le_zero.mp hle)]

theorem takeParts_eq_ok {count : Nat} {bs : Bytes} {ps : List Part} (hcount : bs.length ≤ count) :
    takeParts count bs = .ok ps ↔
      bs = octetsOf ps ∧ ∀ p ∈ ps, p.IsWhole Schema.maxDepth := by
  induction count generalizing bs ps with
  | zero =>
    obtain rfl := List.length_eq_zero_iff.mp (Nat.le_zero.mp hcount)
    exact takeParts_nil
  | succ count ih =>
    cases bs with
    | nil => exact takeParts_nil
    | cons b bs =>
      constructor
      · intro h
        obtain ⟨⟨p, rest⟩, hfirst, h⟩ := bind_eq_ok.mp h
        obtain ⟨qs, hrest, h⟩ := bind_eq_ok.mp h
        cases h
        obtain ⟨hwhole, hbs⟩ := takePart_eq_ok.mp hfirst
        have hpos := length_head_pos hwhole.head
        have hlength := congrArg List.length hbs
        rw [List.length_append] at hlength
        obtain ⟨rfl, hothers⟩ := (ih (by omega)).mp hrest
        exact ⟨hbs, List.forall_mem_cons.mpr ⟨hwhole, hothers⟩⟩
      · rintro ⟨hbs, hwhole⟩
        cases ps with
        | nil => cases hbs
        | cons p ps =>
          obtain ⟨hfirst, hothers⟩ := List.forall_mem_cons.mp hwhole
          have hpos := length_head_pos hfirst.head
          have hlength := congrArg List.length hbs
          rw [octetsOf_cons, List.length_append] at hlength
          have hrest := (ih (by omega)).mpr ⟨rfl, hothers⟩
          rw [takeParts.eq_3 _ _ (by simp)]
          refine bind_eq_ok.mpr ⟨_, takePart_eq_ok.mpr ⟨hfirst, hbs⟩, ?_⟩
          exact bind_eq_ok.mpr ⟨_, hrest, rfl⟩

/-- Octets are a row of whole fields in at most one way. -/
theorem parts_eq_ok {bs : Bytes} {ps : List Part} :
    parts bs = .ok ps ↔ bs = octetsOf ps ∧ ∀ p ∈ ps, p.IsWhole Schema.maxDepth :=
  takeParts_eq_ok (Nat.le_refl _)

theorem parts_octets {p : Part} (h : p.IsWhole Schema.maxDepth) : parts p.octets = .ok [p] := by
  refine parts_eq_ok.mpr ⟨?_, List.forall_mem_singleton.mpr h⟩
  rw [octetsOf_cons, octetsOf_nil, List.append_nil]

/-- The parts of a row go on behind those of its front. -/
theorem parts_append {front back : Bytes} {ps rs : List Part} (hfront : parts front = .ok ps) :
    parts (front ++ back) = .ok rs ↔ ∃ qs, parts back = .ok qs ∧ rs = ps ++ qs := by
  obtain ⟨rfl, hps⟩ := parts_eq_ok.mp hfront
  simp only [parts_eq_ok]
  constructor
  · rintro ⟨hrow, hrs⟩
    clear hfront
    induction ps generalizing rs with
    | nil => exact ⟨rs, ⟨hrow, hrs⟩, rfl⟩
    | cons p ps ih =>
      obtain ⟨hp, hothers⟩ := List.forall_mem_cons.mp hps
      rw [octetsOf_cons, List.append_assoc] at hrow
      have htake := takePart_eq_ok.mpr ⟨hp, hrow.symm⟩
      cases rs with
      | nil =>
        have hpos := length_head_pos hp.head
        have hlength := congrArg List.length hrow
        simp only [octetsOf_nil, List.length_append, List.length_nil] at hlength
        omega
      | cons r rs =>
        obtain ⟨hr, hrs⟩ := List.forall_mem_cons.mp hrs
        rw [octetsOf_cons, takePart_eq_ok.mpr ⟨hr, rfl⟩] at htake
        obtain ⟨rfl, htail⟩ := Prod.mk.inj (Except.ok.inj htake)
        obtain ⟨qs, hqs, rfl⟩ := ih hothers htail.symm hrs
        exact ⟨qs, hqs, rfl⟩
  · rintro ⟨qs, ⟨rfl, hqs⟩, rfl⟩
    exact ⟨(octetsOf_append ps qs).symm, List.forall_mem_append.mpr ⟨hps, hqs⟩⟩

end CertRegistry.Wire
