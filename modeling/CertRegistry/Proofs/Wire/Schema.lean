import CertRegistry.Proofs.Wire.Varint
import CertRegistry.Wire.Schema

/-!
# Reading what was written: records

A record type is lawful when its fields have tags of their own, do not touch each other, and hold
what codecs read back. Then the record is read back from what was written, in front of any octets
and as deep in other records as the bound on nesting allows. The one condition on the record is
that the octets of each value of a field can be counted in 64 bits, since its length goes before it.
-/

namespace CertRegistry.Wire

/-- Reading goes on from one record and octets to another by single fields. -/
inductive Reads {M : Type} (step : M → Bytes → Except Fault (M × Bytes)) :
    M → Bytes → M → Bytes → Prop where
  | done (m : M) (bs : Bytes) : Reads step m bs m bs
  | more {m m₁ m₂ : M} {bs bs₁ bs₂ : Bytes} (first : step m bs = .ok (m₁, bs₁))
      (rest : Reads step m₁ bs₁ m₂ bs₂) : Reads step m bs m₂ bs₂

namespace Reads

variable {M : Type} {step : M → Bytes → Except Fault (M × Bytes)}

theorem trans {m₁ m₂ m₃ : M} {bs₁ bs₂ bs₃ : Bytes} (h : Reads step m₁ bs₁ m₂ bs₂)
    (h' : Reads step m₂ bs₂ m₃ bs₃) : Reads step m₁ bs₁ m₃ bs₃ := by
  induction h with
  | done => exact h'
  | more first _ ih => exact .more first (ih h')

/-- What each step keeps is kept by all of them. -/
theorem preserves {P : M → Bytes → Prop}
    (hstep : ∀ m bs m' bs', step m bs = .ok (m', bs') → P m bs → P m' bs') {m m' : M}
    {bs bs' : Bytes} (h : Reads step m bs m' bs') (hm : P m bs) : P m' bs' := by
  induction h with
  | done => exact hm
  | more first _ ih => exact ih (hstep _ _ _ _ first hm)

end Reads

/-- Each step takes at least one octet. -/
def Consumes {M : Type} (step : M → Bytes → Except Fault (M × Bytes)) : Prop :=
  ∀ m bs m' bs', step m bs = .ok (m', bs') → bs'.length < bs.length

theorem Reads.length_le {M : Type} {step : M → Bytes → Except Fault (M × Bytes)}
    (hstep : Consumes step) {m m' : M} {bs bs' : Bytes} (h : Reads step m bs m' bs') :
    bs'.length ≤ bs.length := by
  induction h with
  | done => exact Nat.le_refl _
  | more first _ ih =>
    have := hstep _ _ _ _ first
    omega

/-- Reading with a bound on the number of fields is reading field by field up to the stop. -/
theorem readUntil_eq_ok {M : Type} {step : M → Bytes → Except Fault (M × Bytes)}
    (hstep : Consumes step) {stop count : Nat} {m m' : M} {bs rest : Bytes}
    (hcount : bs.length ≤ stop + count) :
    readUntil step stop count m bs = .ok (m', rest) ↔
      Reads step m bs m' rest ∧ rest.length = stop := by
  induction count generalizing m bs with
  | zero =>
    rw [readUntil]
    constructor
    · intro h
      split at h
      · next hlen =>
        cases h
        exact ⟨.done _ _, hlen⟩
      · cases h
    · rintro ⟨hreads, hlen⟩
      cases hreads with
      | done => rw [if_pos hlen]
      | more first hrest =>
        have hless := hstep _ _ _ _ first
        have hle := hrest.length_le hstep
        omega
  | succ count ih =>
    rw [readUntil]
    by_cases hstop : bs.length = stop
    · rw [if_pos hstop]
      constructor
      · intro h
        cases h
        exact ⟨.done _ _, hstop⟩
      · rintro ⟨hreads, hlen⟩
        cases hreads with
        | done => rfl
        | more first hrest =>
          have hless := hstep _ _ _ _ first
          have hle := hrest.length_le hstep
          omega
    · rw [if_neg hstop]
      constructor
      · intro h
        split at h
        · cases h
        · obtain ⟨⟨m₁, bs₁⟩, hfirst, h⟩ := bind_eq_ok.mp h
          have hless := hstep _ _ _ _ hfirst
          obtain ⟨hreads, hlen⟩ := (ih (by omega)).mp h
          exact ⟨.more hfirst hreads, hlen⟩
      · rintro ⟨hreads, hlen⟩
        cases hreads with
        | done => exact absurd hlen hstop
        | more first hrest =>
          have hless := hstep _ _ _ _ first
          have hle := hrest.length_le hstep
          rw [if_neg (by omega)]
          exact bind_eq_ok.mpr ⟨_, first, (ih (by omega)).mpr ⟨hrest, hlen⟩⟩

/-! ## Codecs -/

namespace Codec

variable {α : Type} (c : Codec α)

/-- Reading a value never gives octets back. -/
def Shrinks : Prop :=
  ∀ depth start bs v rest, c.update depth start bs = .ok (v, rest) → rest.length ≤ bs.length

/-- A written value is read back where records may nest `level` deep. -/
def RoundTrips (level : Nat) : Prop :=
  ∀ depth v rest, level ≤ depth → (c.put v).length < UInt64.size →
    c.update depth c.blank (c.put v ++ rest) = .ok (v, rest)

theorem RoundTrips.mono {c : Codec α} {level level' : Nat} (h : c.RoundTrips level)
    (hle : level ≤ level') : c.RoundTrips level' :=
  fun depth v rest hdepth => h depth v rest (Nat.le_trans hle hdepth)

end Codec

/-- Storing values one by one turns one content of a slot into another, and none of them extends
a value before it. -/
def Slot.Fills {α β : Type} (slot : Slot α β) (blank : α) : β → List α → β → Prop
  | b, [], c => b = c
  | b, v :: vs, c => (slot.current b).getD blank = blank ∧ Fills slot blank (slot.store b v) vs c

/-! ## Fields -/

namespace Field

variable {M : Type}

/-- What a field needs in order to be read back. -/
structure Lawful (f : Field M) (level : Nat) : Prop where
  tag_pos : 0 < f.tag
  tag_lt : 8 * f.tag + 7 < UInt32.size
  get_set : ∀ m b, f.get (f.set m b) = b
  set_set : ∀ m b c, f.set (f.set m b) c = f.set m c
  set_get : ∀ m, f.set m (f.get m) = m
  shrinks : f.codec.Shrinks
  roundTrips : f.codec.RoundTrips level
  fills : ∀ b, f.slot.Fills f.codec.blank f.slot.empty (f.slot.values b) b

theorem Lawful.mono {f : Field M} {level level' : Nat} (h : f.Lawful level)
    (hle : level ≤ level') : f.Lawful level' :=
  { h with roundTrips := h.roundTrips.mono hle }

/-- Whether the octets of each value in the field can be counted in 64 bits, as lengths are. -/
def Fits (f : Field M) (m : M) : Prop :=
  ∀ v ∈ f.slot.values (f.get m), (f.codec.put v).length < UInt64.size

theorem update_put {f : Field M} {level depth : Nat} (hf : f.Lawful level) (hdepth : level ≤ depth)
    {m : M} {v : f.α} (rest : Bytes) (hv : (f.codec.put v).length < UInt64.size)
    (hblank : (f.slot.current (f.get m)).getD f.codec.blank = f.codec.blank) :
    f.update depth f.codec.type m (f.codec.put v ++ rest) =
      .ok (f.set m (f.slot.store (f.get m) v), rest) := by
  simp only [update, ne_eq, not_true_eq_false, if_false, hblank,
    hf.roundTrips depth v rest hdepth hv, bind, Except.bind, pure, Except.pure]

theorem length_update {f : Field M} {depth : Nat} {type : WireType} (hf : f.codec.Shrinks)
    {m m' : M} {bs rest : Bytes} (h : f.update depth type m bs = .ok (m', rest)) :
    rest.length ≤ bs.length := by
  unfold update at h
  split at h
  · cases h
  · obtain ⟨⟨v, tail⟩, hread, h⟩ := bind_eq_ok.mp h
    cases h
    exact hf _ _ _ _ _ hread

end Field

/-! ## Record types -/

namespace Schema

variable {M : Type}

/-- What a record type needs in order to be read back. -/
structure Lawful (S : Schema M) (level : Nat) : Prop where
  fields : ∀ f ∈ S.fields, f.Lawful level
  /-- Tags differ, and to set a field leaves those after it alone. -/
  apart : S.fields.Pairwise fun f g => f.tag ≠ g.tag ∧ ∀ m b, g.get (f.set m b) = g.get m
  blank : ∀ f ∈ S.fields, f.get S.blank = f.slot.empty
  /-- A record is no more than its fields. -/
  rebuild : ∀ m, S.fields.foldl (fun acc f => f.set acc (f.get m)) S.blank = m

/-- Whether the octets of each value in a record can be counted. -/
def Fits (S : Schema M) (m : M) : Prop := ∀ f ∈ S.fields, f.Fits m

theorem fits_of_length_encode {S : Schema M} {m : M} (h : (S.encode m).length < UInt64.size) :
    S.Fits m := by
  intro f hf v hv
  have hvalue : f.codec.put v <:+: S.encode m := by
    obtain ⟨before, after, hvalues⟩ := List.append_of_mem hv
    obtain ⟨front, back, hfields⟩ := List.append_of_mem hf
    refine ⟨front.flatMap (·.put m) ++ before.flatMap f.putValue ++
      Key.put { tag := f.tag, type := f.codec.type },
      after.flatMap f.putValue ++ back.flatMap (·.put m), ?_⟩
    simp [encode, hfields, Field.put, hvalues, Field.putValue]
  exact Nat.lt_of_le_of_lt hvalue.length_le h

section Reading

variable {S : Schema M} {level depth : Nat}

theorem field?_of_mem (hS : S.Lawful level) {f : Field M} (hf : f ∈ S.fields) :
    S.field? f.tag = some f := by
  obtain ⟨front, back, hfields⟩ := List.append_of_mem hf
  have happart := hS.apart
  rw [hfields, List.pairwise_append] at happart
  rw [field?, hfields, List.find?_append, List.find?_eq_none.mpr]
  · simp
  · intro g hg
    simpa using (happart.2.2 g hg f (by simp)).1

theorem consumes_readField (hS : S.Lawful level) : Consumes (S.readField depth) := by
  intro m bs m' bs' h
  obtain ⟨⟨key, rest⟩, hkey, h⟩ := bind_eq_ok.mp h
  have hless := length_takeKey hkey
  simp only at h
  split at h
  · next f hf =>
    have := Field.length_update (hS.fields f (List.mem_of_find?_eq_some hf)).shrinks
      (mapError_eq_ok.mp h)
    omega
  · obtain ⟨tail, hskip, h⟩ := bind_eq_ok.mp h
    cases h
    have := length_skipValue hskip
    omega

/-- The values of a field are read into it one after the other. -/
theorem reads_values (hS : S.Lawful level) (hdepth : level ≤ depth) {f : Field M}
    (hf : f ∈ S.fields) (rest : Bytes) {c : f.β} (vs : List f.α) {acc : M}
    (hfills : f.slot.Fills f.codec.blank (f.get acc) vs c)
    (hfits : ∀ v ∈ vs, (f.codec.put v).length < UInt64.size) :
    Reads (S.readField depth) acc (vs.flatMap f.putValue ++ rest) (f.set acc c) rest := by
  have law := hS.fields f hf
  induction vs generalizing acc with
  | nil =>
    have hsame : f.get acc = c := hfills
    rw [← hsame, law.set_get]
    exact .done _ _
  | cons v vs ih =>
    obtain ⟨hblank, hfills⟩ := hfills
    have hread : S.readField depth acc ((v :: vs).flatMap f.putValue ++ rest) =
        .ok (f.set acc (f.slot.store (f.get acc) v), vs.flatMap f.putValue ++ rest) := by
      rw [List.flatMap_cons, Field.putValue]
      simp only [List.append_assoc, readField]
      refine bind_eq_ok.mpr ⟨_, takeKey_put _ law.tag_pos law.tag_lt, ?_⟩
      simp only [field?_of_mem hS hf]
      rw [Field.update_put law hdepth _ (hfits v (by simp)) hblank]
      rfl
    have hfills' : f.slot.Fills f.codec.blank
        (f.get (f.set acc (f.slot.store (f.get acc) v))) vs c := by
      rw [law.get_set]
      exact hfills
    have hrest := ih hfills' fun w hw => hfits w (by simp [hw])
    rw [law.set_set] at hrest
    exact .more hread hrest

/-- Fields that are empty so far are read one after the other. -/
theorem reads_fields (hS : S.Lawful level) (hdepth : level ≤ depth) (m : M) (rest : Bytes)
    (fs : List (Field M)) (hmem : ∀ f ∈ fs, f ∈ S.fields)
    (hapart : fs.Pairwise fun f g => f.tag ≠ g.tag ∧ ∀ m b, g.get (f.set m b) = g.get m)
    (hfits : ∀ f ∈ fs, f.Fits m) {acc : M} (hempty : ∀ f ∈ fs, f.get acc = f.slot.empty) :
    Reads (S.readField depth) acc (fs.flatMap (·.put m) ++ rest)
      (fs.foldl (fun acc f => f.set acc (f.get m)) acc) rest := by
  induction fs generalizing acc with
  | nil => exact .done _ _
  | cons f fs ih =>
    have hf := hmem f (by simp)
    have law := hS.fields f hf
    obtain ⟨hfirst, hothers⟩ := List.pairwise_cons.mp hapart
    have hfills : f.slot.Fills f.codec.blank (f.get acc) (f.slot.values (f.get m)) (f.get m) := by
      rw [hempty f (by simp)]
      exact law.fills _
    have hempty' : ∀ g ∈ fs, g.get (f.set acc (f.get m)) = g.slot.empty := by
      intro g hg
      rw [(hfirst g hg).2, hempty g (by simp [hg])]
    have hvalues := reads_values hS hdepth hf (fs.flatMap (·.put m) ++ rest) _ hfills
      (hfits f (by simp))
    have hrest := ih (fun g hg => hmem g (by simp [hg])) hothers
      (fun g hg => hfits g (by simp [hg])) hempty'
    rw [List.flatMap_cons, List.append_assoc]
    exact hvalues.trans hrest

theorem readFields_encode (hS : S.Lawful level) (hdepth : level ≤ depth) {m : M} (rest : Bytes)
    (hfits : S.Fits m) :
    S.readFields depth rest.length S.blank (S.encode m ++ rest) = .ok (m, rest) := by
  rw [readFields, readUntil_eq_ok (consumes_readField hS) (by simp)]
  have hreads := reads_fields hS hdepth m rest S.fields (fun f hf => hf) hS.apart hfits hS.blank
  rw [hS.rebuild] at hreads
  exact ⟨hreads, rfl⟩

theorem decode_encode_of_fits (hS : S.Lawful level) (hlevel : level ≤ maxDepth) {m : M}
    (hfits : S.Fits m) : S.decode (S.encode m) = .ok m := by
  have hread := readFields_encode hS hlevel [] hfits
  rw [List.append_nil] at hread
  simp only [decode, ← List.length_nil (α := UInt8), hread, Functor.map, Except.map]

/-- Whether records of a type are read back, so that no two of them are written alike. -/
structure Faithful (S : Schema M) : Prop where
  decode_encode : ∀ m, S.Fits m → S.decode (S.encode m) = .ok m
  encode_injective : ∀ m m', S.Fits m → S.Fits m' → S.encode m = S.encode m' → m = m'

theorem faithful_of_lawful (hS : S.Lawful level) (hlevel : level ≤ maxDepth) : S.Faithful where
  decode_encode _ hfits := decode_encode_of_fits hS hlevel hfits
  encode_injective m m' hm hm' heq := by
    have hread := decode_encode_of_fits hS hlevel hm
    rw [heq, decode_encode_of_fits hS hlevel hm'] at hread
    exact (Except.ok.inj hread).symm

theorem shrinks_codec (hS : S.Lawful level) : S.codec.Shrinks := by
  intro depth start bs v rest h
  cases depth with
  | zero => cases h
  | succ depth =>
    obtain ⟨⟨n, body⟩, hlength, h⟩ := bind_eq_ok.mp h
    have hless := length_takeVarint hlength
    simp only at h
    split at h
    · cases h
    · have hstep : Consumes (S.readField depth) := consumes_readField hS
      have hle := ((readUntil_eq_ok hstep (by omega)).mp h).1.length_le hstep
      omega

/-- A record in a field of another one is read back one level further down. -/
theorem roundTrips_codec (hS : S.Lawful level) : S.codec.RoundTrips (level + 1) := by
  intro depth m rest hdepth hlen
  cases depth with
  | zero => omega
  | succ depth =>
    simp only [codec, List.length_append] at hlen
    have hread := readFields_encode hS (show level ≤ depth by omega) rest
      (fits_of_length_encode (S := S) (m := m) (by omega))
    simp only [codec, List.append_assoc]
    refine bind_eq_ok.mpr ⟨_, takeVarint_putVarint (n := (S.encode m).length) _ (by omega), ?_⟩
    simp only
    rw [if_neg (by simp),
      show (S.encode m ++ rest).length - (S.encode m).length = rest.length by simp]
    exact hread

end Reading

end Schema

end CertRegistry.Wire
