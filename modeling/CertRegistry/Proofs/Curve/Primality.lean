import CertRegistry.Curve.Point
import CertRegistry.Proofs.Curve.Modular
import Mathlib.NumberTheory.LucasPrimality
import Mathlib.Tactic.Linarith

/-!
# The two moduli are prime

A number is prime if some residue has the order `number - 1`, which shows at the prime factors of
that order (Lucas). Those factors are shown to be prime in the same way (Pratt), down to ones that
are small enough to be tried.
-/

namespace CertRegistry.Curve

/-- Why a number is prime: the factors of its predecessor, with their multiplicities, and a residue
of that order. -/
structure Certificate where
  number : Nat
  residue : Nat
  factors : List Nat

namespace Certificate

/-- Whether the residue raised to a power is one. -/
def isOneAt (c : Certificate) (k : Nat) : Bool :=
  if h : 0 < c.number then
    let a : Fin c.number := ⟨c.residue % c.number, Nat.mod_lt _ h⟩
    (Modular.power a 256 k).val == 1
  else false

/-- Whether a number is small and has no divisors. -/
def isSmallPrime (q : Nat) : Bool :=
  2 ≤ q && q < 600 * 600 &&
    (List.range (min q 600)).all fun d => d < 2 || q < d * d || q % d ≠ 0

/-- Whether the factors, which are known or small primes, show the order of the residue. -/
def holds (known : List Nat) (c : Certificate) : Bool :=
  1 < c.number && c.number < 2 ^ 256 && c.factors.prod = c.number - 1 &&
    c.factors.all (fun q => q ∈ known || isSmallPrime q) &&
    c.isOneAt (c.number - 1) && c.factors.all fun q => !c.isOneAt ((c.number - 1) / q)

/-- Whether each certificate holds, once those before it do. -/
def allHold : List Nat → List Certificate → Bool
  | _, [] => true
  | known, c :: rest => c.holds known && allHold (c.number :: known) rest

theorem isOneAt_iff {c : Certificate} {k : Nat} (hc : 1 < c.number) (hk : k < 2 ^ 256) :
    c.isOneAt k = true ↔ (c.residue : ZMod c.number) ^ k = 1 := by
  have : Fact (1 < c.number) := ⟨hc⟩
  have hpos : 0 < c.number := by omega
  have hpower := Modular.toRing_power (⟨c.residue % c.number, Nat.mod_lt _ hpos⟩ : Fin c.number)
    256 hk
  have hbase : Modular.toRing (⟨c.residue % c.number, Nat.mod_lt _ hpos⟩ : Fin c.number) =
      c.residue := ZMod.natCast_mod _ _
  have hone : Modular.toRing (⟨1, hc⟩ : Fin c.number) = 1 := Nat.cast_one
  rw [isOneAt, dif_pos hpos, beq_iff_eq, ← hbase, ← hpower, ← hone, Modular.toRing_inj,
    Fin.ext_iff]

theorem prime_of_isSmallPrime {q : Nat} (h : isSmallPrime q = true) : q.Prime := by
  simp only [isSmallPrime, Bool.and_eq_true, Bool.or_eq_true, List.all_eq_true, List.mem_range,
    decide_eq_true_eq] at h
  obtain ⟨⟨hlow, hhigh⟩, hdivide⟩ := h
  refine Nat.prime_def_le_sqrt.mpr ⟨hlow, fun d hd hroot hdvd => ?_⟩
  have hsquare : d * d ≤ q := Nat.le_sqrt.mp hroot
  have hsmall : d < min q 600 := lt_min (by nlinarith) (by nlinarith)
  rcases hdivide d hsmall with (h | h) | h
  · omega
  · omega
  · exact h (Nat.mod_eq_zero_of_dvd hdvd)

theorem prime_of_holds {known : List Nat} {c : Certificate} (hknown : ∀ q ∈ known, q.Prime)
    (h : c.holds known = true) : c.number.Prime := by
  simp only [holds, Bool.and_eq_true, Bool.or_eq_true, List.all_eq_true, decide_eq_true_eq,
    Bool.not_eq_true'] at h
  obtain ⟨⟨⟨⟨⟨hlow, hhigh⟩, hprod⟩, hprime⟩, hone⟩, hother⟩ := h
  have hsmall : ∀ k ≤ c.number - 1, k < 2 ^ 256 := fun k hk => by omega
  refine lucas_primality c.number c.residue ?_ fun q hq hdvd => ?_
  · exact (isOneAt_iff hlow (hsmall _ le_rfl)).mp hone
  · rw [← hprod] at hdvd
    obtain ⟨f, hf, hqf⟩ := (Prime.dvd_prod_iff hq.prime).mp hdvd
    have hfprime : f.Prime := (hprime f hf).elim (hknown f) prime_of_isSmallPrime
    obtain rfl : q = f := (Nat.prime_dvd_prime_iff_eq hq hfprime).mp hqf
    rw [ne_eq, ← isOneAt_iff hlow (hsmall _ (Nat.div_le_self _ _)), hother q hf]
    exact Bool.false_ne_true

theorem prime_of_allHold {known : List Nat} {cs : List Certificate}
    (hknown : ∀ q ∈ known, q.Prime) (h : allHold known cs = true) :
    ∀ c ∈ cs, c.number.Prime := by
  induction cs generalizing known with
  | nil => simp
  | cons c rest ih =>
    rw [allHold, Bool.and_eq_true] at h
    have hc := prime_of_holds hknown h.1
    refine List.forall_mem_cons.mpr ⟨hc, ih (List.forall_mem_cons.mpr ⟨hc, hknown⟩) h.2⟩

end Certificate

/-- Certificates up to that of the order of the curve. -/
def orderCertificates : List Certificate := [
  ⟨44706919, 6, [2, 3, 797, 9349]⟩,
  ⟨174723607534414371449, 3, [2, 2, 2, 17, 59, 4051, 120233, 44706919]⟩,
  ⟨4681609, 23, [2, 2, 2, 3, 97, 2011]⟩,
  ⟨107361793816595537, 3, [2, 2, 2, 2, 16699, 85831, 4681609]⟩,
  ⟨1627771, 3, [2, 3, 5, 29, 1871]⟩,
  ⟨297159362677, 2, [2, 2, 3, 3, 11, 461, 1627771]⟩,
  ⟨545358713, 5, [2, 2, 2, 41, 59, 28181]⟩,
  ⟨29047611873442575647497758179, 2, [2, 293, 305873, 545358713, 297159362677]⟩,
  ⟨341948486974166000522343609283189, 2,
    [2, 2, 3, 3, 3, 109, 29047611873442575647497758179]⟩,
  ⟨order, 7, [2, 2, 2, 2, 2, 2, 3, 149, 631, 107361793816595537, 174723607534414371449,
    341948486974166000522343609283189]⟩]

/-- Certificates up to that of the size of the field. -/
def fieldCertificates : List Certificate := [
  ⟨1206781, 10, [2, 2, 3, 5, 20113]⟩,
  ⟨7240687, 3, [2, 3, 1206781]⟩,
  ⟨107590001, 3, [2, 2, 2, 2, 5, 5, 5, 5, 7, 29, 53]⟩,
  ⟨255515944373312847190720520512484175977, 3,
    [2, 2, 2, 7, 7, 11, 1627, 2657, 4423, 41201, 96557, 7240687, 107590001]⟩,
  ⟨13331831, 13, [2, 5, 971, 1373]⟩,
  ⟨173378833005251801, 6, [2, 2, 2, 5, 5, 2621, 24809, 13331831]⟩,
  ⟨22149492674086928081353, 5, [2, 2, 2, 3, 5323, 173378833005251801]⟩,
  ⟨132896956044521568488119, 6, [2, 3, 22149492674086928081353]⟩,
  ⟨205115282021455665897114700593932402728804164701536103180137503955397371, 10,
    [2, 3, 5, 29, 29, 31, 7723, 132896956044521568488119,
      255515944373312847190720520512484175977]⟩,
  ⟨fieldSize, 3, [2, 3, 7, 13441,
    205115282021455665897114700593932402728804164701536103180137503955397371]⟩]

theorem prime_order : order.Prime := by
  have h : Certificate.allHold [] orderCertificates = true := by decide +kernel
  exact Certificate.prime_of_allHold (List.forall_mem_nil _) h
    (orderCertificates.getLast (by decide)) (List.getLast_mem _)

theorem prime_fieldSize : fieldSize.Prime := by
  have h : Certificate.allHold [] fieldCertificates = true := by decide +kernel
  exact Certificate.prime_of_allHold (List.forall_mem_nil _) h
    (fieldCertificates.getLast (by decide)) (List.getLast_mem _)

instance : Fact order.Prime := ⟨prime_order⟩

instance : Fact fieldSize.Prime := ⟨prime_fieldSize⟩

end CertRegistry.Curve
