/-!
# Arithmetic modulo a number

Inverses by the extended Euclidean algorithm and powers by repeated squaring, in `Fin m`.
-/

namespace CertRegistry.Modular

variable {m : Nat}

/-- The residue of a number. Any residue shows that the modulus is not zero. -/
def residue (a : Fin m) (n : Nat) : Fin m := ⟨n % m, Nat.mod_lt n a.pos⟩

/-- One run of Euclid on `r₀` and `r₁`, carrying factors with `rᵢ = tᵢ * a` modulo `m`. -/
def euclid (r₀ r₁ : Nat) (t₀ t₁ : Fin m) : Fin m :=
  if r₁ = 0 then t₀
  else euclid r₁ (r₀ % r₁) t₁ (t₀ - residue t₀ (r₀ / r₁) * t₁)
termination_by r₁
decreasing_by exact Nat.mod_lt _ (Nat.pos_of_ne_zero ‹_›)

/-- The inverse of a unit. -/
def inverse (a : Fin m) : Fin m := euclid m a.val (residue a 0) (residue a 1)

/-- The power with exponent `k`, read from the lowest `bits` bits of `k`. -/
def power (a : Fin m) : Nat → Nat → Fin m
  | 0, _ => residue a 1
  | bits + 1, k =>
    let square := power (a * a) bits (k / 2)
    if k % 2 = 1 then square * a else square

end CertRegistry.Modular
