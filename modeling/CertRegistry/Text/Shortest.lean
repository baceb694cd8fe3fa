/-!
# The shortest decimal of a binary fraction

Of the decimals that a finite binary fraction of 64 bits is the nearest to, the one with the
fewest digits, and among those the one closest to it.
-/

namespace CertRegistry.Text

/-- The number `digits * 10 ^ exponent`. -/
structure Decimal where
  digits : Nat
  exponent : Int
  deriving DecidableEq, Repr

/-- A positive number `mantissa * 2 ^ exponent` with the width of the gap below it. -/
structure Binary where
  mantissa : Nat
  exponent : Int
  /-- The next smaller number is only half as far away as the next larger one. -/
  narrowBelow : Bool

namespace Binary

/-- How many fractions there are from one power of two to the next. -/
def density : Nat := 0x10000000000000

/-- The parts of the positive fraction with the given bits, the sign bit aside. -/
def ofBits (bits : Nat) : Binary :=
  let fraction : Nat := bits % density
  let biased : Nat := bits / density % 2048
  if biased = 0 then { mantissa := fraction, exponent := -1074, narrowBelow := false }
  else
    { mantissa := density + fraction, exponent := (biased : Int) - 1075
      narrowBelow := fraction = 0 ∧ 1 < biased }

/-- Four times the number as a quotient, and the distances to the ends of the range of numbers
nearest to it in the same unit. -/
structure Range where
  numerator : Nat
  denominator : Nat
  below : Nat
  above : Nat

def range (b : Binary) : Range :=
  let factor := Nat.pow 2 (b.exponent - 2).toNat
  { numerator := 4 * b.mantissa * factor
    denominator := Nat.pow 2 (2 - b.exponent).toNat
    below := (if b.narrowBelow then 1 else 2) * factor
    above := 2 * factor }

/-- The same range in units of `10 ^ power`. -/
def Range.scale (r : Range) (power : Int) : Range :=
  let up := Nat.pow 10 (-power).toNat
  { numerator := r.numerator * up, denominator := r.denominator * Nat.pow 10 power.toNat
    below := r.below * up, above := r.above * up }

/-- The whole number nearest to the middle of a range, if any lies in it; the ends count as inside
when `closed` says so. -/
def Range.whole? (r : Range) (closed : Bool) : Option Nat :=
  let floor := r.numerator / r.denominator
  let rest := r.numerator % r.denominator
  let down := rest < r.below || (closed && rest == r.below)
  let gap := r.denominator - rest
  let up := rest ≠ 0 && (gap < r.above || (closed && gap == r.above))
  if down && up then
    some (if rest < gap ∨ (rest = gap ∧ floor % 2 = 0) then floor else floor + 1)
  else if down then some floor
  else if up then some (floor + 1)
  else none

/-- The power of ten of the leading digit, between the given bounds. -/
def leadingPower (r : Range) (power : Int) : Nat → Int
  | 0 => power
  | steps + 1 =>
    let s := r.scale power
    if s.denominator ≤ s.numerator then power else leadingPower r (power - 1) steps

/-- Looks for a decimal with `digits` digits, then with more. -/
def search (r : Range) (closed : Bool) (lead : Int) : Nat → Nat → Decimal
  | digits, 0 => { digits, exponent := 0 }
  | digits, tries + 1 =>
    let power := lead - (digits : Int) + 1
    match (r.scale power).whole? closed with
    | some n => if n = 0 then search r closed lead (digits + 1) tries else
        { digits := n, exponent := power }
    | none => search r closed lead (digits + 1) tries

def shortest (b : Binary) : Decimal :=
  let r := b.range
  search r (b.mantissa % 2 = 0) (leadingPower r 308 700) 1 20

end Binary

/-- A decimal without the zeros at its end. -/
def Decimal.trimmed (d : Decimal) : Nat → Decimal
  | 0 => d
  | steps + 1 =>
    if d.digits ≠ 0 ∧ d.digits % 10 = 0 then
      trimmed { digits := d.digits / 10, exponent := d.exponent + 1 } steps
    else d

end CertRegistry.Text
