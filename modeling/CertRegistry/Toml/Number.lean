import CertRegistry.Toml.Text

/-!
# Numbers, dates and times in TOML

Whole numbers have 64 bits with a sign. Of numbers with a point or an exponent, and of dates
and times, only the form and the range are looked at.
-/

namespace CertRegistry.Toml

/-- The values of the digits of a base, in which single underscores may stand between two
digits. -/
def digits? (base : Nat) (cs : List Char) : Option (List Nat) := do
  let groups := cs.splitOn '_'
  if groups.any (· = []) then none
  else groups.flatten.mapM fun c => (Text.hexDigit? c).filter (· < base)

/-- One more than the largest whole number. -/
def integerBound : Nat := 0x8000000000000000

def valueOf (base : Nat) (digits : List Nat) : Nat := digits.foldl (fun n d => n * base + d) 0

/-- A number without a sign: zero, or digits of which the first is not zero. -/
def plainNatural? (cs : List Char) : Option Nat :=
  if cs.head? = some '0' ∧ cs ≠ ['0'] then none else (digits? 10 cs).map (valueOf 10)

/-- The sign of a number, if it has one, and the rest. -/
def splitSign : List Char → Bool × List Char
  | '-' :: rest => (true, rest)
  | '+' :: rest => (false, rest)
  | cs => (false, cs)

/-- A whole number, in decimal digits or, without a sign, in those of another base. -/
def integer? (cs : List Char) : Option Int :=
  let inBase (base : Nat) (digits : List Char) : Option Int :=
    (((digits? base digits).map (valueOf base)).filter (· < integerBound)).map Int.ofNat
  match cs with
  | '0' :: 'x' :: rest => inBase 16 rest
  | '0' :: 'o' :: rest => inBase 8 rest
  | '0' :: 'b' :: rest => inBase 2 rest
  | _ => do
    let (negative, digits) := splitSign cs
    let n ← plainNatural? digits
    if negative then if n ≤ integerBound then some (-n) else none
    else if n < integerBound then some n else none

/-- Whether `n * 10 ^ exponent` is too large for a binary fraction of 64 bits. -/
def isBeyond (n : Nat) (exponent : Int) : Bool :=
  let size : Int := (toString n).length + exponent
  if n = 0 ∨ size < 300 then false
  else if 310 < size then true
  else
    let limit := Nat.pow 2 1024 - Nat.pow 2 970
    if 0 ≤ exponent then limit ≤ n * Nat.pow 10 exponent.toNat
    else limit * Nat.pow 10 (-exponent).toNat ≤ n

/-- Whether a token is a number with a point or an exponent. -/
def isReal (cs : List Char) : Bool :=
  let (negative, cs) := splitSign cs
  if cs = "inf".toList ∨ cs = "nan".toList then true
  else
    let (mantissa, exponent) := cs.span fun c => c ≠ 'e' && c ≠ 'E'
    let (whole, decimals) := mantissa.span (· ≠ '.')
    let exponent? : Option Int := match exponent with
      | _ :: rest =>
        let (down, digits) := splitSign rest
        (digits? 10 digits).map fun ds => if down then -(valueOf 10 ds) else valueOf 10 ds
      | [] => some 0
    let decimals? : Option (List Nat) := match decimals with
      | _ :: rest => digits? 10 rest
      | [] => some []
    match plainNatural? whole, decimals?, exponent? with
    | some n, some ds, some e =>
      (decimals ≠ [] || exponent ≠ []) &&
        (negative || !isBeyond (n * Nat.pow 10 ds.length + valueOf 10 ds) (e - ds.length))
    | _, _, _ => false

/-- The number that exactly two digits spell. -/
def pair? (a b : Char) : Option Nat :=
  if a.isDigit ∧ b.isDigit then some ((a.toNat - 48) * 10 + (b.toNat - 48)) else none

def daysOf (year month : Nat) : Nat :=
  if month = 2 then if year % 4 = 0 ∧ (year % 100 ≠ 0 ∨ year % 400 = 0) then 29 else 28
  else if month ∈ [4, 6, 9, 11] then 30
  else 31

/-- Goes on past a date. -/
def passDate? : List Char → Option (List Char)
  | a :: b :: c :: d :: '-' :: e :: f :: '-' :: g :: h :: rest => do
    let year := (← pair? a b) * 100 + (← pair? c d)
    let month ← pair? e f
    let day ← pair? g h
    if 1 ≤ month ∧ month ≤ 12 ∧ 1 ≤ day ∧ day ≤ daysOf year month then some rest else none
  | _ => none

/-- Goes on past an hour and a minute. -/
def passMinute? : List Char → Option (List Char)
  | a :: b :: ':' :: c :: d :: rest => do
    if (← pair? a b) < 24 ∧ (← pair? c d) < 60 then some rest else none
  | _ => none

/-- Goes on past a time of day. -/
def passTime? (cs : List Char) : Option (List Char) := do
  match ← passMinute? cs with
  | ':' :: a :: b :: rest =>
    if (← pair? a b) ≤ 60 then
      match rest with
      | '.' :: decimals =>
        if (decimals.head?.map Char.isDigit).getD false then some (decimals.dropWhile Char.isDigit)
        else none
      | _ => some rest
    else none
  | _ => none

/-- Whether the end of a token is a time zone or nothing. -/
def isZone (cs : List Char) : Bool :=
  match cs with
  | [] | ['Z'] | ['z'] => true
  | sign :: rest => (sign = '+' || sign = '-') && passMinute? rest = some []

/-- Whether a token is a time of day with or without a time zone. -/
def isZonedTime (cs : List Char) : Bool := ((passTime? cs).map isZone).getD false

/-- Whether a token is a date, a time of day or both. -/
def isMoment (cs : List Char) : Bool :=
  match passDate? cs with
  | some [] => true
  | some (mark :: time) => (mark = 'T' || mark = 't') && isZonedTime time
  | none => passTime? cs = some []

end CertRegistry.Toml
