import CertRegistry.Json.Cursor
import CertRegistry.Text.Shortest

/-!
# Numbers in JSON

A number without fraction and exponent is kept exactly if it fits 64 bits; all others become
binary fractions. Their digits are taken up as far as 64 bits hold them, and the rest only
moves the point.
-/

namespace CertRegistry.Json

inductive Number where
  | natural (n : Nat)
  /-- The number `-n`. -/
  | negative (n : Nat)
  | fraction (x : Float)
  deriving DecidableEq

/-- The largest number of 64 bits. -/
def maxWord : Nat := UInt64.size - 1

/-- The highest of 64 bits, which signs numbers. -/
def signBit : Nat := 0x8000000000000000

/-- Takes up digits while the result fits 64 bits, and counts them. -/
def takeUp (n : Nat) : List Nat → Nat × Nat
  | [] => (n, 0)
  | d :: ds =>
    if maxWord < n * 10 + d then (n, 0)
    else
      let (m, count) := takeUp (n * 10 + d) ds
      (m, count + 1)

/-- The binary fraction `±significand * 10 ^ exponent`, unless that is too large. The power of
ten is applied in steps of at most 308. -/
def fraction? (negative : Bool) (significand : Nat) (exponent : Int) : Option Float :=
  let x := (UInt64.ofNat significand).toFloat
  let power (k : Nat) : Float := Float.ofScientific 1 false k
  let magnitude : Option Float :=
    if 308 < exponent then if significand = 0 then some x else none
    else if 0 ≤ exponent then
      let y := x * power exponent.toNat
      if y.isInf then none else some y
    else if -308 ≤ exponent then some (x / power (-exponent).toNat)
    else if -616 ≤ exponent then some (x / power 308 / power (-exponent - 308).toNat)
    else some 0
  magnitude.map fun y => if negative then -y else y

/-- How many of the digits make up a number beyond `limit`, if all of them do. -/
def digitsBeyond? (limit n : Nat) : List Nat → Option Nat
  | [] => none
  | d :: ds =>
    if limit < n * 10 + d then some 1 else (digitsBeyond? limit (n * 10 + d) ds).map (· + 1)

def digitsValue (digits : List Nat) : Nat := digits.foldl (fun n d => n * 10 + d) 0

def finish (negative : Bool) (significand : Nat) (exponent : Int) (cur : Cursor) :
    Except Fault (Number × Cursor) :=
  match fraction? negative significand exponent with
  | some x => .ok (.fraction x, cur)
  | none => cur.fail .numberOutOfRange

/-- Reads the exponent after its letter. -/
def readExponent (negative : Bool) (significand : Nat) (scale : Int) (cur : Cursor) :
    Except Fault (Number × Cursor) :=
  let (down, cur) := match cur.rest with
    | '+' :: _ => (false, cur.pass '+')
    | '-' :: _ => (true, cur.pass '-')
    | _ => (false, cur)
  let (digits, after) := takeDigits cur
  if digits = [] then
    if cur.rest = [] then cur.fail .endOfValue else cur.failAhead .invalidNumber
  else
    match digitsBeyond? 2147483647 0 digits with
    | some count =>
      if significand ≠ 0 ∧ ¬ down then
        ({ cur with column := cur.column + count } : Cursor).fail .numberOutOfRange
      else .ok (.fraction (if negative then -0.0 else 0.0), after)
    | none =>
      let e : Int := digitsValue digits
      finish negative significand (if down then scale - e else scale + e) after

/-- Reads an exponent if one follows. -/
def readTail (negative : Bool) (significand : Nat) (scale : Int) (cur : Cursor) :
    Except Fault (Number × Cursor) :=
  match cur.rest with
  | 'e' :: _ => readExponent negative significand scale (cur.pass 'e')
  | 'E' :: _ => readExponent negative significand scale (cur.pass 'E')
  | _ => finish negative significand scale cur

/-- Reads the digits after the point, and what follows them. -/
def readDecimals (negative : Bool) (significand : Nat) (scale : Int) (cur : Cursor) :
    Except Fault (Number × Cursor) :=
  let (digits, after) := takeDigits cur
  if digits = [] then
    if cur.rest = [] then cur.fail .endOfValue else cur.failAhead .invalidNumber
  else
    let (significand, count) := takeUp significand digits
    readTail negative significand (scale - count) after

/-- The number that digits alone spell. -/
def wholeNumber (negative : Bool) (n : Nat) : Number :=
  if ¬ negative then .natural n
  else if n = 0 ∨ signBit < n then .fraction (-(UInt64.ofNat n).toFloat)
  else .negative n

/-- The number whose digits follow, after its sign. -/
def readNumber (negative : Bool) (cur : Cursor) : Except Fault (Number × Cursor) :=
  let (digits, after) := takeDigits cur
  match digits with
  | [] => if cur.rest = [] then cur.fail .endOfValue else cur.failAhead .invalidNumber
  | 0 :: _ :: _ => (cur.pass '0').failAhead .invalidNumber
  | _ =>
    let (significand, count) := takeUp 0 digits
    let scale : Int := digits.length - count
    match after.rest with
    | '.' :: _ => readDecimals negative significand scale (after.pass '.')
    | 'e' :: _ | 'E' :: _ => readTail negative significand scale after
    | _ =>
      if count = digits.length then .ok (wholeNumber negative significand, after)
      else finish negative significand scale after

/-- Skips an exponent after its letter. -/
def skipExponent (cur : Cursor) : Except Fault Cursor :=
  let cur := match cur.rest with
    | '+' :: _ => cur.pass '+'
    | '-' :: _ => cur.pass '-'
    | _ => cur
  let (digits, after) := takeDigits cur
  if digits = [] then cur.failAhead .invalidNumber else .ok after

/-- Skips the number whose digits follow, after its sign. -/
def skipNumber (cur : Cursor) : Except Fault Cursor :=
  let (digits, after) := takeDigits cur
  match digits with
  | [] => cur.failAhead .invalidNumber
  | 0 :: _ :: _ => (cur.pass '0').failAhead .invalidNumber
  | _ =>
    match after.rest with
    | '.' :: _ =>
      let point := after.pass '.'
      let (decimals, after) := takeDigits point
      if decimals = [] then point.failAhead .invalidNumber
      else
        match after.rest with
        | 'e' :: _ => skipExponent (after.pass 'e')
        | 'E' :: _ => skipExponent (after.pass 'E')
        | _ => .ok after
    | 'e' :: _ => skipExponent (after.pass 'e')
    | 'E' :: _ => skipExponent (after.pass 'E')
    | _ => .ok after

/-- The text of an exponent, with its sign and at least two digits. -/
def exponentText (e : Int) : String :=
  (if e < 0 then "e-" else "e+") ++ (if e.natAbs < 10 then "0" else "") ++ toString e.natAbs

/-- The text of a positive decimal: plain from a hundred thousandth up to sixteen digits before
the point, otherwise with an exponent. -/
def decimalText (d : Text.Decimal) : String :=
  let digits := toString d.digits
  let length : Int := digits.length
  let point := length + d.exponent
  let cut (n : Nat) := String.ofList (digits.toList.take n) ++ "." ++
    String.ofList (digits.toList.drop n)
  if 0 ≤ d.exponent ∧ point ≤ 16 then
    digits ++ String.ofList (List.replicate d.exponent.toNat '0') ++ ".0"
  else if 0 < point ∧ point ≤ 16 then cut point.toNat
  else if -5 < point ∧ point ≤ 0 then
    "0." ++ String.ofList (List.replicate (-point).toNat '0') ++ digits
  else (if digits.length = 1 then digits else cut 1) ++ exponentText (point - 1)

/-- The shortest text of a finite binary fraction. -/
def fractionText (x : Float) : String :=
  let bits := x.toBits.toNat
  let mark := if signBit ≤ bits then "-" else ""
  if bits % signBit = 0 then mark ++ "0.0"
  else mark ++ decimalText ((Text.Binary.ofBits (bits % signBit)).shortest.trimmed 20)

def Number.text : Number → String
  | natural n => toString n
  | negative n => "-" ++ toString n
  | fraction x => fractionText x

end CertRegistry.Json
