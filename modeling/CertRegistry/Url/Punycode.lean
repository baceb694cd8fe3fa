/-!
# Punycode

Text with characters beyond ASCII in ASCII letters, digits and hyphens: first the ASCII
characters, then, in the order of their code points, where the others go. Each of those is a
distance from the one before, written as an integer of variable length whose digits depend on a
bias that follows the distances.

Writing an integer ends because each digit leaves less of it; reading one takes characters.
-/

namespace CertRegistry.Url.Punycode

/-- The sign of a digit: a letter for those below 26, a decimal digit for the others. -/
def digitChar (d : Nat) : Char :=
  if d < 26 then Char.ofNat (0x61 + d) else Char.ofNat (0x30 + (d - 26))

def digitValue? (c : Char) : Option Nat :=
  if c.isDigit then some (c.toNat - 0x30 + 26)
  else if c.isLower then some (c.toNat - 0x61)
  else if c.isUpper then some (c.toNat - 0x41)
  else none

/-- The number below which a digit at a place ends an integer. -/
def threshold (place bias : Nat) : Nat :=
  if place ≤ bias then 1 else if bias + 26 ≤ place then 26 else place - bias

theorem threshold_pos (place bias : Nat) : 1 ≤ threshold place bias := by
  unfold threshold
  split
  · omega
  · split <;> omega

/-- Divides a distance by 35 until it is small, counting 36 for each time. -/
def shrink (distance places : Nat) : Nat × Nat :=
  if 455 < distance then shrink (distance / 35) (places + 36) else (distance, places)
termination_by distance
decreasing_by exact Nat.div_lt_self (by omega) (by omega)

/-- The bias after a distance, with so many characters placed; the first distance is damped. -/
def adapt (distance count : Nat) (first : Bool) : Nat :=
  let damped := distance / if first then 700 else 2
  let (rest, places) := shrink (damped + damped / count) 0
  places + 36 * rest / (rest + 38)

/-- An integer as digits from a place on. -/
def writeInteger (bias place n : Nat) : List Char :=
  if n < threshold place bias then [digitChar n]
  else
    let base := 36 - threshold place bias
    digitChar (threshold place bias + (n - threshold place bias) % base) ::
      writeInteger bias (place + 36) ((n - threshold place bias) / base)
termination_by n
decreasing_by
  have := threshold_pos place bias
  exact Nat.lt_of_le_of_lt (Nat.div_le_self _ _) (by omega)

/-- Where the writing stands. -/
structure Progress where
  written : List Char
  distance : Nat := 0
  bias : Nat := 72
  count : Nat

/-- Takes note of a character while those with code point `n` are being placed. -/
def Progress.step (ascii n : Nat) (p : Progress) (c : Char) : Progress :=
  if c.toNat < n then { p with distance := p.distance + 1 }
  else if c.toNat = n then
    { written := p.written ++ writeInteger p.bias 36 p.distance
      bias := adapt p.distance (p.count + 1) (p.count = ascii)
      count := p.count + 1 }
  else p

/-- Places the characters with these code points, in ascending order, from code point `n` on. -/
def place (text : List Char) (ascii : Nat) : List Nat → Nat → Progress → Progress
  | [], _, p => p
  | m :: rest, n, p =>
    let p := text.foldl (Progress.step ascii m)
      { p with distance := p.distance + (m - n) * (p.count + 1) }
    place text ascii rest (m + 1) { p with distance := p.distance + 1 }

def encode (text : List Char) : List Char :=
  let ascii := text.filter (·.toNat < 0x80)
  let others := ((text.map (·.toNat)).filter (0x80 ≤ ·)).mergeSort.eraseDups
  let start := if ascii = [] then [] else ascii ++ ['-']
  (place text ascii.length others 0x80 { written := start, count := ascii.length }).written

/-- Reads an integer from a place on, added to `n`; the rest of the text comes with it. -/
def readInteger? (bias : Nat) : List Char → Nat → Nat → Nat → Option (Nat × List Char)
  | [], _, _, _ => none
  | c :: rest, place, weight, n =>
    match digitValue? c with
    | none => none
    | some d =>
      if d < threshold place bias then some (n + d * weight, rest)
      else
        readInteger? bias rest (place + 36) (weight * (36 - threshold place bias)) (n + d * weight)

theorem length_of_readInteger? {bias : Nat} {cs : List Char} {place weight n : Nat}
    {r : Nat × List Char} (h : readInteger? bias cs place weight n = some r) :
    r.2.length < cs.length := by
  fun_induction readInteger? bias cs place weight n with
  | case1 => simp at h
  | case2 => simp at h
  | case3 =>
    rw [← Option.some.inj h]
    simp
  | case4 _ _ _ _ _ _ _ _ ih =>
    have := ih h
    simp only [List.length_cons]
    omega

/-- Inserts the characters that the rest of the text tells of. -/
def insertAll? (bias code index : Nat) (text : List Char) (cs : List Char) : Option (List Char) :=
  match cs with
  | [] => some text
  | c :: rest =>
    match _h : readInteger? bias (c :: rest) 36 1 index with
    | none => none
    | some (n, remaining) =>
      let count := text.length + 1
      let code' := code + n / count
      if code'.isValidChar then
        insertAll? (adapt (n - index) count (index = 0)) code' (n % count + 1)
          (text.insertIdx (n % count) (Char.ofNat code')) remaining
      else none
termination_by cs.length
decreasing_by
  exact length_of_readInteger? ‹_›

/-- The text that was written, if it was written this way. A hyphen stands after the ASCII
characters if there are any. -/
def decode? (cs : List Char) : Option (List Char) :=
  if cs.all (·.toNat < 0x80) then
    match cs.reverse.span (· ≠ '-') with
    | (last, []) => insertAll? 72 0x80 0 [] last.reverse
    | (_, [_]) => none
    | (last, _ :: before) => insertAll? 72 0x80 0 before.reverse last.reverse
  else none

end CertRegistry.Url.Punycode
