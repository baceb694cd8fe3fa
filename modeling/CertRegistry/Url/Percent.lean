import CertRegistry.Bytes.Hex

/-!
# Percent escapes

In a URL an octet may be written as a percent sign and two hexadecimal digits. Each part of a
URL has a set of ASCII characters that it cannot hold as they are; characters beyond ASCII are
escaped in all of them, octet by octet of their UTF-8 form.
-/

namespace CertRegistry.Url.Percent

def isControl (c : Char) : Bool := c.toNat < 0x20 || c.toNat == 0x7f

/-- What is escaped in a fragment. -/
def inFragment (c : Char) : Bool := isControl c || c ∈ [' ', '"', '<', '>', '\x60']

/-- What is escaped in a path. -/
def inPath (c : Char) : Bool := inFragment c || c ∈ ['#', '?', '{', '}']

/-- What is escaped in a user name or a password. -/
def inCredentials (c : Char) : Bool :=
  inPath c || c ∈ ['/', ':', ';', '=', '@', '[', '\\', ']', '^', '|']

/-- What is escaped in a query. -/
def inQuery (c : Char) : Bool := isControl c || c ∈ [' ', '"', '#', '<', '>']

/-- What is escaped in a query of a scheme of the web. -/
def inWebQuery (c : Char) : Bool := inQuery c || c = '\''

/-- An octet as a percent sign and two digits. -/
def escape (b : UInt8) : List Char :=
  ['%', (Nat.digitChar (b.toNat / 16)).toUpper, (Nat.digitChar (b.toNat % 16)).toUpper]

/-- The characters, with those escaped that are in a set or beyond ASCII. -/
def encode (escaped : Char → Bool) (cs : List Char) : List Char :=
  cs.flatMap fun c =>
    if c.toNat < 0x80 ∧ escaped c = false then [c]
    else (Bytes.ofText (String.singleton c)).flatMap escape

/-- The octets with the escapes among them resolved. A percent sign that starts none stays. -/
def decode : Bytes → Bytes
  | 0x25 :: high :: low :: rest =>
    match Hex.digitValue? high, Hex.digitValue? low with
    | some h, some l => UInt8.ofNat (16 * h + l) :: decode rest
    | _, _ => 0x25 :: decode (high :: low :: rest)
  | b :: rest => b :: decode rest
  | [] => []

theorem encode_nil (escaped : Char → Bool) : encode escaped [] = [] := rfl

theorem encode_append (escaped : Char → Bool) (cs ds : List Char) :
    encode escaped (cs ++ ds) = encode escaped cs ++ encode escaped ds := by
  simp [encode]

theorem encode_eq_self {escaped : Char → Bool} {cs : List Char}
    (h : ∀ c ∈ cs, c.toNat < 0x80 ∧ escaped c = false) : encode escaped cs = cs := by
  induction cs with
  | nil => rfl
  | cons c rest ih =>
    have hc := h c (by simp)
    have hr := ih fun d hd => h d (by simp [hd])
    rw [encode] at hr
    simp [encode, hc, hr]

end CertRegistry.Url.Percent
