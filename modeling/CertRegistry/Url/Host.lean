import CertRegistry.Url.Domain
import CertRegistry.Url.Ipv4
import CertRegistry.Url.Ipv6

/-!
# Hosts

The host of a URL: an address, or a name. Names are domain names in the schemes of the web; in
other schemes they are kept as they are.
-/

namespace CertRegistry.Url

/-- Why a text is no URL. -/
inductive Fault where
  | emptyHost
  | badDomainName
  | badPort
  | badIpv4
  | badIpv6
  | badHostCharacter
  | noScheme
  deriving DecidableEq, Repr

def Fault.message : Fault → String
  | .emptyHost => "empty host"
  | .badDomainName => "invalid international domain name"
  | .badPort => "invalid port number"
  | .badIpv4 => "invalid IPv4 address"
  | .badIpv6 => "invalid IPv6 address"
  | .badHostCharacter => "invalid domain character"
  | .noScheme => "relative URL without a base"

inductive Host where
  | name (text : List Char)
  | ipv4 (address : Nat)
  | ipv6 (groups : List Nat)
  deriving DecidableEq, Repr

namespace Host

def toText : Host → List Char
  | name text => text
  | ipv4 address => Ipv4.toText address
  | ipv6 groups => '[' :: Ipv6.toText groups ++ [']']

/-- Reads an address in brackets, of which the opening one has been read. -/
def bracketed (cs : List Char) : Except Fault Host :=
  match cs.getLast? with
  | some ']' =>
    match Ipv6.parse? cs.dropLast with
    | some groups => .ok (ipv6 groups)
    | none => .error .badIpv6
  | _ => .error .badIpv6

/-- Reads a host of the web. -/
def ofWeb (cs : List Char) : Except Fault Host :=
  match cs with
  | '[' :: rest => bracketed rest
  | _ =>
    match Domain.toAscii? cs with
    | none => .error .badDomainName
    | some [] => .error .emptyHost
    | some domain =>
      if Ipv4.isNumeric domain then
        match Ipv4.parse? domain with
        | some address => .ok (ipv4 address)
        | none => .error .badIpv4
      else .ok (name domain)

/-- The characters that no name of a host can hold. -/
def isForbidden (c : Char) : Bool :=
  c ∈ ['\x00', '\t', '\n', '\r', ' ', '#', '/', ':', '<', '>', '?', '@', '[', '\\', ']', '^', '|']

/-- Reads a host of another scheme. -/
def ofOther (cs : List Char) : Except Fault Host :=
  match cs with
  | '[' :: rest => bracketed rest
  | _ =>
    if cs.any isForbidden then .error .badHostCharacter
    else .ok (name (Percent.encode Percent.isControl cs))

end Host

end CertRegistry.Url
