import CertRegistry.Url.Host
import CertRegistry.Url.Path

/-!
# URLs

Absolute URLs, read from text in the forgiving way of browsers and written in one normal form.
-/

namespace CertRegistry

open Url in
structure Url where
  scheme : List Char
  /-- What precedes the host, up to an at sign, in escaped form. -/
  credentials : List Char := []
  /-- The host, which can be an empty name in schemes other than those of the web. -/
  host : Option Host := none
  port : Option Nat := none
  path : List Char := []
  query : Option (List Char) := none
  fragment : Option (List Char) := none
  deriving DecidableEq, Repr

namespace Url

inductive SchemeKind where
  /-- A scheme of the web, which has hosts and paths. -/
  | web
  | file
  | other
  deriving DecidableEq, Repr

/-- The schemes of the web with their usual ports. -/
def webSchemes : List (String × Nat) :=
  [("http", 80), ("https", 443), ("ws", 80), ("wss", 443), ("ftp", 21)]

/-- The port that a scheme uses unless another one is given. -/
def usualPort? (scheme : List Char) : Option Nat := webSchemes.lookup (String.ofList scheme)

def SchemeKind.of (scheme : List Char) : SchemeKind :=
  if (usualPort? scheme).isSome then web
  else if scheme = "file".toList then file
  else other

def isSchemeChar (c : Char) : Bool := c.isAlphanum || c ∈ ['+', '-', '.']

/-- The scheme, in lowercase, and what follows its colon. -/
def splitScheme? (cs : List Char) : Option (List Char × List Char) :=
  match cs with
  | [] => none
  | first :: _ =>
    match cs.span isSchemeChar with
    | (scheme, ':' :: rest) =>
      if first.isAlpha then some (scheme.map Char.toLower, rest) else none
    | _ => none

/-- Whether a backslash counts as a slash. -/
def SchemeKind.hasBackslashes (kind : SchemeKind) : Bool := kind ≠ other

def SchemeKind.isSlash (kind : SchemeKind) (c : Char) : Bool :=
  c = '/' || (kind.hasBackslashes && c = '\\')

/-- Whether a character ends what comes before the path. -/
def SchemeKind.endsAuthority (kind : SchemeKind) (c : Char) : Bool :=
  kind.isSlash c || c = '?' || c = '#'

/-- The text without tabs and line ends, and without controls and spaces at either end. -/
def strip (text : String) : List Char :=
  let outer (c : Char) : Bool := c.toNat ≤ 0x20
  let ends := (((text.toList.dropWhile outer).reverse).dropWhile outer).reverse
  ends.filter (· ∉ ['\t', '\n', '\r'])

/-- The name and the password before a host as they are written. -/
def credentialsText (cs : List Char) : List Char :=
  let escape := Percent.encode Percent.inCredentials
  match cs.span (· ≠ ':') with
  | (name, _ :: c :: rest) => escape name ++ ':' :: escape (c :: rest) ++ ['@']
  | ([], _) => []
  | (name, _) => escape name ++ ['@']

/-- The part before the last at sign, if there is one, and the part after it. -/
def splitLastAt (cs : List Char) : Option (List Char) × List Char :=
  match cs.reverse.span (· ≠ '@') with
  | (after, _ :: before) => (some before.reverse, after.reverse)
  | (_, []) => (none, cs)

/-- The host as it is written and what follows it: a colon inside brackets belongs to the host. -/
def splitHost : Bool → List Char → List Char × List Char
  | _, [] => ([], [])
  | inside, c :: rest =>
    if c = ':' ∧ ¬ inside then ([], c :: rest)
    else
      let inside := if c = '[' then true else if c = ']' then false else inside
      let (host, port) := splitHost inside rest
      (c :: host, port)

/-- The port that digits spell, unless it is the usual one. -/
def portOf (scheme cs : List Char) : Except Fault (Option Nat) :=
  if cs.all Char.isDigit then
    let n := cs.foldl (fun n c => n * 10 + (c.toNat - 48)) 0
    if 65535 < n then .error .badPort
    else .ok (if cs = [] ∨ usualPort? scheme = some n then none else some n)
  else .error .badPort

/-- Reads the host and the port. -/
def readHost (kind : SchemeKind) (scheme cs : List Char) :
    Except Fault (Host × Option Nat) := do
  let (hostText, rest) := splitHost false cs
  if hostText = [] ∧ (kind = .web ∨ rest ≠ []) then throw .emptyHost
  let host ← if kind = .web then Host.ofWeb hostText else Host.ofOther hostText
  -- A backslash ends a port in every scheme.
  let port ← portOf scheme ((rest.drop 1).takeWhile (· ≠ '\\'))
  return (host, port)

/-- Reads the part between the slashes and the path; `more` is what follows. -/
def readAuthority (kind : SchemeKind) (scheme cs : List Char) (more : List Char) (url : Url) :
    Except Fault Url := do
  let (credentials?, hostText) := splitLastAt cs
  let credentials := credentialsText (credentials?.getD [])
  if credentials? = some [] ∧ hostText = [] ∧ more ≠ [] then throw .emptyHost
  let (host, port) ← readHost kind scheme hostText
  if hostText = [] ∧ credentials ≠ [] then throw .emptyHost
  return { url with credentials, host, port }

/-- The segments of a path as they are written, without the slash that starts it. -/
def segments (kind : SchemeKind) (cs : List Char) : List (List Char) :=
  let rooted := match cs with
    | c :: rest => if kind.isSlash c then rest else c :: rest
    | [] => []
  (rooted.map fun c => if kind.isSlash c then '/' else c).splitOn '/'

/-- The segments that the path leads to. -/
def resolved (kind : SchemeKind) (cs : List Char) : List (List Char) :=
  Path.resolve (kind = .file) ((segments kind cs).map (Percent.encode Percent.inPath))

/-- The path in its normal form. That of a file starts with one slash. -/
def pathText (kind : SchemeKind) (cs : List Char) : List Char :=
  let text := Path.toText (resolved kind cs)
  if kind = .file then '/' :: text.dropWhile (· = '/') else text

/-- Adds the query and the fragment, which the text starts with. -/
def withTail (url : Url) (kind : SchemeKind) (cs : List Char) : Url :=
  let (beforeFragment, fragment) := cs.span (· ≠ '#')
  let escaped := if kind = .other then Percent.inQuery else Percent.inWebQuery
  { url with
    query := match beforeFragment with
      | _ :: query => some (Percent.encode escaped query)
      | [] => none
    fragment := match fragment with
      | _ :: fragment => some (Percent.encode Percent.inFragment fragment)
      | [] => none }

def startsTail (c : Char) : Bool := c = '?' || c = '#'

/-- Reads the path and what follows it. -/
def readPath (url : Url) (kind : SchemeKind) (cs : List Char) : Url :=
  let (path, tail) := cs.span (!startsTail ·)
  let path := if kind = .other ∧ path = [] then [] else pathText kind path
  withTail { url with path } kind tail

/-- Reads a URL with a host, from after the slashes. -/
def readHierarchy (kind : SchemeKind) (scheme cs : List Char) : Except Fault Url := do
  let (authority, rest) := cs.span (!kind.endsAuthority ·)
  let url ← readAuthority kind scheme authority rest { scheme }
  -- In other schemes a backslash after the port starts the path too.
  let (_, afterHost) := splitHost false (splitLastAt authority).2
  return readPath url kind (afterHost.dropWhile (· ≠ '\\') ++ rest)

/-- Reads a URL of a file, from after the colon. A host is given up for a drive, and the host
of this machine is left out. Without a host all of the path comes after the slash that starts it. -/
def readFile (scheme cs : List Char) : Except Fault Url := do
  match cs with
  | a :: b :: rest =>
    if SchemeKind.file.isSlash a ∧ SchemeKind.file.isSlash b then
      let (hostText, after) := rest.span (!SchemeKind.file.endsAuthority ·)
      if hostText = [] ∨ Path.isDrive hostText then return readPath { scheme } .file ('/' :: rest)
      let host ← Host.ofWeb hostText
      if host = .name "localhost".toList then return readPath { scheme } .file ('/' :: after)
      let onDrive := Path.isOnDrive (resolved .file (after.takeWhile (!startsTail ·)))
      return readPath { scheme, host := if onDrive then none else some host } .file after
    else return readPath { scheme } .file cs
  | _ => return readPath { scheme } .file cs

/-- Reads a URL of another scheme, from after the colon. -/
def readOther (scheme cs : List Char) : Except Fault Url :=
  match cs with
  | '/' :: '/' :: rest => readHierarchy .other scheme rest
  | '/' :: _ => .ok (readPath { scheme } .other cs)
  | _ =>
    let (path, tail) := cs.span (!startsTail ·)
    .ok (withTail { scheme, path := Percent.encode Percent.isControl path } .other tail)

/-- Reads a URL. -/
def parse (text : String) : Except Fault Url :=
  match splitScheme? (strip text) with
  | none => .error .noScheme
  | some (scheme, rest) =>
    match SchemeKind.of scheme with
    | .web => readHierarchy .web scheme (rest.dropWhile SchemeKind.web.isSlash)
    | .file => readFile scheme rest
    | .other => readOther scheme rest

/-- The host as text; nothing if there is none. -/
def hostText (url : Url) : List Char := url.host.elim [] Host.toText

/-- The name and the password before the host, in escaped form. -/
def userInfo (url : Url) : List Char × Option (List Char) :=
  match url.credentials.dropLast.span (· ≠ ':') with
  | (name, _ :: password) => (name, some password)
  | (name, []) => (name, none)

/-- What stands between the scheme and the path. -/
def authorityText (url : Url) : List Char :=
  match url.host with
  | some host =>
    "//".toList ++ url.credentials ++ host.toText ++
      (url.port.elim [] fun port => ':' :: (toString port).toList)
  | none =>
    if SchemeKind.of url.scheme = .file then "//".toList
    -- A path that starts with two slashes would read as a host.
    else if "//".toList.isPrefixOf url.path then "/.".toList
    else []

/-- The URL without its fragment. -/
def requestText (url : Url) : List Char :=
  url.scheme ++ ':' :: url.authorityText ++ url.path ++ (url.query.elim [] ('?' :: ·))

def toText (url : Url) : String :=
  String.ofList (url.requestText ++ (url.fragment.elim [] ('#' :: ·)))

end Url

end CertRegistry
