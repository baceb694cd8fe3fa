import CertRegistry.Bytes.Lenient
import CertRegistry.Url.Parse

/-!
# Requests and replies

What is sent to a node and what comes back. A node is any machine that takes a request in some
state; times are in milliseconds. What carries requests to a server is a part of the node, and where
an answer leads elsewhere the reply is what is found there in the end (`Server.following`).
-/

namespace CertRegistry.Rest

inductive Method where
  | get
  | post
  deriving DecidableEq, Repr

structure Request where
  method : Method
  url : Url
  body : Bytes := []
  deriving DecidableEq, Repr

/-- The body of an answer, which arrives some time after the head or breaks off. -/
structure Body where
  delay : Nat := 0
  octets : Option Bytes
  deriving DecidableEq, Repr

/-- The head of an answer with the body that comes after it. It names no encoding for the body, and
where it leads is left to `Response`. -/
structure Answer where
  status : Nat
  body : Body
  deriving DecidableEq, Repr

/-- Whether the status says that the request was carried out. -/
def Answer.isSuccess (a : Answer) : Bool := 200 ≤ a.status && a.status < 300

/-- Why no answer came. -/
inductive TransportFault where
  | badUrl (fault : Url.Fault)
  | unsendable (url : Url)
  | unanswered (url : Url)
  | tooManyRedirects (url : Url)
  | bodyBroken
  deriving DecidableEq, Repr

/-- What a node does about a request. -/
inductive Reply where
  | answer (delay : Nat) (answer : Answer)
  /-- The connection ends without an answer. -/
  | hangUp (delay : Nat)
  | silence
  /-- The request comes to nothing on its way, which shows after so long or when time is over. -/
  | fail (delay : Nat) (fault : TransportFault)
  deriving DecidableEq, Repr

/-- Why no answer comes of a request for a URL, or none in time. -/
def Reply.fault (url : Url) : Reply → TransportFault
  | .fail _ fault => fault
  | _ => .unanswered url

/-- A node with states of type `σ`. -/
structure Node (σ : Type) where
  /-- Whether a connection can be made; if not, this shows at once. -/
  reachable : σ → Url → Bool := fun _ _ => true
  reply : σ → Request → Reply × σ

/-- The node that nobody can reach. -/
def Node.unreachable : Node Unit where
  reachable _ _ := false
  reply s _ := (.silence, s)

/-- Whether escaped octets are text. -/
def isText (escaped : List Char) : Bool :=
  (Bytes.text? (Url.Percent.decode (Bytes.ofText (String.ofList escaped)))).isSome

/-- The URL without its credentials, which are sent apart from it: a name that is text, or, where
there is no name, a password that is text. Others stay in the URL. -/
def withoutCredentials (url : Url) : Url :=
  let (name, password) := url.userInfo
  if isText name ∧ (name ≠ [] ∨ password.any isText) then { url with credentials := [] } else url

/-- URLs are shown without the credentials that are sent apart from them. -/
def shownUrl (url : Url) : String := (withoutCredentials url).toText

def TransportFault.message : TransportFault → String
  | badUrl _ => "builder error"
  | unsendable url => "builder error for url (" ++ shownUrl url ++ ")"
  | unanswered url => "error sending request for url (" ++ shownUrl url ++ ")"
  | tooManyRedirects url => "error following redirect for url (" ++ shownUrl url ++ ")"
  | bodyBroken => "error decoding response body"

/-- The longest URL, in octets, that can be sent. -/
def maxUrlLength : Nat := 65534

def isHttp (url : Url) : Bool := url.scheme = "http".toList || url.scheme = "https".toList

/-- Whether a request to a URL can be written down: it is for HTTP, its host is in plain
characters, and it is not too long. -/
def isSendable (url : Url) : Bool :=
  isHttp url && url.hostText ≠ [] && !url.hostText.any (· ∈ ['"', '\x60', '{', '}']) &&
    (shownUrl url).length ≤ maxUrlLength

end CertRegistry.Rest
