import CertRegistry.Rest.Message

/-!
# Redirects

An answer may lead elsewhere, and the request then goes there without the client taking part. So a
server may get several requests where the client has made one.
-/

namespace CertRegistry.Rest

/-- What a server does about a request, and the URL that its answer leads to, if there is one,
resolved against that of the request. -/
structure Response where
  reply : Reply
  location : Option Url := none
  deriving DecidableEq, Repr

/-- A server with states of type `σ`. -/
structure Server (σ : Type) where
  reachable : σ → Url → Bool := fun _ _ => true
  respond : σ → Request → Response × σ

/-- How many answers that lead elsewhere are followed for one request. -/
def maxRedirects : Nat := 10

/-- The request as it is sent, without credentials and fragment. -/
def Request.sent (request : Request) : Request :=
  { request with url := { request.url with credentials := [], fragment := none } }

/-- The request that an answer asks for instead: one for data, or the same once more. A URL for HTTP
that cannot be written down is passed over. -/
def Request.redirect? (request : Request) (status : Nat) (location : Option Url) :
    Option Request := do
  let url ← location
  if isHttp url ∧ ¬ isSendable url then none
  else if status = 301 ∨ status = 302 ∨ status = 303 then some { method := .get, url }
  else if status = 307 ∨ status = 308 then some { request with url }
  else none

/-- When a response leads elsewhere, if it does so within `patience` milliseconds, and the request
that it asks for. -/
def Response.next? (response : Response) (patience : Nat) (request : Request) :
    Option (Nat × Request) :=
  match response.reply with
  | .answer delay answer =>
    if delay < patience then
      (request.redirect? answer.status response.location).map fun next => (delay, next)
    else none
  | _ => none

/-- A reply that is reached after `delay` of `patience` milliseconds. The URL under which there is
no answer is the one that the way has led to. -/
def Reply.behind (delay patience : Nat) (url : Url) : Reply → Reply
  | .answer later found =>
    if delay + later < patience then .answer (delay + later) found
    else .fail patience (.unanswered url)
  | .hangUp later => .fail (delay + later) (.unanswered url)
  | .silence => .fail patience (.unanswered url)
  | .fail later fault => .fail (delay + later) fault

namespace Server

variable {σ : Type} (server : Server σ)

/-- Carries a request to a server, and after it the requests that the answers ask for, `hops` of
them at most and as long as there is time. -/
def carry : Nat → Nat → σ → Request → Reply × σ
  | hops, patience, s, request =>
    let (response, s) := server.respond s request.sent
    match response.next? patience request, hops with
    | none, _ => (response.reply, s)
    | some (delay, _), 0 => (.fail delay (.tooManyRedirects request.url), s)
    | some (delay, next), hops + 1 =>
      if ¬ isHttp next.url then (.fail delay (.unsendable next.url), s)
      else if ¬ server.reachable s next.url then (.fail delay (.unanswered next.url), s)
      else
        let (reply, s) := carry hops (patience - delay) s next
        (reply.behind delay patience next.url, s)

/-- A server as a client finds it that has so many milliseconds for a request. -/
def following (patience : Request → Nat) : Node σ where
  reachable := server.reachable
  reply s request := server.carry maxRedirects (patience request) s request

end Server

/-- A server whose answers lead nowhere. -/
def Node.serving {σ : Type} (node : Node σ) : Server σ where
  reachable := node.reachable
  respond s request :=
    let (reply, s) := node.reply s request
    ({ reply }, s)

end CertRegistry.Rest
