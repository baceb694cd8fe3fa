import CertRegistry.Duration
import CertRegistry.Rest.Envelope
import CertRegistry.Rest.Fault
import CertRegistry.Rest.Tally

/-!
# Sessions

A client talks to a node while time passes. A session is the state of both: the node, the clock
in milliseconds, the attempts at requests that were made, and what was counted. Time passes
only while the client waits.

An answer counts if its head arrives before the time limit of the request and before the
deadline, if there is one; what shows at once counts even at the deadline.
-/

namespace CertRegistry.Rest

/-- How an attempt at a request ended for the client. -/
inductive Ending where
  | answered (status : Nat)
  | failed
  /-- The deadline came before the answer. -/
  | abandoned
  deriving DecidableEq, Repr

/-- An attempt at a request. -/
structure Attempt where
  startedAt : Nat
  method : Method
  url : String
  body : Bytes
  /-- Where the outcome is counted, unless it only shows whether the node is there. -/
  counted : Option Resource
  ending : Ending
  deriving DecidableEq, Repr

structure Session (σ : Type) where
  node : σ
  clock : Nat := 0
  /-- The attempts that were made, the last one first. -/
  attempts : List Attempt := []
  tally : Tally := []

/-- A conversation with a node in a session, which may fail. -/
abbrev Talk (σ : Type) := ExceptT Fault (StateM (Session σ))

/-- A point in time at which a conversation ends with a fault. -/
structure Deadline where
  time : Nat
  fault : Fault

/-- What is sent, where to, and what for. -/
structure Call where
  method : Method := .get
  url : String
  body : Bytes := []
  counted : Option Resource := none

/-- How long to wait for an answer, in seconds, and until when. -/
structure Limits where
  seconds : Nat
  deadline : Option Deadline := none

namespace Talk

variable {σ : Type}

def count (counter : Counter) (n : Nat) : Talk σ Unit :=
  modify fun s => { s with tally := s.tally.add counter n }

/-- Waits for so many milliseconds. -/
def sleep (millis : Nat) : Talk σ Unit := modify fun s => { s with clock := s.clock + millis }

/-- Waits until a point in time, which may have passed already. -/
def sleepUntil (time : Nat) : Talk σ Unit := modify fun s => { s with clock := max s.clock time }

/-- What ends the wait for an event: the event itself, the time limit or the deadline, and
when. -/
inductive Wakening where
  | event
  | limit
  | deadline (fault : Fault)

def wakening (limit : Nat) (deadline : Option Deadline) (event : Option Nat) : Wakening × Nat :=
  let (kind, time) : Wakening × Nat := match event with
    | some time => if time < limit then (.event, time) else (.limit, limit)
    | none => (.limit, limit)
  match deadline with
  | some d => if d.time ≤ time then (.deadline d.fault, d.time) else (kind, time)
  | none => (kind, time)

/-- Notes down an attempt that began at `startedAt`. -/
def note (call : Call) (startedAt : Nat) (ending : Ending) : Talk σ Unit :=
  modify fun s => { s with attempts :=
    { startedAt, method := call.method, url := call.url, body := call.body
      counted := call.counted, ending } :: s.attempts }

/-- When a reply shows to the client, and the answer in it. -/
def arrival (now : Nat) : Reply → Option Nat × Option Answer
  | .answer delay answer => (some (now + delay), some answer)
  | .hangUp delay => (some (now + delay), none)
  | .silence => (none, none)
  | .fail delay _ => (some (now + delay), none)

/-- Sends a request that can be sent and waits for the head of the answer. -/
def exchange (node : Node σ) (limits : Limits) (call : Call) (url : Url) :
    Talk σ (Except TransportFault Answer) := do
  let s ← get
  let (reply, state) := node.reply s.node
    { method := call.method, url := { url with credentials := [], fragment := none }
      body := call.body }
  let (event, answer?) := arrival s.clock reply
  let (wakening, time) := wakening (s.clock + 1000 * limits.seconds) limits.deadline event
  set { s with node := state, clock := time }
  match wakening, answer? with
  | .event, some answer =>
    note call s.clock (.answered answer.status)
    return .ok answer
  | .deadline fault, _ =>
    note call s.clock .abandoned
    throw fault
  | _, _ =>
    note call s.clock .failed
    return .error (reply.fault url)

/-- Makes a request and waits for the head of the answer. -/
def send (node : Node σ) (limits : Limits) (call : Call) :
    Talk σ (Except TransportFault Answer) := do
  let s ← get
  let fail (fault : TransportFault) : Talk σ (Except TransportFault Answer) := do
    note call s.clock .failed
    return .error fault
  match Url.parse call.url with
  | .error fault => fail (.badUrl fault)
  | .ok url =>
    if ¬ isSendable url then fail (.unsendable url)
    else if limits.seconds = 0 ∨ ¬ node.reachable s.node url then fail (.unanswered url)
    else
      match limits.deadline with
      | some deadline =>
        if deadline.time ≤ s.clock then
          note call s.clock .abandoned
          throw deadline.fault
        else exchange node limits call url
      | none => exchange node limits call url

/-- Waits for the body of an answer to a request that began at `startedAt`. -/
def readBody (limits : Limits) (startedAt : Nat) (body : Body) :
    Talk σ (Except TransportFault String) := do
  let s ← get
  let (wakening, time) :=
    wakening (startedAt + 1000 * limits.seconds) limits.deadline (some (s.clock + body.delay))
  set { s with clock := time }
  match wakening, body.octets with
  | .event, some octets => return .ok (Bytes.lenientText octets)
  | .deadline fault, _ => throw fault
  | _, _ => return .error .bodyBroken

/-- The body of an answer, which has to arrive. -/
def requireBody (limits : Limits) (startedAt : Nat) (answer : Answer) : Talk σ String := do
  match ← readBody limits startedAt answer.body with
  | .ok text => return text
  | .error fault => throw (.transport fault)

/-- Counts how a request for a resource went, and turns a refusal into a fault. -/
def accept (limits : Limits) (resource : Resource) (startedAt : Nat)
    (result : Except TransportFault Answer) : Talk σ Answer := do
  match result with
  | .error fault =>
    count (.requests resource false) 1
    throw (.transport fault)
  | .ok answer =>
    count (.requests resource answer.isSuccess) 1
    if answer.isSuccess then return answer
    let text := (← readBody limits startedAt answer.body).toOption.getD ""
    throw (.refused answer.status (refusalText text))

/-- Reads the body of an accepted answer as JSON. -/
def decode {α : Type} (reader : Json.Reader α) (limits : Limits) (startedAt : Nat)
    (answer : Answer) : Talk σ α := do
  let text ← requireBody limits startedAt answer
  match reader.parse text with
  | .ok a => return a
  | .error fault => throw (.badJson fault text)

/-- Makes a request for a resource and reads the answer as JSON. -/
def request {α : Type} (node : Node σ) (limits : Limits) (resource : Resource)
    (reader : Json.Reader α) (call : Call) : Talk σ α := do
  let startedAt := (← get).clock
  let result ← send node limits { call with counted := some resource }
  let answer ← accept limits resource startedAt result
  decode reader limits startedAt answer

end Talk

end CertRegistry.Rest
