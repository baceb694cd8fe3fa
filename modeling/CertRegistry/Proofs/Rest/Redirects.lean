import CertRegistry.Proofs.Rest.Records
import CertRegistry.Rest.Redirect

/-!
# What a server gets of a request

A server gets a request once, and once more after each answer that asks for that by its status and
says where to go. Only the statuses 307 and 308 repeat what was sent; the others turn it into a
request for data. A server whose answers lead nowhere is the node that it was.
-/

namespace CertRegistry.Rest

variable {σ α : Type}

/-- The server that also keeps a record of the requests that it gets, the last one last. -/
def Server.recording (server : Server σ) : Server (σ × List Request) where
  reachable s url := server.reachable s.1 url
  respond s request :=
    let (response, after) := server.respond s.1 request
    (response, after, s.2 ++ [request])

theorem Server.recording_respond (server : Server σ) (s : σ × List Request) (request : Request) :
    server.recording.respond s request =
      ((server.respond s.1 request).1, (server.respond s.1 request).2, s.2 ++ [request]) := rfl

/-- Whether a server gets these requests for one, and in which state this leaves it. After an answer
that leads elsewhere it gets a request for that URL. -/
inductive Server.Trail (server : Server σ) : σ → Request → List Request → σ → Prop
  | last {before after : σ} {request : Request} {response : Response}
    (h : server.respond before request.sent = (response, after)) :
    Trail server before request [request.sent] after
  | anew {before middle after : σ} {request : Request} {delay : Nat} {answer : Answer} {url : Url}
    {later : List Request}
    (h : server.respond before request.sent =
      ({ reply := .answer delay answer, location := some url }, middle))
    (hstatus : answer.status = 301 ∨ answer.status = 302 ∨ answer.status = 303)
    (hlater : Trail server middle { method := .get, url } later after) :
    Trail server before request (request.sent :: later) after
  | again {before middle after : σ} {request : Request} {delay : Nat} {answer : Answer} {url : Url}
    {later : List Request}
    (h : server.respond before request.sent =
      ({ reply := .answer delay answer, location := some url }, middle))
    (hstatus : answer.status = 307 ∨ answer.status = 308)
    (hlater : Trail server middle { request with url } later after) :
    Trail server before request (request.sent :: later) after

/-- Whether no answer of a server leads elsewhere. -/
def Server.LeadsNowhere (server : Server σ) : Prop :=
  ∀ s request, (server.respond s request).1.location = none

/-! ## Where answers lead -/

/-- What an answer asks for instead of a request, and by which statuses. -/
theorem Request.redirect?_eq_some {request next : Request} {status : Nat} {location : Option Url}
    (h : request.redirect? status location = some next) : ∃ url, location = some url ∧
      ((status = 301 ∨ status = 302 ∨ status = 303) ∧ next = { method := .get, url } ∨
        (status = 307 ∨ status = 308) ∧ next = { request with url }) := by
  cases location with
  | none => cases h
  | some url =>
    refine ⟨url, rfl, ?_⟩
    simp only [redirect?, Option.bind_eq_bind, Option.bind_some] at h
    split at h
    · cases h
    · split at h
      · next hstatus => exact .inl ⟨hstatus, (Option.some.inj h).symm⟩
      · split at h
        · next hstatus => exact .inr ⟨hstatus, (Option.some.inj h).symm⟩
        · cases h

theorem Response.next?_eq_some {response : Response} {patience delay : Nat}
    {request next : Request} (h : response.next? patience request = some (delay, next)) :
    ∃ answer, response.reply = .answer delay answer ∧
      request.redirect? answer.status response.location = some next := by
  unfold next? at h
  split at h
  · next delay' answer hreply =>
    split at h
    · obtain ⟨next', hnext, heq⟩ := Option.map_eq_some_iff.mp h
      cases heq
      exact ⟨answer, hreply, hnext⟩
    · cases h
  · cases h

namespace Server

variable {server : Server σ} {before middle after : σ} {request next : Request}
  {requests later : List Request}

/-- One step of a trail. -/
theorem Trail.cons {response : Response} {patience delay : Nat}
    (h : server.respond before request.sent = (response, middle))
    (hnext : response.next? patience request = some (delay, next))
    (hlater : server.Trail middle next later after) :
    server.Trail before request (request.sent :: later) after := by
  obtain ⟨answer, hreply, hredirect⟩ := Response.next?_eq_some hnext
  obtain ⟨url, hlocation, ⟨hstatus, rfl⟩ | ⟨hstatus, rfl⟩⟩ := Request.redirect?_eq_some hredirect
  · exact .anew (h.trans (by rw [← hreply, ← hlocation])) hstatus hlater
  · exact .again (h.trans (by rw [← hreply, ← hlocation])) hstatus hlater

/-- What a server has recorded of a request that was carried to it: a trail, with as many requests
more as there were hops at most. -/
theorem exists_trail_carry (hops : Nat) (patience : Nat) (s : σ × List Request)
    (request : Request) : ∃ later,
    server.Trail s.1 request (request.sent :: later)
        (server.recording.carry hops patience s request).2.1 ∧
      (server.recording.carry hops patience s request).2.2 = s.2 ++ request.sent :: later ∧
      later.length ≤ hops := by
  induction hops generalizing patience s request with
  | zero =>
    rcases hrespond : server.respond s.1 request.sent with ⟨response, after⟩
    unfold carry
    simp only [recording_respond, hrespond]
    cases response.next? patience request with
    | none => exact ⟨[], .last hrespond, rfl, Nat.le_refl 0⟩
    | some found => exact ⟨[], .last hrespond, rfl, Nat.le_refl 0⟩
  | succ hops ih =>
    rcases hrespond : server.respond s.1 request.sent with ⟨response, middle⟩
    unfold carry
    simp only [recording_respond, hrespond]
    cases hnext : response.next? patience request with
    | none => exact ⟨[], .last hrespond, rfl, Nat.zero_le _⟩
    | some found =>
      obtain ⟨delay, next⟩ := found
      simp only
      split
      · exact ⟨[], .last hrespond, rfl, Nat.zero_le _⟩
      split
      · exact ⟨[], .last hrespond, rfl, Nat.zero_le _⟩
      · obtain ⟨later, htrail, hlog, hlength⟩ :=
          ih (patience - delay) (middle, s.2 ++ [request.sent]) next
        refine ⟨next.sent :: later, .cons hrespond hnext htrail, ?_, ?_⟩
        · rw [hlog, List.append_assoc, List.singleton_append]
        · rw [List.length_cons]
          omega

/-! ## What is in a trail -/

/-- Wherever a request for data leads, nothing but requests for data come of it. -/
theorem Trail.forall_get (h : server.Trail before request requests after)
    (hmethod : request.method = .get) (hbody : request.body = []) :
    ∀ r ∈ requests, r.method = .get ∧ r.body = [] := by
  induction h with
  | last h =>
    intro r hr
    rw [List.mem_singleton.mp hr]
    exact ⟨hmethod, hbody⟩
  | anew h hstatus hlater ih =>
    exact List.forall_mem_cons.mpr ⟨⟨hmethod, hbody⟩, ih rfl rfl⟩
  | again h hstatus hlater ih =>
    exact List.forall_mem_cons.mpr ⟨⟨hmethod, hbody⟩, ih hmethod hbody⟩

/-- Whatever is posted on the way is what was posted at first. -/
theorem Trail.body_eq (h : server.Trail before request requests after) :
    ∀ r ∈ requests, r.method = .post → r.body = request.body := by
  induction h with
  | last h =>
    intro r hr _
    rw [List.mem_singleton.mp hr]
    rfl
  | anew h hstatus hlater ih =>
    refine List.forall_mem_cons.mpr ⟨fun _ => rfl, fun r hr hpost => ?_⟩
    rw [(hlater.forall_get rfl rfl r hr).1] at hpost
    cases hpost
  | again h hstatus hlater ih => exact List.forall_mem_cons.mpr ⟨fun _ => rfl, ih⟩

/-- Where answers lead nowhere, a server gets each request once. -/
theorem Trail.eq_singleton (h : server.Trail before request requests after)
    (hnowhere : server.LeadsNowhere) : requests = [request.sent] := by
  cases h with
  | last => rfl
  | anew h =>
    have hlocation := hnowhere before request.sent
    rw [h] at hlocation
    cases hlocation
  | again h =>
    have hlocation := hnowhere before request.sent
    rw [h] at hlocation
    cases hlocation

/-! ## One hop -/

/-- Without a redirect the response is all. -/
theorem carry_of_next?_eq_none (hops : Nat) {patience : Nat} {s : σ}
    (h : (server.respond s request.sent).1.next? patience request = none) :
    server.carry hops patience s request =
      ((server.respond s request.sent).1.reply, (server.respond s request.sent).2) := by
  rcases hrespond : server.respond s request.sent with ⟨response, after⟩
  rw [hrespond] at h
  unfold carry
  simp only [hrespond, h]

/-- A redirect is followed by the request that it asks for, with one hop less. -/
theorem carry_of_next?_eq_some (hops : Nat) {patience delay : Nat} {s : σ}
    (h : (server.respond s request.sent).1.next? patience request = some (delay, next))
    (hhttp : isHttp next.url = true)
    (hreachable : server.reachable (server.respond s request.sent).2 next.url = true) :
    server.carry (hops + 1) patience s request =
      ((server.carry hops (patience - delay) (server.respond s request.sent).2 next).1.behind delay
        patience next.url,
      (server.carry hops (patience - delay) (server.respond s request.sent).2 next).2) := by
  rcases hrespond : server.respond s request.sent with ⟨response, middle⟩
  rw [hrespond] at h hreachable
  rw [carry]
  simp only [hrespond, h, if_neg (not_not.mpr hhttp), if_neg (not_not.mpr hreachable)]

end Server

theorem Response.next?_eq_none {response : Response} (h : response.location = none)
    (patience : Nat) (request : Request) : response.next? patience request = none := by
  cases hnext : response.next? patience request with
  | none => rfl
  | some found =>
    obtain ⟨answer, -, hredirect⟩ := next?_eq_some hnext
    obtain ⟨url, hlocation, -⟩ := Request.redirect?_eq_some hredirect
    rw [h] at hlocation
    cases hlocation

/-- A server whose answers lead nowhere does what the node does. -/
theorem Node.reply_following_serving (node : Node σ) (patience : Request → Nat) (s : σ)
    (request : Request) :
    (node.serving.following patience).reply s request = node.reply s request.sent :=
  Server.carry_of_next?_eq_none maxRedirects (Response.next?_eq_none rfl _ _)

/-! ## Calls -/

namespace Call

variable {server : Server σ} {patience : Request → Nat} {seconds : Nat} {reader : Json.Reader α}
  {call : Call}

/-- What a call leaves with a server: nothing if it does not go out, and else the trail of its
request. -/
inductive Leaves (server : Server σ) (seconds : Nat) (call : Call) (before : σ) :
    List Request → σ → Prop
  | nothing (h : ∀ url, Url.parse call.url = .ok url →
      ¬ (isSendable url = true ∧ seconds ≠ 0 ∧ server.reachable before url = true)) :
    Leaves server seconds call before [] before
  | trail {url : Url} {later : List Request} {after : σ} (hparse : Url.parse call.url = .ok url)
    (hsendable : isSendable url = true) (hseconds : seconds ≠ 0)
    (hreachable : server.reachable before url = true)
    (h : server.Trail before (call.request url) (call.request url :: later) after)
    (hlength : later.length ≤ maxRedirects) :
    Leaves server seconds call before (call.request url :: later) after

section

variable {before after : σ} {requests : List Request}

theorem Leaves.length_le (h : call.Leaves server seconds before requests after) :
    requests.length ≤ maxRedirects + 1 := by
  cases h with
  | nothing => exact Nat.zero_le _
  | trail _ _ _ _ _ hlength => exact Nat.add_le_add_right hlength 1

theorem Leaves.length_le_one (h : call.Leaves server seconds before requests after)
    (hnowhere : server.LeadsNowhere) : requests.length ≤ 1 := by
  cases h with
  | nothing => exact Nat.zero_le _
  | trail _ _ _ _ h =>
    rw [h.eq_singleton hnowhere]
    exact Nat.le_refl 1

theorem Leaves.body_eq (h : call.Leaves server seconds before requests after) :
    ∀ r ∈ requests, r.method = .post → r.body = call.body := by
  cases h with
  | nothing => exact List.forall_mem_nil _
  | trail _ _ _ _ h => exact h.body_eq

theorem Leaves.forall_get (h : call.Leaves server seconds before requests after)
    (hmethod : call.method = .get) (hbody : call.body = []) :
    ∀ r ∈ requests, r.method = .get ∧ r.body = [] := by
  cases h with
  | nothing => exact List.forall_mem_nil _
  | trail _ _ _ _ h => exact h.forall_get hmethod hbody

end

variable {before after : σ × List Request} {result : Except Fault α} {ending : Ending}

/-- What a call that comes to something has left with the server behind the node. -/
theorem ComesTo.exists_leaves
    (h : call.ComesTo (server.recording.following patience) seconds reader before result ending
      after) :
    ∃ requests, after.2 = before.2 ++ requests ∧
      call.Leaves server seconds before.1 requests after.1 := by
  by_cases hgoes : ∃ url, call.GoesOut (server.recording.following patience) seconds before url
  · obtain ⟨url, hgoes⟩ := hgoes
    obtain ⟨later, htrail, hlog, hlength⟩ := server.exists_trail_carry maxRedirects
      (patience (call.request url)) before (call.request url)
    have hsent : (call.request url).sent = call.request url := rfl
    rw [hsent] at htrail hlog
    rw [h.after_eq hgoes]
    exact ⟨_, hlog, .trail hgoes.parse hgoes.sendable hgoes.seconds hgoes.reachable htrail hlength⟩
  · rw [h.eq_before fun url hurl => hgoes ⟨url, hurl⟩]
    refine ⟨[], (List.append_nil _).symm, .nothing fun url hparse hout => hgoes ⟨url, ?_⟩⟩
    exact ⟨hparse, hout.1, hout.2.1, hout.2.2⟩

end Call

end CertRegistry.Rest
