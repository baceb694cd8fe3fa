import CertRegistry.Proofs.Endpoint
import CertRegistry.Proofs.Text.Blank
import CertRegistry.Proofs.Url.Slashes
import CertRegistry.Rest.Client

/-!
# Bases as endpoints

A base can be given as an endpoint again. It is its own base unless what was taken off the endpoint
has left blanks at its end, or has taken the slashes of its scheme. Both come from slashes only, so
an endpoint without slashes at its end is as good as its base.
-/

namespace CertRegistry.Endpoint

open Rest Url

/-- Whether a text is a URL with a host, with nothing at its ends that an endpoint does not need. -/
structure IsNormal (text : String) : Prop where
  front : ∀ c, text.toList.head? = some c → Text.isBlank c = false
  back : ∀ c, text.toList.getLast? = some c → Text.isBlank c = false
  unslashed : ∀ c, text.toList.getLast? = some c → c ≠ '/'
  scheme : hasScheme text.toList = true
  host : ∃ url, Url.parse text = .ok url ∧ url.hostText ≠ []

variable {endpoint base text : String}

theorem hasScheme_candidate (endpoint : String) : hasScheme (candidate endpoint).toList = true := by
  unfold candidate
  simp only
  split
  · next h => exact h
  · rw [String.toList_append]
    rfl

theorem front_candidate (endpoint : String) :
    ∀ c, (candidate endpoint).toList.head? = some c → Text.isBlank c = false := by
  unfold candidate
  simp only
  split
  · exact (Text.trim_eq_iff.mp rfl).head
  · intro c hc
    rw [String.toList_append] at hc
    cases hc
    decide

theorem back_candidate (endpoint : String) :
    ∀ c, (candidate endpoint).toList.getLast? = some c → Text.isBlank c = false := by
  have hlast := (Text.trim_eq_iff.mp (Eq.refl (Text.trim endpoint))).last
  unfold candidate
  simp only
  split
  · exact hlast
  · intro c hc
    rw [String.toList_append, List.getLast?_append] at hc
    rcases Option.or_eq_some_iff.mp hc with hc | ⟨-, hc⟩
    · exact hlast c hc
    · cases hc
      decide

/-- What is taken off a base is not enough for a scheme to be put in front of it. -/
theorem hasScheme_of_base_eq_self (h : Endpoint.base text = .ok text) :
    hasScheme (Text.trim text).toList = true := by
  by_contra hscheme
  obtain ⟨slashes, hcandidate, hslashes⟩ := exists_slashes h
  obtain ⟨front, back, htext, hfront, hback⟩ :=
    (Text.trim_eq_iff.mp (Eq.refl (Text.trim text))).between
  have hnone : ∀ cs : List Char, ':' ∉ cs → cs.count ':' = 0 := fun cs => List.count_eq_zero.mpr
  have hblank : Text.isBlank ':' ≠ true := by decide
  -- the new scheme has a colon more than the text
  have hcount := congrArg (List.count ':') hcandidate
  rw [candidate, if_neg hscheme, String.toList_append, List.count_append, List.count_append,
    htext, List.count_append, List.count_append, hnone front fun h => hblank (hfront ':' h),
    hnone back fun h => hblank (hback ':' h),
    hnone slashes fun h => absurd (hslashes ':' h) (by decide)] at hcount
  have hcolon : "http://".toList.count ':' = 1 := by decide
  omega

theorem base_eq_self_iff : Endpoint.base text = .ok text ↔ IsNormal text := by
  constructor
  · intro h
    have hscheme := hasScheme_of_base_eq_self h
    have hcandidate : candidate text = Text.trim text := if_pos hscheme
    obtain ⟨url, hparse, hhost, hdropped⟩ := base_eq_ok.mp h
    obtain ⟨slashes, hslashes, -⟩ := exists_slashes h
    have hinside := Text.trim_eq_iff.mp (Eq.refl (Text.trim text))
    obtain ⟨front, back, htext, -⟩ := hinside.between
    -- nothing is taken off, since what is left is as long as the text
    have hlength := congrArg List.length htext
    rw [← hcandidate, hslashes] at hlength
    simp only [List.length_append] at hlength
    obtain rfl : slashes = [] := List.eq_nil_of_length_eq_zero (by omega)
    have hself : candidate text = text :=
      String.toList_injective (by rw [hslashes, List.append_nil])
    rw [← hcandidate, hself] at hinside hscheme
    rw [hself] at hparse hdropped
    refine ⟨hinside.head, hinside.last, fun c hc => ?_, hscheme, url, hparse, hhost⟩
    rw [hdropped] at hc
    simpa using Text.getLast?_dropEndWhile _ _ c hc
  · rintro ⟨hfront, hback, hslash, hscheme, url, hparse, hhost⟩
    have htrim : Text.trim text = text :=
      Text.trim_eq_iff.mpr ⟨⟨[], [], by simp, by simp, by simp⟩, hfront, hback⟩
    have hself : candidate text = text := by rw [candidate, htrim, if_pos hscheme]
    refine base_eq_ok.mpr ⟨url, by rw [hself]; exact hparse, hhost, ?_⟩
    rw [hself, Text.dropEndWhile_eq_self]
    simpa using hslash

/-! ## The base of an endpoint -/

theorem front_base (h : Endpoint.base endpoint = .ok base) :
    ∀ c, base.toList.head? = some c → Text.isBlank c = false := by
  obtain ⟨slashes, hcandidate, -⟩ := exists_slashes h
  intro c hc
  refine front_candidate endpoint c ?_
  rw [hcandidate, List.head?_append, hc]
  rfl

theorem unslashed_base (h : Endpoint.base endpoint = .ok base) :
    ∀ c, base.toList.getLast? = some c → c ≠ '/' := by
  obtain ⟨_, -, -, hdropped⟩ := base_eq_ok.mp h
  intro c hc
  rw [hdropped] at hc
  simpa using Text.getLast?_dropEndWhile _ _ c hc

/-- A base that ends in something visible is a URL that names the host of the endpoint. -/
theorem exists_sharesHost (h : Endpoint.base endpoint = .ok base)
    (hvisible : ∀ c, base.toList.getLast? = some c → 0x20 < c.toNat) :
    ∃ url url', Url.parse (candidate endpoint) = .ok url ∧ Url.parse base = .ok url' ∧
      url'.SharesHost url ∧ url'.hostText ≠ [] := by
  obtain ⟨url, hparse, hhost, -⟩ := base_eq_ok.mp h
  obtain ⟨slashes, hcandidate, hslashes⟩ := exists_slashes h
  have hseen := exists_visible hparse hcandidate hslashes
  have hplain : unbroken slashes = slashes := by
    refine unbroken_eq_self fun c hc => ?_
    rw [hslashes c hc]
    decide
  have hlonger : strip (candidate endpoint) = opened base.toList ++ slashes := by
    rw [strip_append hcandidate hseen, hplain]
    intro c hc
    rw [List.getLast?_append] at hc
    rcases Option.or_eq_some_iff.mp hc with hc | ⟨-, hc⟩
    · rw [hslashes c (List.mem_of_getLast? hc)]
      decide
    · exact hvisible c hc
  have hshorter : strip base = opened base.toList := by
    rw [strip_append (List.append_nil _).symm hseen, unbroken, List.filter_nil, List.append_nil]
    rwa [List.append_nil]
  obtain ⟨url', hparse', hshares⟩ := exists_shorter hparse hhost hlonger hslashes hshorter
  exact ⟨url, url', hparse, hparse', hshares, hshares.hostText_eq ▸ hhost⟩

/-- For a client an endpoint is as good as its base. -/
theorem ofEndpoint_eq (h : Endpoint.base endpoint = .ok base) (timeoutSeconds : Nat) :
    Client.ofEndpoint endpoint timeoutSeconds = .ok { base, timeoutSeconds } := by
  unfold Client.ofEndpoint
  rw [h]

theorem waitForNode_eq {σ : Type} (node : Node σ) (client : Client)
    (h : Endpoint.base endpoint = .ok base) (tries : UInt32) (step : Duration) :
    client.waitForNode node endpoint tries step =
      client.waitForStatus node (base ++ "/blocks") 200 tries step := by
  unfold Client.waitForNode
  rw [h]

/-- The base of an endpoint starts with nothing blank and ends in no slash. If no slashes have been
taken off, it is its own base. If it ends in something visible, it is a URL that names the host of
the endpoint in the same way. It is its own base exactly if it does not end in a blank, still has a
scheme and slashes, and is a URL with a host, of which there is no doubt but behind a control
character. Then it is as good as the endpoint for a client and for a wait. -/
theorem base_again (h : Endpoint.base endpoint = .ok base) :
    (∀ c, base.toList.head? = some c → Text.isBlank c = false) ∧
    (∀ c, base.toList.getLast? = some c → c ≠ '/') ∧
    (candidate endpoint = base → Endpoint.base base = .ok base) ∧
    ((∀ c, base.toList.getLast? = some c → 0x20 < c.toNat) → ∃ url url',
      Url.parse (candidate endpoint) = .ok url ∧ Url.parse base = .ok url' ∧
        url'.SharesHost url) ∧
    (Endpoint.base base = .ok base ↔
      (∀ c, base.toList.getLast? = some c → Text.isBlank c = false) ∧
        hasScheme base.toList = true ∧
        ((∀ c, base.toList.getLast? = some c → 0x20 < c.toNat) ∨
          ∃ url, Url.parse base = .ok url ∧ url.hostText ≠ [])) ∧
    (Endpoint.base base = .ok base →
      (∀ timeoutSeconds,
        Client.ofEndpoint base timeoutSeconds = Client.ofEndpoint endpoint timeoutSeconds) ∧
      ∀ {σ : Type} (node : Node σ) (client : Client) (tries : UInt32) (step : Duration),
        client.waitForNode node base tries step = client.waitForNode node endpoint tries step) := by
  have hfront := front_base h
  have hslash := unslashed_base h
  refine ⟨hfront, hslash, fun hself => ?_, fun hvisible => ?_, ?_, fun hnormal => ⟨?_, ?_⟩⟩
  · obtain ⟨url, hparse, hhost, -⟩ := base_eq_ok.mp h
    have hback := back_candidate endpoint
    have hscheme := hasScheme_candidate endpoint
    rw [hself] at hparse hback hscheme
    exact base_eq_self_iff.mpr ⟨hfront, hback, hslash, hscheme, url, hparse, hhost⟩
  · obtain ⟨url, url', hparse, hparse', hshares, -⟩ := exists_sharesHost h hvisible
    exact ⟨url, url', hparse, hparse', hshares⟩
  · rw [base_eq_self_iff]
    constructor
    · intro hnormal
      exact ⟨hnormal.back, hnormal.scheme, .inr hnormal.host⟩
    · rintro ⟨hback, hscheme, hvisible | hurl⟩
      · obtain ⟨-, url', -, hparse', -, hhost⟩ := exists_sharesHost h hvisible
        exact ⟨hfront, hback, hslash, hscheme, url', hparse', hhost⟩
      · exact ⟨hfront, hback, hslash, hscheme, hurl⟩
  · intro timeoutSeconds
    exact (ofEndpoint_eq hnormal timeoutSeconds).trans (ofEndpoint_eq h timeoutSeconds).symm
  · intro σ node client tries step
    exact (waitForNode_eq node client hnormal tries step).trans
      (waitForNode_eq node client h tries step).symm

/-- A base that has lost its slashes keeps the path before them, and stays as it is. -/
theorem base_again_nested :
    Endpoint.base "127.0.0.1:8008/v1//" = .ok "http://127.0.0.1:8008/v1" ∧
      Endpoint.base "http://127.0.0.1:8008/v1" = .ok "http://127.0.0.1:8008/v1" := by
  have hpath : IsPlainPath "/v1//".toList := by decide +kernel
  have hbase : Endpoint.base "127.0.0.1:8008/v1//" = .ok "http://127.0.0.1:8008/v1" :=
    base_local hpath isPlain_of_none (by decide +kernel) (by decide +kernel)
  have hlast : "http://127.0.0.1:8008/v1".toList.getLast? = some '1' := by decide
  obtain ⟨-, -, -, -, hiff, -⟩ := base_again hbase
  refine ⟨hbase, hiff.mpr ⟨?_, by decide, .inl ?_⟩⟩
  · rintro c hc
    rw [hlast] at hc
    exact Option.some.inj hc ▸ (by decide)
  · rintro c hc
    rw [hlast] at hc
    exact Option.some.inj hc ▸ (by decide)

/-- A blank before a slash is left at the end of the base, and would be taken off the next time. -/
theorem base_again_blank :
    Endpoint.base "node:8008/ /" = .ok "http://node:8008/ " ∧
      Endpoint.base "http://node:8008/ " ≠ .ok "http://node:8008/ " := by
  refine ⟨by decide +kernel, fun h => ?_⟩
  exact absurd ((base_eq_self_iff.mp h).back ' ' (by decide)) (by decide)

end CertRegistry.Endpoint
