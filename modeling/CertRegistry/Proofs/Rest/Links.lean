import CertRegistry.Proofs.Node.Requests
import CertRegistry.Proofs.Rest.Pages
import Mathlib.Data.List.Chain
import Mathlib.Data.Set.Finite.Basic
import Mathlib.Logic.Relation

/-!
# Lists that lead back

Where the answers of a node depend on the request alone, an address always gives the same page and
leads to the same address. Reading a list ends if and only if no page of it leads back to an earlier
one, and then each of its pages is requested once. Nothing else ends it: pages in a circle are
requested for ever.
-/

namespace CertRegistry.Rest

variable {σ α : Type}

/-! ## Walks -/

section Walk

variable {R : α → α → Prop} {walk : List α} {a last : α}

/-- Who comes to a dead end has not been anywhere twice. -/
theorem not_transGen_of_deadEnd (hunique : Relator.RightUnique R)
    (h : Relation.ReflTransGen R a last) (hdead : ∀ next, ¬ R last next) :
    ¬ Relation.TransGen R a a := by
  induction h using Relation.ReflTransGen.head_induction_on with
  | refl =>
    intro hcircle
    obtain ⟨next, hstep, -⟩ := Relation.TransGen.head'_iff.mp hcircle
    exact hdead next hstep
  | head hstep hrest ih =>
    -- Only one step leads on, so a circle through this place goes through the next one.
    intro hcircle
    obtain ⟨next, hstep', hback⟩ := Relation.TransGen.head'_iff.mp hcircle
    obtain rfl := hunique hstep hstep'
    exact ih (Relation.TransGen.tail' hback hstep)

/-- On the way to a circle there is no dead end. -/
theorem exists_next_of_circle (hunique : Relator.RightUnique R) {start x : α}
    (hcircle : Relation.TransGen R a a) (ha : Relation.ReflTransGen R start a)
    (hx : Relation.ReflTransGen R start x) : ∃ next, R x next := by
  by_contra hnone
  have hdead : ∀ next, ¬ R x next := fun next hstep => hnone ⟨next, hstep⟩
  rcases Relation.ReflTransGen.total_of_right_unique hunique ha hx with hax | hxa
  · exact not_transGen_of_deadEnd hunique hax hdead hcircle
  · rcases Relation.ReflTransGen.cases_head hxa with rfl | ⟨next, hstep, -⟩
    · obtain ⟨next, hstep, -⟩ := Relation.TransGen.head'_iff.mp hcircle
      exact hdead next hstep
    · exact hdead next hstep

theorem pairwise_transGen_of_isChain (h : walk.IsChain R) : walk.Pairwise (Relation.TransGen R) :=
  List.isChain_iff_pairwise.mp (h.imp fun _ _ => Relation.TransGen.single)

theorem nodup_of_isChain (h : walk.IsChain R) (hacyclic : ∀ a ∈ walk, ¬ Relation.TransGen R a a) :
    walk.Nodup := by
  refine (pairwise_transGen_of_isChain h).imp_of_mem fun {a b} ha _ hab => ?_
  rintro rfl
  exact hacyclic a ha hab

theorem length_le_card [DecidableEq α] {s : Set α} (hfinite : s.Finite) (hnodup : walk.Nodup)
    (hmem : ∀ a ∈ walk, a ∈ s) : walk.length ≤ hfinite.toFinset.card := by
  rw [← List.toFinset_card_of_nodup hnodup]
  refine Finset.card_le_card fun a ha => ?_
  exact hfinite.mem_toFinset.mpr (hmem a (List.mem_toFinset.mp ha))

end Walk

/-! ## Nodes whose answers do not change -/

/-- Whether what a node does about a question depends on the question alone. -/
structure Node.IsFixed (node : Node σ) : Prop where
  reachable : ∀ s s' url, node.reachable s url = node.reachable s' url
  reply : ∀ s s' request, request.method = .get →
    (node.reply s request).1 = (node.reply s' request).1

variable {node : Node σ} {seconds : Nat} {before middle after : σ} {url next : String} {page : Page}
  {chain : List (String × Page)} {next? last? : Option String} {fault : Fault}
  {failed? : Option (String × Fault)}

theorem Call.Succeeds.unique {call : Call} {reader : Json.Reader α} {a b : α} {after' : σ}
    (h : call.Succeeds node seconds reader before a after)
    (h' : call.Succeeds node seconds reader before b after') : a = b ∧ after = after' := by
  obtain ⟨delay, answer, text, hanswered, hstatus, hbody, hread⟩ := h
  obtain ⟨hok, hafter⟩ := (ComesTo.read hanswered hstatus hbody hread).of_succeeds h'
  exact ⟨Except.ok.inj hok, hafter⟩

/-- What such a node once answers to a question it always answers. -/
theorem Node.IsFixed.succeeds (hfixed : node.IsFixed) {call : Call} (hmethod : call.method = .get)
    {reader : Json.Reader α} {a : α} (h : call.Succeeds node seconds reader before a after)
    (state : σ) : ∃ after', call.Succeeds node seconds reader state a after' := by
  obtain ⟨delay, answer, text, ⟨⟨url, hgoes, hreply⟩, hintime⟩, hrest⟩ := h
  have hreachable : node.reachable state url = true :=
    (hfixed.reachable state before url).trans hgoes.reachable
  have hsame : (node.reply state (call.request url)).1 = .answer delay answer := by
    rw [hfixed.reply state before (call.request url) hmethod, hreply]
  exact ⟨(node.reply state (call.request url)).2, delay, answer, text,
    ⟨⟨url, ⟨hgoes.parse, hgoes.sendable, hgoes.seconds, hreachable⟩, Prod.ext hsame rfl⟩, hintime⟩,
    hrest⟩

namespace Page

/-- Whether an address gives a page that leads to another address. -/
def Links (node : Node σ) (seconds : Nat) (url next : String) : Prop :=
  ∃ before page after, IsGiven node seconds url before page after ∧ page.LeadsTo (some next)

/-- Whether an address is that of a page of the list that begins at another one. -/
def Reaches (node : Node σ) (seconds : Nat) (start url : String) : Prop :=
  Relation.ReflTransGen (Links node seconds) start url

/-- Whether a page of a list leads back to itself, at once or through others. -/
def IsCircular (node : Node σ) (seconds : Nat) (start : String) : Prop :=
  ∃ url, Reaches node seconds start url ∧ Relation.TransGen (Links node seconds) url url

/-- An address that gives a page leads only where that page leads. -/
theorem IsGiven.leadsTo_of_links (hgiven : IsGiven node seconds url before page after)
    (hfixed : node.IsFixed) (h : Links node seconds url next) : page.LeadsTo (some next) := by
  obtain ⟨before', page', after', hgiven', hleads⟩ := h
  obtain ⟨after'', hmoved⟩ := hfixed.succeeds rfl hgiven'.succeeds before
  obtain ⟨rfl, -⟩ := hgiven.succeeds.unique hmoved
  exact hleads

theorem rightUnique_links (hfixed : node.IsFixed) : Relator.RightUnique (Links node seconds) := by
  rintro url a b ⟨before, page, after, hgiven, ha⟩ hb
  have hb := hgiven.leadsTo_of_links hfixed hb
  exact Option.some.inj (ha.next?_eq.symm.trans hb.next?_eq)

theorem Fails.not_isGiven (h : Fails node seconds url before fault after) :
    ¬ IsGiven node seconds url before page middle := by
  intro hgiven
  cases h with
  | request h => exact nomatch (h.of_succeeds hgiven.succeeds).1
  | @misspelled page' _ earlier later raw base64 h hdata _ hraw =>
    obtain ⟨rfl, -⟩ := hgiven.succeeds.unique h
    obtain ⟨octets, hoctets⟩ := hgiven.wellSpelled raw (by rw [hdata]; simp)
    rw [Base64.decode_eq_ok_iff.mpr hoctets] at hraw
    cases hraw

/-- An address with a fault leads nowhere. -/
theorem Fails.not_links (h : Fails node seconds url before fault after) (hfixed : node.IsFixed)
    (next : String) : ¬ Links node seconds url next := by
  rintro ⟨before', page, after', hgiven, -⟩
  obtain ⟨after'', hmoved⟩ := hfixed.succeeds rfl hgiven.succeeds before
  exact h.not_isGiven ⟨hmoved, hgiven.wellSpelled⟩

theorem Fails.ne_moreToRead (h : Fails node seconds url before fault after) :
    fault ≠ .moreToRead := by
  cases h with
  | request h => cases h <;> exact nofun
  | misspelled => exact nofun

/-! ## How lists end -/

/-- The addresses of pages, and the one that they lead to. -/
def visited (chain : List (String × Page)) (last? : Option String) : List String :=
  chain.map (·.1) ++ last?.toList

/-- How a list ends: with a page that leads nowhere, or with an address that has a fault. -/
inductive Ends (node : Node σ) (seconds : Nat) (before : σ) (start : String) :
    List (String × Page) → Option (String × Fault) → σ → Prop
  | complete {chain : List (String × Page)} {after : σ}
    (h : Chain node seconds before (some start) chain none after) :
    Ends node seconds before start chain none after
  | broken {chain : List (String × Page)} {last : String} {middle after : σ} {fault : Fault}
    (h : Chain node seconds before (some start) chain (some last) middle)
    (hfails : Fails node seconds last middle fault after) :
    Ends node seconds before start chain (some (last, fault)) after

/-- What reading a list that ends comes to: the entries of all pages, or the fault. -/
inductive Yields (chain : List (String × Page)) :
    Option (String × Fault) → Except Fault (List StateEntry) → Prop
  | entries {entries : List StateEntry}
    (h : entries.map StateEntry.encoded = chain.flatMap (·.2.data)) :
    Yields chain none (.ok entries)
  | fault (url : String) (fault : Fault) : Yields chain (some (url, fault)) (.error fault)

theorem Ends.turn (hgiven : IsGiven node seconds url before page middle)
    (hnext : page.LeadsTo (some next)) (h : Ends node seconds middle next chain failed? after) :
    Ends node seconds before url ((url, page) :: chain) failed? after := by
  cases h with
  | complete h => exact .complete (.turn hgiven hnext h)
  | broken h hfails => exact .broken (.turn hgiven hnext h) hfails

/-- A list has more pages than a limit, or it ends within it. -/
theorem exists_chain_or_ends (node : Node σ) (seconds limit : Nat) (url : String) (before : σ) :
    (∃ chain last after, Chain node seconds before (some url) chain (some last) after ∧
      chain.length = limit) ∨
    ∃ chain failed? after, Ends node seconds before url chain failed? after ∧
      (visited chain (failed?.map (·.1))).length ≤ limit := by
  induction limit generalizing url before with
  | zero => exact .inl ⟨[], url, before, .stay _ _, rfl⟩
  | succ limit ih =>
    rcases isGiven_or_fails node seconds url before with
      ⟨page, middle, hgiven⟩ | ⟨fault, after, hfails⟩
    · obtain ⟨next?, hnext⟩ := page.exists_leadsTo
      cases next? with
      | none => exact .inr ⟨_, _, _, .complete (.turn hgiven hnext (.stay _ _)), by simp [visited]⟩
      | some next =>
        rcases ih next middle with ⟨chain, last, after, hchain, hlength⟩ |
          ⟨chain, failed?, after, hends, hlength⟩
        · exact .inl ⟨_, last, after, .turn hgiven hnext hchain, by simp [hlength]⟩
        · refine .inr ⟨_, failed?, after, hends.turn hgiven hnext, ?_⟩
          simpa [visited] using hlength
    · exact .inr ⟨[], some (url, fault), after, .broken (.stay _ _) hfails, by simp [visited]⟩

theorem Chain.head?_visited (h : Chain node seconds before next? chain last? after) :
    (visited chain last?).head? = next? := by
  cases h with
  | stay => cases next? <;> rfl
  | turn => rfl

theorem Chain.isChain_visited (h : Chain node seconds before next? chain last? after) :
    (visited chain last?).IsChain (Links node seconds) := by
  induction h with
  | stay _ next? => cases next? <;> simp [visited]
  | @turn before middle after url page next? last? rest hgiven hnext hrest ih =>
    refine List.isChain_cons.mpr ⟨fun next hhead => ?_, ih⟩
    obtain rfl : next? = some next := hrest.head?_visited.symm.trans hhead
    exact ⟨before, page, middle, hgiven, hnext⟩

theorem Chain.reaches_of_mem (h : Chain node seconds before (some url) chain last? after) :
    ∀ other ∈ visited chain last?, Reaches node seconds url other := by
  have hwalk := pairwise_transGen_of_isChain h.isChain_visited
  obtain ⟨rest, hrest⟩ := List.head?_eq_some_iff.mp h.head?_visited
  rw [hrest] at hwalk ⊢
  intro other hother
  rcases List.mem_cons.mp hother with rfl | hother
  · exact .refl
  · exact ((List.pairwise_cons.mp hwalk).1 other hother).to_reflTransGen

/-- Who visits the pages up to one that leads nowhere has been wherever they lead. -/
theorem Chain.mem_of_links (hfixed : node.IsFixed)
    (h : Chain node seconds before next? chain last? after)
    (hdead : ∀ last ∈ last?, ∀ next, ¬ Links node seconds last next)
    (hurl : url ∈ visited chain last?) (hlinks : Links node seconds url next) :
    next ∈ visited chain last? := by
  induction h with
  | stay state next? =>
    refine absurd hlinks (hdead url ?_ next)
    simpa [visited] using hurl
  | @turn before middle after first page next? last? rest hgiven hnext hrest ih =>
    rcases List.mem_cons.mp hurl with rfl | hurl
    · obtain rfl : next? = some next :=
        hnext.next?_eq.symm.trans (hgiven.leadsTo_of_links hfixed hlinks).next?_eq
      exact List.mem_cons_of_mem _ (List.mem_of_head? hrest.head?_visited)
    · exact List.mem_cons_of_mem _ (ih hdead hurl)

theorem Chain.exists_deadEnd (hfixed : node.IsFixed)
    (h : Chain node seconds before next? chain last? after)
    (hdead : ∀ last ∈ last?, ∀ next, ¬ Links node seconds last next) :
    next? = none ∨ ∃ last ∈ visited chain last?, ∀ next, ¬ Links node seconds last next := by
  induction h with
  | stay state next? =>
    cases next? with
    | none => exact .inl rfl
    | some last => exact .inr ⟨last, List.mem_singleton_self last, hdead last rfl⟩
  | @turn before middle after url page next? last? rest hgiven hnext hrest ih =>
    rcases ih hdead with rfl | ⟨last, hlast, hnever⟩
    · refine .inr ⟨url, List.mem_cons_self, fun next hlinks => ?_⟩
      have hleads := hgiven.leadsTo_of_links hfixed hlinks
      exact nomatch hnext.next?_eq.symm.trans hleads.next?_eq
    · exact .inr ⟨last, List.mem_cons_of_mem _ hlast, hnever⟩

theorem Ends.ne_moreToRead (h : Ends node seconds before url chain failed? after)
    {result : Except Fault (List StateEntry)} (hyields : Yields chain failed? result) :
    result ≠ .error .moreToRead := by
  cases hyields with
  | entries => exact nofun
  | fault last fault =>
    cases h with
    | broken _ hfails => exact fun heq => hfails.ne_moreToRead (Except.error.inj heq)

/-- A list that ends is a walk to a dead end. -/
theorem Ends.exists_walk (hfixed : node.IsFixed)
    (h : Ends node seconds before url chain failed? after) :
    (∃ middle, Chain node seconds before (some url) chain (failed?.map (·.1)) middle) ∧
      ∀ last ∈ failed?.map (·.1), ∀ next, ¬ Links node seconds last next := by
  cases h with
  | complete h => exact ⟨⟨_, h⟩, nofun⟩
  | broken h hfails =>
    refine ⟨⟨_, h⟩, ?_⟩
    rintro last ⟨⟩
    exact hfails.not_links hfixed

/-- A list that ends goes round in no circle, and all that belongs to it is visited once. -/
theorem Ends.visits_once (hfixed : node.IsFixed)
    (h : Ends node seconds before url chain failed? after) :
    ¬ IsCircular node seconds url ∧ (visited chain (failed?.map (·.1))).Nodup ∧
      ∀ other, other ∈ visited chain (failed?.map (·.1)) ↔ Reaches node seconds url other := by
  obtain ⟨⟨middle, hchain⟩, hdead⟩ := h.exists_walk hfixed
  have hunique : Relator.RightUnique (Links node seconds) := rightUnique_links hfixed
  have hreaches := hchain.reaches_of_mem
  have hacyclic : ¬ IsCircular node seconds url := by
    rintro ⟨other, hother, hcircle⟩
    obtain hnone | ⟨last, hlast, hnever⟩ := hchain.exists_deadEnd hfixed hdead
    · cases hnone
    · obtain ⟨next, hnext⟩ := exists_next_of_circle hunique hcircle hother (hreaches last hlast)
      exact hnever next hnext
  refine ⟨hacyclic, ?_, fun other => ⟨hreaches other, fun hother => ?_⟩⟩
  · exact nodup_of_isChain hchain.isChain_visited fun other hother hcircle =>
      hacyclic ⟨other, hreaches other hother, hcircle⟩
  · induction hother with
    | refl => exact List.mem_of_head? hchain.head?_visited
    | tail _ hlinks ih => exact hchain.mem_of_links hfixed hdead ih hlinks

end Page

/-! ## Reading -/

namespace Client

variable {client : Client} {s : Session σ} {subtree : Option String} {last : String}

/-- Reading a list that ends takes as many requests as there are addresses to visit. -/
theorem listState_of_ends
    (h : Page.Ends node client.timeoutSeconds s.node (client.stateUrl subtree) chain failed?
      after) :
    ∃ result, Page.Yields chain failed? result ∧
      ∀ limit, (Page.visited chain (failed?.map (·.1))).length ≤ limit →
        ∃ s', (client.listState node limit subtree).run.run s = (result, s') ∧ s'.node = after ∧
          s.Visits (Page.visited chain (failed?.map (·.1))) s' := by
  cases h with
  | complete h =>
    obtain ⟨entries, -, hentries, -⟩ := pagesFrom_chain h (Nat.le_refl _)
    refine ⟨.ok entries, .entries hentries, fun limit hlimit => ?_⟩
    have hlength : chain.length ≤ limit := by simpa [Page.visited] using hlimit
    obtain ⟨entries', s', hentries', hnode, hvisits, hrun⟩ := pagesFrom_chain h hlength
    -- The same data spells the same entries.
    obtain rfl : entries' = entries := by
      have hdecoded := mapM_decodeEntry_encoded entries'
      rw [hentries', ← hentries, mapM_decodeEntry_encoded] at hdecoded
      exact (Except.ok.inj hdecoded).symm
    refine ⟨s', ?_, hnode, by simpa [Page.visited] using hvisits⟩
    refine hrun.trans ?_
    rw [Talk.run_bind]
    simp only [pagesFrom, Talk.run_pure, List.append_nil]
  | @broken last middle _ fault h hfails =>
    refine ⟨.error fault, .fault last fault, fun limit hlimit => ?_⟩
    have hlength : chain.length + 1 ≤ limit := by simpa [Page.visited] using hlimit
    obtain ⟨entries, s₁, -, rfl, hvisits, hrun⟩ := pagesFrom_chain h (Nat.le_of_lt hlength)
    obtain ⟨s', hfail, hnode, hvisits'⟩ := statePages_fails hfails (limit - chain.length - 1)
    rw [Nat.sub_add_cancel (Nat.sub_pos_of_lt hlength)] at hfail
    refine ⟨s', ?_, hnode, hvisits.trans hvisits'⟩
    refine hrun.trans ?_
    rw [Talk.run_bind]
    simp only [pagesFrom, hfail]

/-- Where a list has more pages than the limit, as many of them are requested. -/
theorem listState_overruns (client : Client) (subtree : Option String) (s : Session σ)
    (h : Page.Chain node client.timeoutSeconds s.node (some (client.stateUrl subtree)) chain
      (some last) after) :
    ∃ s', (client.listState node chain.length subtree).run.run s = (.error .moreToRead, s') ∧
      s.Visits (chain.map (·.1)) s' := by
  obtain ⟨entries, s', -, -, hvisits, hrun⟩ := pagesFrom_chain h (Nat.le_refl _)
  refine ⟨s', ?_, hvisits⟩
  refine hrun.trans ?_
  rw [Nat.sub_self, Talk.run_bind]
  rfl

/-- Whether a list of finitely many pages is read to its end is a matter of its links alone. If no
page leads back to an earlier one, each page is requested once, and the entries or a fault come of
it. If one does, no number of requests is enough. -/
theorem listState_returns_unless_circular (node : Node σ) (hfixed : node.IsFixed) (client : Client)
    (s : Session σ) (subtree : Option String)
    (hfinite :
      {url | Page.Reaches node client.timeoutSeconds (client.stateUrl subtree) url}.Finite) :
    (¬ Page.IsCircular node client.timeoutSeconds (client.stateUrl subtree) →
      ∃ result urls, result ≠ .error .moreToRead ∧ urls.Nodup ∧
        (∀ url, url ∈ urls ↔
          Page.Reaches node client.timeoutSeconds (client.stateUrl subtree) url) ∧
        ∀ limit, urls.length ≤ limit →
          ∃ s', (client.listState node limit subtree).run.run s = (result, s') ∧
            s.Visits urls s') ∧
    (Page.IsCircular node client.timeoutSeconds (client.stateUrl subtree) →
      ∀ limit, ∃ s' urls, (client.listState node limit subtree).run.run s =
          (.error .moreToRead, s') ∧ s.Visits urls s' ∧ urls.length = limit ∧
        ∀ url ∈ urls, Page.Reaches node client.timeoutSeconds (client.stateUrl subtree) url) := by
  constructor
  · intro hacyclic
    rcases Page.exists_chain_or_ends node client.timeoutSeconds hfinite.toFinset.card
        (client.stateUrl subtree) s.node with
      ⟨chain, last, after, hchain, hlength⟩ | ⟨chain, failed?, after, hends, -⟩
    · -- More addresses than there are cannot all be different.
      have hreaches := hchain.reaches_of_mem
      have hnodup := nodup_of_isChain hchain.isChain_visited fun url hurl hcircle =>
        hacyclic ⟨url, hreaches url hurl, hcircle⟩
      have hcount := length_le_card hfinite hnodup hreaches
      simp only [Page.visited, List.length_append, List.length_map, Option.toList_some,
        List.length_singleton] at hcount
      omega
    · obtain ⟨-, hnodup, hreaches⟩ := hends.visits_once hfixed
      obtain ⟨result, hyields, hruns⟩ := listState_of_ends hends
      refine ⟨result, _, hends.ne_moreToRead hyields, hnodup, hreaches, fun limit hlimit => ?_⟩
      obtain ⟨s', hrun, -, hvisits⟩ := hruns limit hlimit
      exact ⟨s', hrun, hvisits⟩
  · intro hcircular limit
    rcases Page.exists_chain_or_ends node client.timeoutSeconds limit (client.stateUrl subtree)
        s.node with ⟨chain, last, after, hchain, rfl⟩ | ⟨chain, failed?, after, hends, -⟩
    · obtain ⟨s', hrun, hvisits⟩ := listState_overruns client subtree s hchain
      refine ⟨s', _, hrun, hvisits, by simp, fun url hurl => hchain.reaches_of_mem url ?_⟩
      exact List.mem_append_left _ hurl
    · exact absurd hcircular (hends.visits_once hfixed).1

/-! ## Two lists -/

/-- An answer with entries, which tells where they go on. -/
def pageWith (entries : List StateEntry) (paging : Paging) : Page where
  data := entries.map StateEntry.encoded
  paging := some paging

/-- The node that gives one page at `/state` and another one elsewhere, whatever happened before. -/
def twoPages (first second : Page) : Node Unit where
  reply _ request :=
    let page := if request.url.path = "/state".toList then first else second
    (pageReply page.data (.record (page.paging.getD {}).members), ())

theorem isFixed_twoPages (first second : Page) : (twoPages first second).IsFixed where
  reachable _ _ _ := rfl
  reply _ _ _ _ := rfl

/-- The client of a node on this machine. -/
def nearby : Client := { base := Url.localBase 8008, timeoutSeconds := 30 }

/-- What such a node answers at an address of this machine is there at once. -/
theorem isGiven_twoPages {first second : Page} {entries : List StateEntry} {paging : Paging}
    (path : List Char) (query : Option (List Char)) (hpath : Url.IsPlainPath path)
    (hquery : ∀ cs, query = some cs → ∀ c ∈ cs, Url.IsPlain c)
    (hlength : path.length + (Url.tail query).length ≤ 65000)
    (hpage : (if path = "/state".toList then first else second) = pageWith entries paging)
    (hurl : url.toList = nearby.base.toList ++ (path ++ Url.tail query)) (before : Unit) :
    (pageWith entries paging).IsGiven (twoPages first second) 30 url before () := by
  have hreply : (twoPages first second).reply before
      ((Page.call url).request (.ofLocal 8008 path query)) =
      (pageReply (entries.map StateEntry.encoded) (.record paging.members), ()) := by
    simp only [twoPages, Call.request, Url.ofLocal, hpage]
    rfl
  have hread : Page.reader.parse (Bytes.lenientText (Bytes.ofText (Json.Value.record
      [("data", .list ((entries.map StateEntry.encoded).map fun entry =>
        .record [("address", .text entry.address), ("data", .text entry.data)])),
        ("paging", .record paging.members)]).compact)) = .ok (pageWith entries paging) :=
    (Ledger.lenientText_compact _).symm ▸ Envelope.parse_page _ _
  refine ⟨Call.succeeds_local (by decide) hpath hquery hlength hurl (by decide) rfl hreply
    (by decide) hread, ?_⟩
  intro raw hraw
  obtain ⟨entry, -, rfl⟩ := List.mem_map.mp hraw
  exact ⟨entry.data, rfl⟩

/-- A page at an address without a query. -/
theorem isGiven_twoPages_of_path {first second : Page} {entries : List StateEntry} {paging : Paging}
    (path : String) (hpath : Url.IsPlainPath path.toList) (hlength : path.length ≤ 65000)
    (hpage : (if path.toList = "/state".toList then first else second) = pageWith entries paging)
    (before : Unit) :
    (pageWith entries paging).IsGiven (twoPages first second) 30 (nearby.base ++ path) before () :=
  isGiven_twoPages path.toList none hpath Url.isPlain_of_none
    (by simpa [Url.tail, String.length_toList] using hlength) hpage (by simp [Url.tail]) before

/-- A list of one page that leads back to itself is read for ever. -/
theorem listState_circles :
    let start := nearby.base ++ "/state"
    let page := pageWith [{ address := "0a", data := [1] }] { next := some start }
    let node := twoPages page page
    node.IsFixed ∧ (∀ url, Page.Reaches node 30 start url ↔ url = start) ∧
      ∀ limit, ∃ s', (nearby.listState node limit none).run.run { node := () } =
          (.error .moreToRead, s') ∧
        s'.attempts.reverse.map (·.url) = List.replicate limit start := by
  intro start page node
  have hgiven : page.IsGiven node 30 start () () :=
    isGiven_twoPages_of_path "/state" (by decide +kernel) (by decide) rfl ()
  have hback : page.LeadsTo (some start) := .onward rfl (by decide +kernel)
  have hfixed : node.IsFixed := isFixed_twoPages _ _
  have hchain : ∀ limit, Page.Chain node 30 () (some start) (List.replicate limit (start, page))
      (some start) () := by
    intro limit
    induction limit with
    | zero => exact .stay _ _
    | succ limit ih => exact .turn hgiven hback ih
  refine ⟨hfixed, fun url => ⟨fun hreaches => ?_, fun heq => heq ▸ .refl⟩, fun limit => ?_⟩
  · induction hreaches with
    | refl => rfl
    | tail _ hlinks ih =>
      rw [ih] at hlinks
      exact Page.rightUnique_links hfixed hlinks ⟨(), page, (), hgiven, hback⟩
  · obtain ⟨s', hrun, hvisits⟩ := listState_overruns nearby none { node := () } (hchain limit)
    rw [List.length_replicate] at hrun
    exact ⟨s', hrun, by simpa using hvisits.urls_eq rfl⟩

/-- A list of two pages is read with one request each. -/
theorem listState_returns_two_pages :
    let start := nearby.base ++ "/state"
    let more := nearby.base ++ "/more"
    let first := pageWith [{ address := "0a", data := [1] }] { next := some more }
    let second := pageWith [{ address := "0b", data := [] }] {}
    let node := twoPages first second
    ∃ urls, urls.Nodup ∧ (∀ url, url ∈ urls ↔ url = start ∨ url = more) ∧
      ∀ limit, urls.length ≤ limit →
        ∃ result s', (nearby.listState node limit none).run.run { node := () } = (result, s') ∧
          result ≠ .error .moreToRead ∧ s'.attempts.reverse.map (·.url) = urls := by
  intro start more first second node
  have hfirst : first.IsGiven node 30 start () () :=
    isGiven_twoPages_of_path "/state" (by decide +kernel) (by decide) rfl ()
  have hsecond : second.IsGiven node 30 more () () :=
    isGiven_twoPages_of_path "/more" (by decide +kernel) (by decide) rfl ()
  have honward : first.LeadsTo (some more) := .onward rfl (by decide +kernel)
  have hfixed : node.IsFixed := isFixed_twoPages _ _
  have hends : Page.Ends node 30 () start [(start, first), (more, second)] none () :=
    .complete (.turn hfirst honward (.turn hsecond (.unsaid rfl) (.stay _ _)))
  obtain ⟨hacyclic, -, hreaches⟩ := hends.visits_once hfixed
  have hpages : ∀ url, Page.Reaches node 30 start url ↔ url = start ∨ url = more := by
    intro url
    rw [← hreaches url]
    simp [Page.visited]
  have hfinite : {url | Page.Reaches node 30 start url}.Finite := by
    refine (Set.toFinite {start, more}).subset fun url hurl => ?_
    exact (hpages url).mp hurl
  obtain ⟨result, urls, hresult, hnodup, hurls, hruns⟩ :=
    (listState_returns_unless_circular node hfixed nearby { node := () } none hfinite).1 hacyclic
  refine ⟨urls, hnodup, fun url => (hurls url).trans (hpages url), fun limit hlimit => ?_⟩
  obtain ⟨s', hrun, hvisits⟩ := hruns limit hlimit
  exact ⟨result, s', hrun, hresult, hvisits.urls_eq rfl⟩

end Client

end CertRegistry.Rest
