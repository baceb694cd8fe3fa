import CertRegistry.Proofs.Bytes.Lenient
import CertRegistry.Proofs.Rest.Accounts
import CertRegistry.Proofs.Rest.Bodies
import CertRegistry.Proofs.Rest.Pages

/-!
# What calls make of answers

An answer that came in time and in full is decided by its status and the text of its body. Data is
returned only if the request was carried out and the body has that data; every other answer becomes
a fault that tells why. Only where nothing is stored under an address is a refusal an answer.
-/

namespace CertRegistry.Rest

open Json

variable {σ α β : Type}

/-- Whether a node answers a call in time and in full, with a status and the text of a body. -/
def Call.Brings (node : Node σ) (seconds : Nat) (call : Call) (before : σ) (status : Nat)
    (body : String) (after : σ) : Prop :=
  ∃ delay answer, call.Answered node seconds before delay answer after ∧ answer.status = status ∧
    answer.body.text? (1000 * seconds - delay) = some body

theorem Answer.isSuccess_iff {answer : Answer} :
    answer.isSuccess = true ↔ 200 ≤ answer.status ∧ answer.status < 300 := by
  simp [isSuccess]

/-! ## Meanings -/

/-- What an answer means for a call, by its status and its body: what each document of the body
makes of it if the request was carried out, and else what the refusal says. -/
inductive AnswerMeans (Makes : Doc → Except Fault α → Prop) (status : Nat) (body : String) :
    Except Fault α → Prop
  | read {result : Except Fault α} (hstatus : 200 ≤ status ∧ status < 300)
    (h : Holds (Makes · result) body) : AnswerMeans Makes status body result
  | unreadable (fault : Json.Fault) (hstatus : 200 ≤ status ∧ status < 300)
    (h : ∀ d : Doc, d.IsOf body → ∀ result, ¬ Makes d result) :
    AnswerMeans Makes status body (.error (.badJson fault body))
  | refused {message : String} (hstatus : ¬ (200 ≤ status ∧ status < 300))
    (h : SaidBy body message) : AnswerMeans Makes status body (.error (.refused status message))

/-- Whether a document that means something makes this of it. -/
def Tells (f : Doc → Option α) (use : α → Except Fault β) (d : Doc) (result : Except Fault β) :
    Prop :=
  ∃ a, f d = some a ∧ result = use a

namespace AnswerMeans

variable {Makes Makes' : Doc → Except Fault α → Prop} {status : Nat} {body : String}
  {result : Except Fault α} {f : Doc → Option α}

theorem congr (h : AnswerMeans Makes status body result)
    (hmakes : ∀ d result, Makes d result ↔ Makes' d result) :
    AnswerMeans Makes' status body result := by
  obtain rfl : Makes = Makes' := funext fun d => funext fun result => propext (hmakes d result)
  exact h

/-- What is made of a value that was read is made of the documents that mean the value. -/
theorem bind (h : AnswerMeans (Tells f .ok) status body result) (use : α → Except Fault β) :
    AnswerMeans (Tells f use) status body (result.bind use) := by
  cases h with
  | read hstatus h =>
    obtain ⟨⟨d, hd⟩, hall⟩ := h
    obtain ⟨a, -, rfl⟩ := hall d hd
    refine .read hstatus ⟨⟨d, hd⟩, fun d hd => ?_⟩
    obtain ⟨b, hb, heq⟩ := hall d hd
    exact ⟨a, by rw [hb, Except.ok.inj heq], rfl⟩
  | unreadable fault hstatus h =>
    refine .unreadable fault hstatus fun d hd result hresult => ?_
    obtain ⟨a, ha, -⟩ := hresult
    exact h d hd (.ok a) ⟨a, ha, rfl⟩
  | refused hstatus h => exact .refused hstatus h

/-- An answer that means data means nothing else. -/
theorem eq_ok (hunique : ∀ d a result, Makes d (.ok a) → Makes d result → result = .ok a) {a : α}
    (h : AnswerMeans Makes status body (.ok a)) (h' : AnswerMeans Makes status body result) :
    result = .ok a := by
  cases h with
  | read hstatus h =>
    obtain ⟨⟨d, hd⟩, hall⟩ := h
    cases h' with
    | read _ h' => exact hunique d a result (hall d hd) (h'.2 d hd)
    | unreadable _ _ hnone => exact absurd (hall d hd) (hnone d hd _)
    | refused hrefused => exact absurd hstatus hrefused

theorem eq_refused (h : AnswerMeans Makes status body result)
    (hstatus : ¬ (200 ≤ status ∧ status < 300)) :
    result = .error (.refused status (refusalText body)) := by
  cases h with
  | read hsuccess => exact absurd hsuccess hstatus
  | unreadable _ hsuccess => exact absurd hsuccess hstatus
  | refused _ h => rw [h.eq_refusalText]

theorem iff_of_parse {reader : Reader α} {use : α → Except Fault β} {result : Except Fault β}
    {a : α}
    (hmeant : reader.IsMeant f) (hstatus : 200 ≤ status ∧ status < 300)
    (hread : reader.parse body = .ok a) :
    AnswerMeans (Tells f use) status body result ↔ result = use a := by
  obtain ⟨⟨d, hd⟩, hall⟩ := hmeant.holds hread
  constructor
  · intro h
    cases h with
    | read _ h =>
      obtain ⟨b, hb, rfl⟩ := h.2 d hd
      rw [hall d hd] at hb
      rw [Option.some.inj hb]
    | unreadable _ _ hnone => exact absurd ⟨a, hall d hd, rfl⟩ (hnone d hd (use a))
    | refused hrefused => exact absurd hstatus hrefused
  · rintro rfl
    exact .read hstatus ⟨⟨d, hd⟩, fun d hd => ⟨a, hall d hd, rfl⟩⟩

end AnswerMeans

theorem Tells.unique {f : Doc → Option α} {use : α → Except Fault β} {d : Doc}
    {result result' : Except Fault β} (h : Tells f use d result) (h' : Tells f use d result') :
    result' = result := by
  obtain ⟨a, ha, rfl⟩ := h
  obtain ⟨b, hb, rfl⟩ := h'
  rw [ha] at hb
  rw [Option.some.inj hb]

/-- What a call comes to is what its answer means. -/
theorem Call.ComesTo.answerMeans {node : Node σ} {seconds : Nat} {reader : Reader α} {call : Call}
    {before after after' : σ} {result : Except Fault α} {ending : Ending} {status : Nat}
    {body : String} {f : Doc → Option α}
    (h : call.ComesTo node seconds reader before result ending after')
    (hbrings : call.Brings node seconds before status body after) (hmeant : reader.IsMeant f) :
    AnswerMeans (Tells f .ok) status body result ∧ after' = after := by
  obtain ⟨delay, answer, hanswered, rfl, hbody⟩ := hbrings
  cases h with
  | unanswered h => exact absurd h hanswered.not_unanswered
  | refused h hstatus =>
    obtain ⟨rfl, rfl, rfl⟩ := hanswered.unique h
    have hrefused : ¬ (200 ≤ answer.status ∧ answer.status < 300) := by
      rw [← Answer.isSuccess_iff, hstatus]
      exact Bool.false_ne_true
    rw [hbody]
    exact ⟨.refused hrefused (saidBy_refusalText body), rfl⟩
  | cutOff h _ hnone =>
    obtain ⟨rfl, rfl, rfl⟩ := hanswered.unique h
    rw [hbody] at hnone
    cases hnone
  | unreadable h hstatus hsome hread =>
    obtain ⟨rfl, rfl, rfl⟩ := hanswered.unique h
    rw [hbody] at hsome
    cases hsome
    refine ⟨.unreadable _ (Answer.isSuccess_iff.mp hstatus) fun d hd result hresult => ?_, rfl⟩
    obtain ⟨a, ha, -⟩ := hresult
    rw [hmeant.eq_none hread hd] at ha
    cases ha
  | read h hstatus hsome hread =>
    obtain ⟨rfl, rfl, rfl⟩ := hanswered.unique h
    rw [hbody] at hsome
    cases hsome
    obtain ⟨hexists, hall⟩ := hmeant.holds hread
    exact ⟨.read (Answer.isSuccess_iff.mp hstatus)
      ⟨hexists, fun d hd => ⟨_, hall d hd, rfl⟩⟩, rfl⟩

theorem Talk.request_answerMeans {node : Node σ} {limits : Limits} {reader : Reader α}
    {f : Doc → Option α} {s : Session σ} {status : Nat} {body : String} {after : σ} (call : Call)
    (resource : Resource) (hdeadline : limits.deadline = none) (hmeant : reader.IsMeant f)
    (h : ({ call with counted := some resource } : Call).Brings node limits.seconds s.node status
      body after) :
    ∃ result s', (request node limits resource reader call).run.run s = (result, s') ∧
      s'.node = after ∧ AnswerMeans (Tells f .ok) status body result := by
  obtain ⟨result, s', hrun, ending, hcomes, -⟩ :=
    request_makes s node call hdeadline resource reader
  obtain ⟨hmeans, hafter⟩ := hcomes.answerMeans h hmeant
  exact ⟨result, s', hrun, hafter, hmeans⟩

/-! ## Stored data -/

/-- What a document says is stored under an address: the octets that its data is the Base64 text of,
or else what is wrong with that text. -/
inductive Stores (d : Doc) : Except Fault (Option Bytes) → Prop
  | octets {envelope : Envelope String} {octets : Bytes}
    (h : storedSchema.meant d = some envelope) (hdata : envelope.data = Base64.encode octets) :
    Stores d (.ok (some octets))
  | misspelled {envelope : Envelope String} {fault : Base64.Fault}
    (h : storedSchema.meant d = some envelope)
    (hdata : ∀ octets, envelope.data ≠ Base64.encode octets)
    (hfault : Base64.decode envelope.data = .error fault) : Stores d (.error (.badBase64 fault))

/-- What entries a document lists, and where they go on, or what is wrong with the first of them
that is not in Base64. -/
inductive Lists (d : Doc) : Except Fault (List StateEntry × Option String) → Prop
  | entries {page : Page} {entries : List StateEntry} {next? : Option String}
    (h : pageSchema.meant d = some page) (hdata : page.data = entries.map StateEntry.encoded)
    (hnext : page.LeadsTo next?) : Lists d (.ok (entries, next?))
  | misspelled {page : Page} {earlier later : List EncodedEntry} {raw : EncodedEntry}
    {fault : Base64.Fault} (h : pageSchema.meant d = some page)
    (hdata : page.data = earlier ++ raw :: later)
    (hearlier : ∀ entry ∈ earlier, entry.IsWellSpelled) (hraw : ¬ raw.IsWellSpelled)
    (hfault : Base64.decode raw.data = .error fault) : Lists d (.error (.badBase64 fault))

namespace Client

/-- What is returned for the data at an address. -/
def stored (envelope : Envelope String) : Except Fault (Option Bytes) :=
  (decodeData envelope.data).map some

/-- What is made of a page: its entries, and where they go on. -/
def listed (page : Page) : Except Fault (List StateEntry × Option String) :=
  (page.data.mapM decodeEntry).map (·, page.next?)

theorem stores_iff (d : Doc) (result : Except Fault (Option Bytes)) :
    Stores d result ↔ Tells storedSchema.meant stored d result := by
  constructor
  · rintro (⟨h, hdata⟩ | ⟨h, -, hfault⟩)
    · exact ⟨_, h, by simp [stored, decodeData, hdata, Base64.decode_encode, Except.map]⟩
    · exact ⟨_, h, by simp [stored, decodeData, hfault, Except.map]⟩
  · rintro ⟨envelope, h, rfl⟩
    cases hdecode : Base64.decode envelope.data with
    | ok octets =>
      have heq : stored envelope = .ok (some octets) := by
        simp [stored, decodeData, hdecode, Except.map]
      exact heq ▸ .octets h (Base64.decode_eq_ok_iff.mp hdecode)
    | error fault =>
      have heq : stored envelope = .error (.badBase64 fault) := by
        simp [stored, decodeData, hdecode, Except.map]
      refine heq ▸ .misspelled h (fun octets hdata => ?_) hdecode
      rw [Base64.decode_eq_ok_iff.mpr hdata] at hdecode
      cases hdecode

theorem lists_iff (d : Doc) (result : Except Fault (List StateEntry × Option String)) :
    Lists d result ↔ Tells pageSchema.meant listed d result := by
  constructor
  · rintro (⟨h, hdata, hnext⟩ | ⟨h, hdata, hearlier, -, hfault⟩)
    · refine ⟨_, h, ?_⟩
      rw [listed, hdata, mapM_decodeEntry_encoded, hnext.next?_eq]
      rfl
    · refine ⟨_, h, ?_⟩
      rw [listed, hdata, mapM_decodeEntry_eq_error hearlier hfault]
      rfl
  · rintro ⟨page, h, rfl⟩
    by_cases hspelled : ∀ raw ∈ page.data, raw.IsWellSpelled
    · obtain ⟨entries, hentries⟩ := EncodedEntry.exists_entries hspelled
      obtain ⟨next?, hnext⟩ := page.exists_leadsTo
      have heq : listed page = .ok (entries, next?) := by
        rw [listed, hentries, mapM_decodeEntry_encoded, hnext.next?_eq]
        rfl
      exact heq ▸ .entries h hentries hnext
    · obtain ⟨earlier, raw, later, hdata, hearlier, hraw⟩ :=
        EncodedEntry.exists_first_misspelled hspelled
      obtain ⟨fault, hfault⟩ := EncodedEntry.exists_fault hraw
      have heq : listed page = .error (.badBase64 fault) := by
        rw [listed, hdata, mapM_decodeEntry_eq_error hearlier hfault]
        rfl
      exact heq ▸ .misspelled h hdata hearlier hraw hfault

/-! ## Calls -/

variable {node : Node σ} {client : Client} {s : Session σ} {status : Nat} {body : String}
  {before after : σ}

/-- The request that submits batches. -/
def submission (client : Client) (batches : BatchList) : Call where
  method := .post
  url := client.base ++ "/batches"
  body := BatchList.schema.encode batches
  counted := some .batches

/-- The request for the statuses of batches. -/
def inquiry (client : Client) (ids : List String) (wait : Option Nat) : Call where
  url := client.statusesUrl ids wait
  counted := some .batchStatuses

/-- The request for what is stored under an address. -/
def lookup (client : Client) (address : String) : Call where
  url := client.base ++ "/state/" ++ address
  counted := some .state

/-- The request for the blocks. -/
def overview (client : Client) : Call where
  url := client.base ++ "/blocks"
  counted := some .blocks

theorem sendBatches_answerMeans {batches : BatchList}
    (h : (client.submission batches).Brings node client.timeoutSeconds s.node status body after) :
    ∃ result s', (client.sendBatches node batches).run.run s = (result, s') ∧
      AnswerMeans (Tells Receipt.schema.meant fun r => .ok r.link) status body result := by
  obtain ⟨received, s₁, hrun, -, hmeans⟩ := Talk.request_answerMeans
    { method := .post, url := client.base ++ "/batches", body := BatchList.schema.encode batches }
    .batches (show (client.limits 0 none).deadline = none from rfl) Receipt.isMeant_shape h
  refine ⟨received.bind fun r => .ok r.link, ?_⟩
  unfold sendBatches
  simp only [Talk.run_bind, hrun]
  cases received with
  | error fault => exact ⟨_, rfl, hmeans.bind _⟩
  | ok receipt => exact ⟨_, rfl, hmeans.bind _⟩

theorem statuses_answerMeans {ids : List String} {wait : Option Nat}
    (hwait : client.timeoutSeconds + wait.getD 0 < UInt64.size)
    (h : (client.inquiry ids wait).Brings node (client.timeoutSeconds + wait.getD 0) s.node status
      body after) :
    ∃ result s', (client.statuses node ids wait).run.run s = (result, s') ∧
      AnswerMeans (Tells statusesSchema.meant fun e => .ok e.data) status body result := by
  obtain ⟨received, s₁, hrun, -, hmeans⟩ := Talk.request_answerMeans
    { url := client.statusesUrl ids wait } .batchStatuses
    (show (client.limits (wait.getD 0) none).deadline = none from rfl) isMeant_statuses h
  refine ⟨received.bind fun e => .ok e.data, ?_⟩
  unfold statuses
  rw [if_neg (Nat.not_le.mpr hwait)]
  simp only [requestData, Talk.run_bind, hrun]
  cases received with
  | error fault => exact ⟨_, rfl, hmeans.bind _⟩
  | ok envelope =>
    simp only [Talk.run_forIn_count]
    exact ⟨_, rfl, hmeans.bind _⟩

theorem listBlocks_answerMeans
    (h : client.overview.Brings node client.timeoutSeconds s.node status body after) :
    ∃ result s', (client.listBlocks node).run.run s = (result, s') ∧
      AnswerMeans (Tells blocksSchema.meant fun e => .ok e.data) status body result := by
  obtain ⟨received, s₁, hrun, -, hmeans⟩ := Talk.request_answerMeans
    { url := client.base ++ "/blocks" } .blocks
    (show (client.limits 0 none).deadline = none from rfl) isMeant_blocks h
  refine ⟨received.bind fun e => .ok e.data, ?_⟩
  unfold listBlocks
  simp only [requestData, Talk.run_bind, hrun]
  cases received with
  | error fault => exact ⟨_, rfl, hmeans.bind _⟩
  | ok envelope => exact ⟨_, rfl, hmeans.bind _⟩

/-! ## One address -/

theorem readState_missing {address : String} {delay : Nat} {answer : Answer}
    (h : (client.lookup address).Answered node client.timeoutSeconds s.node delay answer after)
    (hstatus : answer.status = 404) :
    ∃ s', (client.readState node address).run.run s = (.ok none, s') := by
  have hsend := Talk.send_answered (show (client.lookup address).Answered node
    (client.limits 0 none).seconds s.node delay answer after from h) (Limits.allow_of_none rfl _)
  obtain ⟨status, body⟩ := answer
  subst hstatus
  unfold readState
  rw [Talk.run_bind, Talk.run_get]
  simp only
  rw [Talk.run_bind]
  rw [lookup] at hsend
  simp only [hsend]
  exact ⟨_, rfl⟩

/-- Apart from answers that nothing is stored, an address is read like anything else. -/
theorem readState_eq_request {address : String} {delay : Nat} {answer : Answer}
    (h : (client.lookup address).Answered node client.timeoutSeconds s.node delay answer after)
    (hstatus : answer.status ≠ 404) :
    (client.readState node address).run.run s =
      (Talk.request node (client.limits 0 none) .state (Envelope.shape "" .text).reader
          { url := client.base ++ "/state/" ++ address } >>= fun envelope =>
        ofExcept (stored envelope)).run.run s := by
  have hsend := Talk.send_answered (show (client.lookup address).Answered node
    (client.limits 0 none).seconds s.node delay answer after from h) (Limits.allow_of_none rfl _)
  rw [lookup] at hsend
  have hstored : ∀ envelope, (ofExcept (stored envelope) : Talk σ (Option Bytes)) =
      (do return some (← ofExcept (decodeData envelope.data))) := by
    intro envelope
    unfold stored
    cases decodeData envelope.data <;> rfl
  unfold readState Talk.request
  simp only [hstored, bind_assoc]
  rw [Talk.run_bind, Talk.run_bind, Talk.run_get]
  simp only
  rw [Talk.run_bind, Talk.run_bind, hsend]
  simp only
  split
  · next heq => exact absurd (congrArg Answer.status (Except.ok.inj heq)) hstatus
  · rfl

theorem readState_answerMeans {address : String}
    (h : (client.lookup address).Brings node client.timeoutSeconds s.node status body after)
    (hstatus : status ≠ 404) :
    ∃ result s', (client.readState node address).run.run s = (result, s') ∧
      AnswerMeans Stores status body result := by
  obtain ⟨received, s₁, hrun, -, hmeans⟩ := Talk.request_answerMeans
    { url := client.base ++ "/state/" ++ address } .state
    (show (client.limits 0 none).deadline = none from rfl) isMeant_stored h
  obtain ⟨delay, answer, hanswered, rfl, -⟩ := h
  refine ⟨received.bind stored, s₁, ?_, (hmeans.bind stored).congr fun d result => ?_⟩
  · rw [readState_eq_request hanswered hstatus, Talk.run_bind, hrun]
    cases received with
    | error fault => rfl
    | ok envelope =>
      simp only [Except.bind]
      cases stored envelope with
      | error fault => rfl
      | ok octets => rfl
  · exact (stores_iff d result).symm

end Client

/-! ## Lists -/

/-- Whether a list is still read at an address after so many pages, each of which had some entries
and led on, and which entries these were together. -/
inductive Page.Reached (node : Node σ) (seconds : Nat) (start : String) (before : σ) :
    Nat → List StateEntry → String → σ → Prop
  | start : Reached node seconds start before 0 [] start before
  | turn {count status : Nat} {entries more : List StateEntry} {url next body : String}
    {middle after : σ} (h : Reached node seconds start before count entries url middle)
    (hbrings : (Page.call url).Brings node seconds middle status body after)
    (hmeans : AnswerMeans Lists status body (.ok (more, some next))) :
    Reached node seconds start before (count + 1) (entries ++ more) next after

namespace Client

variable {node : Node σ} {client : Client} {s : Session σ} {status : Nat} {body url : String}
  {after : σ}

/-- One page decides alone whether a list fails or where it goes on. -/
theorem statePages_answerMeans
    (h : (Page.call url).Brings node client.timeoutSeconds s.node status body after) :
    ∃ result s₁, AnswerMeans Lists status body result ∧ s₁.node = after ∧
      ∀ limit, (client.statePages node (limit + 1) url).run.run s = match result with
        | .ok (entries, next?) =>
          (pagesFrom node client limit next? >>= fun more => pure (entries ++ more)).run.run s₁
        | .error fault => (.error fault, s₁) := by
  obtain ⟨received, s₁, hrun, hnode, hmeans⟩ := Talk.request_answerMeans { url } .state
    (show (client.limits 0 none).deadline = none from rfl) isMeant_page h
  refine ⟨received.bind listed, s₁, (hmeans.bind listed).congr fun d result => ?_, hnode,
    fun limit => ?_⟩
  · exact (lists_iff d result).symm
  unfold statePages
  simp only [requestData]
  rw [Talk.run_bind, hrun]
  cases received with
  | error fault => rfl
  | ok page =>
    simp only [Except.bind, listed]
    cases page.data.mapM decodeEntry with
    | error fault => rfl
    | ok entries =>
      cases page.next? with
      | none => simp [pagesFrom, ofExcept, Except.map]
      | some next => rfl

/-- Where a list is reached, it goes on with the entries of the pages before. -/
theorem statePages_reached {start : String} {count : Nat} {entries : List StateEntry} {middle : σ}
    (h : Page.Reached node client.timeoutSeconds start s.node count entries url middle) :
    ∃ s₁, s₁.node = middle ∧ ∀ limit,
      (client.statePages node (limit + count) start).run.run s =
        (client.statePages node limit url >>= fun more => pure (entries ++ more)).run.run s₁ := by
  induction h with
  | start => exact ⟨s, rfl, fun limit => by simp⟩
  | @turn count status entries more url next body middle after h hbrings hmeans ih =>
    obtain ⟨s₁, rfl, hreached⟩ := ih
    obtain ⟨result, s₂, hresult, hnode, hpage⟩ := statePages_answerMeans hbrings
    have hunique : ∀ d page page', Lists d (.ok page) → Lists d page' → page' = .ok page :=
      fun d page page' hlists hlists' =>
        ((lists_iff d _).mp hlists).unique ((lists_iff d _).mp hlists')
    obtain rfl := hmeans.eq_ok hunique hresult
    refine ⟨s₂, hnode, fun limit => ?_⟩
    rw [← Nat.add_assoc, Nat.add_right_comm, hreached (limit + 1), Talk.run_bind, hpage limit]
    simp only [pagesFrom, Talk.run_bind]
    rcases (client.statePages node limit next).run.run s₂ with ⟨result, s₃⟩
    cases result with
    | error fault => rfl
    | ok others => simp only [Talk.run_pure, List.append_assoc]

theorem listState_answerMeans {subtree : Option String} {limit count : Nat}
    {entries : List StateEntry} {middle : σ}
    (h : Page.Reached node client.timeoutSeconds (client.stateUrl subtree) s.node count entries url
      middle) (hlimit : count < limit)
    (hbrings : (Page.call url).Brings node client.timeoutSeconds middle status body after) :
    ∃ page result s', AnswerMeans Lists status body page ∧
      (client.listState node limit subtree).run.run s = (result, s') ∧
      (∀ fault, page = .error fault → result = .error fault) ∧
      ∀ more, page = .ok (more, none) → result = .ok (entries ++ more) := by
  obtain ⟨s₁, rfl, hreached⟩ := statePages_reached h
  obtain ⟨page, s₂, hmeans, -, hpage⟩ := statePages_answerMeans hbrings
  obtain ⟨left, rfl⟩ := Nat.exists_eq_add_of_le' hlimit
  have hrun := hreached (left + 1)
  rw [Nat.add_right_comm, Talk.run_bind, hpage left] at hrun
  refine ⟨page, _, _, hmeans, hrun.trans Prod.mk.eta.symm, ?_, ?_⟩
  · rintro fault rfl
    rfl
  · rintro more rfl
    simp only [pagesFrom, Talk.run_bind, Talk.run_pure, List.append_nil]

/-! ## Decisions -/

/-- An answer that is there at once. -/
def textReply (status : Nat) (text : String) : Reply :=
  .answer 0 (Talk.promptAnswer status (Bytes.ofText text))

theorem brings_scripted {call : Call} {path : List Char} {query : Option (List Char)} (status : Nat)
    (text : String) (more : List Reply) (hpath : Url.IsPlainPath path)
    (hquery : ∀ cs, query = some cs → ∀ c ∈ cs, Url.IsPlain c)
    (hlength : path.length + (Url.tail query).length ≤ 65000)
    (hurl : call.url.toList = (Url.localBase 8008).toList ++ (path ++ Url.tail query))
    (htext : text.toList.head? ≠ some '\uFEFF') :
    call.Brings Node.scripted 30 (textReply status text :: more) status text more := by
  have hbody : (Talk.promptAnswer status (Bytes.ofText text)).body.text? (1000 * 30 - 0) =
      some text := by
    rw [Talk.text?_promptAnswer (by decide), Bytes.lenientText_ofText htext]
  exact ⟨0, _, Call.answered_local (by decide) hpath hquery hlength hurl (by decide) rfl rfl, rfl,
    hbody⟩

/-- What each call comes to is decided by the status and the body of its answer alone, and a list
page by page. Data comes only of a request that was carried out and a body that has the data; a
refusal is a fault with what the body says of it, except that an address without data has none
whatever the body. Data in an envelope is shown there: an answer without it is no empty answer. -/
theorem answers_decided (node : Node σ) (client : Client) (s : Session σ) (status : Nat)
    (body : String) (after : σ) :
    (∀ batches, (client.submission batches).Brings node client.timeoutSeconds s.node status body
        after →
      ∃ result s', (client.sendBatches node batches).run.run s = (result, s') ∧
        AnswerMeans (Tells Receipt.schema.meant fun r => .ok r.link) status body result) ∧
    (∀ ids wait, client.timeoutSeconds + wait.getD 0 < UInt64.size →
      (client.inquiry ids wait).Brings node (client.timeoutSeconds + wait.getD 0) s.node status
        body after →
      ∃ result s', (client.statuses node ids wait).run.run s = (result, s') ∧
        AnswerMeans (Tells statusesSchema.meant fun e => .ok e.data) status body result) ∧
    (∀ subtree limit count entries url middle,
      Page.Reached node client.timeoutSeconds (client.stateUrl subtree) s.node count entries url
        middle → count < limit →
      (Page.call url).Brings node client.timeoutSeconds middle status body after →
      ∃ page result s', AnswerMeans Lists status body page ∧
        (client.listState node limit subtree).run.run s = (result, s') ∧
        (∀ fault, page = .error fault → result = .error fault) ∧
        ∀ more, page = .ok (more, none) → result = .ok (entries ++ more)) ∧
    (∀ address delay answer,
      (client.lookup address).Answered node client.timeoutSeconds s.node delay answer after →
      answer.status = 404 →
      ∃ s', (client.readState node address).run.run s = (.ok none, s')) ∧
    (∀ address, (client.lookup address).Brings node client.timeoutSeconds s.node status body after →
      status ≠ 404 →
      ∃ result s', (client.readState node address).run.run s = (result, s') ∧
        AnswerMeans Stores status body result) ∧
    (client.overview.Brings node client.timeoutSeconds s.node status body after →
      ∃ result s', (client.listBlocks node).run.run s = (result, s') ∧
        AnswerMeans (Tells blocksSchema.meant fun e => .ok e.data) status body result) ∧
    ∀ (γ : Type) (f : Doc → Option γ) (blank : γ) d e,
      (Envelope.schema blank f).meant d = some e →
      ∃ data, Envelope.ShowsData data d ∧ f data = some e.data :=
  ⟨fun _ => sendBatches_answerMeans, fun _ _ => statuses_answerMeans,
    fun _ _ _ _ _ _ => listState_answerMeans, fun _ _ _ => readState_missing,
    fun _ => readState_answerMeans, listBlocks_answerMeans,
    fun _ _ _ _ _ => Envelope.exists_data_of_meant⟩

/-- A refusal without a proper message, an address without data, data that is not in Base64, no
statuses, a receipt, and a list of two pages. -/
theorem answers_decided_one_by_one :
    let client : Client := { base := Url.localBase 8008, timeoutSeconds := 30 }
    let refusal := "\x7b\"error\":\x7b\"title\":\"t\",\"message\":7\x7d\x7d"
    let first := "\x7b\"data\":[\x7b\"address\":\"0a\",\"data\":\"AQ==\"\x7d]," ++
      "\"paging\":\x7b\"next\":\"http://127.0.0.1:8008/more\"\x7d\x7d"
    let receipt := "\x7b\"link\":\"l\"\x7d"
    let nothing := "\x7b\"data\":[]\x7d"
    let misspelled := "\x7b\"data\":\"AQI\"\x7d"
    (∃ s', (client.sendBatches Node.scripted { batches := [] }).run.run
      { node := [textReply 202 receipt] } = (.ok "l", s')) ∧
    (∃ s', (client.statuses Node.scripted ["b"] none).run.run
      { node := [textReply 200 nothing] } = (.ok [], s')) ∧
    (∃ s', (client.listState Node.scripted 2 none).run.run
      { node := [textReply 200 first, textReply 200 nothing] } =
      (.ok [⟨"0a", [1]⟩], s')) ∧
    (∃ s', (client.readState Node.scripted "0a").run.run { node := [textReply 404 refusal] } =
      (.ok none, s')) ∧
    (∃ s', (client.readState Node.scripted "0a").run.run
      { node := [textReply 200 misspelled] } =
      (.error (.badBase64 .badPadding), s')) ∧
    ∃ s', (client.listBlocks Node.scripted).run.run { node := [textReply 503 refusal] } =
      (.error (.refused 503 refusal), s') := by
  intro client refusal first receipt nothing misspelled
  have hplain : ∀ path ∈ ["/batches", "/batch_statuses", "/state", "/more", "/state/0a", "/blocks"],
      Url.IsPlainPath path.toList := by decide +kernel
  have hid : ∀ cs, some "id=b".toList = some cs → ∀ c ∈ cs, Url.IsPlain c := by
    rintro cs ⟨⟩
    exact forall_mem_of_all (by decide)
  refine ⟨?_, ?_, ?_, ?_, ?_, ?_⟩
  · obtain ⟨result, s', hrun, hmeans⟩ := (answers_decided Node.scripted client { node := _ } 202 _
      []).1 { batches := [] } (brings_scripted 202 receipt [] (hplain "/batches" (by decide))
        Url.isPlain_of_none (by decide) (by decide +kernel) (by decide))
    obtain rfl := (AnswerMeans.iff_of_parse Receipt.isMeant_shape (by decide)
      (toOption_eq_some.mp (show _ = some ⟨"l"⟩ by decide +kernel))).mp hmeans
    exact ⟨s', hrun⟩
  · obtain ⟨result, s', hrun, hmeans⟩ := (answers_decided Node.scripted client { node := _ } 200 _
      []).2.1 ["b"] none (by decide) (brings_scripted 200 nothing []
        (hplain "/batch_statuses" (by decide)) hid (by decide) (by decide +kernel) (by decide))
    obtain rfl := (AnswerMeans.iff_of_parse isMeant_statuses (by decide)
      (toOption_eq_some.mp (show _ = some ⟨[], none, none⟩ by decide +kernel))).mp hmeans
    exact ⟨s', hrun⟩
  · have hfirst : AnswerMeans Lists 200 first
        (.ok ([⟨"0a", [1]⟩], some (client.base ++ "/more"))) :=
      ((AnswerMeans.iff_of_parse isMeant_page (by decide) (toOption_eq_some.mp (show _ =
        some ⟨[⟨"0a", "AQ=="⟩], none, some ⟨some (client.base ++ "/more")⟩⟩ by decide +kernel))).mpr
          (toOption_eq_some.mp (by decide +kernel)).symm).congr fun d result =>
            (lists_iff d result).symm
    have hreached : Page.Reached Node.scripted 30 (client.base ++ "/state")
        [textReply 200 first, textReply 200 nothing] 1 [⟨"0a", [1]⟩] (client.base ++ "/more")
        [textReply 200 nothing] :=
      .turn .start (brings_scripted 200 first _ (hplain "/state" (by decide)) Url.isPlain_of_none
        (by decide) (by decide +kernel) (by decide)) hfirst
    obtain ⟨page, result, s', hmeans, hrun, -, hdone⟩ := (answers_decided Node.scripted client
      { node := _ } 200 _ []).2.2.1 none 2 1 _ _ _ hreached (by decide)
        (brings_scripted 200 nothing [] (hplain "/more" (by decide)) Url.isPlain_of_none (by decide)
          (by decide +kernel) (by decide))
    have hpage := (AnswerMeans.iff_of_parse isMeant_page (by decide) (toOption_eq_some.mp
      (show _ = some ⟨[], none, none⟩ by decide +kernel))).mp (hmeans.congr lists_iff)
    rw [hrun, hdone [] hpage]
    exact ⟨s', rfl⟩
  · have hanswered : (client.lookup "0a").Answered Node.scripted 30 [textReply 404 refusal] 0
        (Talk.promptAnswer 404 (Bytes.ofText refusal)) [] :=
      Call.answered_local (show 8008 < 65536 by decide) (hplain "/state/0a" (by decide))
        Url.isPlain_of_none (by decide) (by decide +kernel) (by decide) rfl rfl
    exact (answers_decided Node.scripted client { node := _ } 404 refusal []).2.2.2.1 "0a" 0 _
      hanswered rfl
  · obtain ⟨result, s', hrun, hmeans⟩ := (answers_decided Node.scripted client { node := _ } 200 _
      []).2.2.2.2.1 "0a" (brings_scripted 200 misspelled [] (hplain "/state/0a" (by decide))
        Url.isPlain_of_none (by decide) (by decide +kernel) (by decide)) (by decide)
    obtain rfl := (AnswerMeans.iff_of_parse isMeant_stored (by decide)
      (toOption_eq_some.mp (show _ = some ⟨"AQI", none, none⟩ by decide +kernel))).mp
        (hmeans.congr stores_iff)
    exact ⟨s', hrun⟩
  · obtain ⟨result, s', hrun, hmeans⟩ := (answers_decided Node.scripted client { node := _ } 503 _
      []).2.2.2.2.2.1 (brings_scripted 503 refusal [] (hplain "/blocks" (by decide))
        Url.isPlain_of_none (by decide) (by decide +kernel) (by decide))
    have hsaid : refusalText refusal = refusal := by decide +kernel
    rw [hrun, hmeans.eq_refused (by decide), hsaid]
    exact ⟨s', rfl⟩

end Client

end CertRegistry.Rest
