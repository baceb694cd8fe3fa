import CertRegistry.Proofs.Node.Batches

/-!
# How long a status lasts

A node records a status for every batch that comes in, and tells the one it recorded last. So a
status that is final lasts until a batch comes under the same id. If it is the same batch that was
sent again, its own agent stands in its way: it was committed once, and is invalid from then on.
-/

namespace CertRegistry.Ledger

open Rest

variable {ledger : Ledger} {batch : Batch} {before after again : List (String × Bytes)}
  {status : BatchStatus} {id : String}

/-! ## Batches that come again -/

theorem agents_subset_of_grows (hs : Sound before) (hagain : Sound again)
    (hgrows : Grows before again) {agent : Agent} (h : agent ∈ agents before) :
    agent ∈ agents again := by
  rw [hs.mem_agents] at h
  exact hagain.mem_agents.mpr ((hgrows _).subset h)

/-- A rule that a transaction breaks stays broken as agents are added. -/
theorem Breaks.mono (hs : Sound before) (hagain : Sound again) (hgrows : Grows before again)
    {t : Transaction} {objection : Objection} (h : Breaks before t objection) :
    Breaks again t objection := by
  cases h with
  | badHeader hheader => exact .badHeader hheader
  | badAction hheader hpayload => exact .badAction hheader hpayload
  | noName hheader hpayload => exact .noName hheader hpayload
  | agentExists hbrings hother hsame =>
    exact .agentExists hbrings (agents_subset_of_grows hs hagain hgrows hother) hsame

/-- A transaction that was applied finds its own agent there. -/
theorem Adds.exists_breaks {t : Transaction} {rest : List Transaction} {added : List Agent}
    (hs : Sound after) (hagain : Sound again) (hgrows : Grows after again)
    (h : Adds before (t :: rest) added after) : ∃ objection, Breaks again t objection := by
  cases hrow : h.brought with
  | @cons _ agent _ added hbrings _ =>
    have hstored : agent ∈ agentsAt after (Address.ofAgent agent.publicKey) := by
      rw [h.stored, List.filter_cons_of_pos (by simp)]
      exact List.mem_append_right _ List.mem_cons_self
    have hmem := agents_subset_of_grows hs hagain hgrows (hs.mem_agents.mpr hstored)
    exact ⟨_, .agentExists hbrings hmem rfl⟩

/-- Once decided, a batch can only break a rule at once. -/
theorem Decision.breaksAtOnce (hs : Sound after) (hagain : Sound again)
    (hgrows : Grows after again) (h : Decision before batch after status)
    (hne : batch.transactions ≠ []) : BreaksAtOnce again batch := by
  cases h with
  | committed hadds =>
    cases hcons : batch.transactions with
    | nil => exact absurd hcons hne
    | cons t rest =>
      obtain ⟨objection, hbreaks⟩ := Adds.exists_breaks hs hagain hgrows (hcons ▸ hadds)
      exact ⟨t, rest, objection, hcons, hbreaks⟩
  | @invalid first rest t objection added _ hsplit hadds hbreaks =>
    cases first with
    | nil => exact ⟨t, rest, objection, hsplit, hbreaks.mono hs hagain hgrows⟩
    | cons t' first =>
      obtain ⟨objection', hbreaks'⟩ := hadds.exists_breaks hs hagain hgrows
      exact ⟨t', first ++ t :: rest, objection', hsplit, hbreaks'⟩

theorem Decision.invalid_of_breaksAtOnce (hs : Sound before)
    (h : Decision before batch after status) (hbreaks : BreaksAtOnce before batch) :
    status.status = .invalid := by
  cases h with
  | committed hadds =>
    obtain ⟨t, rest, objection, hcons, -⟩ := id hbreaks
    rw [hadds.eq_nil_of_breaksAtOnce hs (List.append_nil _).symm hbreaks] at hcons
    cases hcons
  | invalid _ _ _ => rfl

theorem Decision.committed_of_empty (h : Decision before batch after status)
    (hempty : batch.transactions = []) : status.status = .committed := by
  cases h with
  | committed _ => rfl
  | invalid hsplit _ _ =>
    rw [hempty] at hsplit
    exact absurd hsplit (by simp)

/-! ## The last batch under an id -/

theorem exists_last {batches : List Batch} (h : ∃ batch ∈ batches, batch.headerSignature = id) :
    ∃ first batch rest, batches = first ++ batch :: rest ∧ batch.headerSignature = id ∧
      ∀ later ∈ rest, later.headerSignature ≠ id := by
  induction batches with
  | nil => simp at h
  | cons b batches ih =>
    by_cases hrest : ∃ batch ∈ batches, batch.headerSignature = id
    · obtain ⟨first, batch, rest, rfl, hid, hlast⟩ := ih hrest
      exact ⟨b :: first, batch, rest, rfl, hid, hlast⟩
    · obtain ⟨batch, hmem, hid⟩ := h
      rcases List.mem_cons.mp hmem with rfl | hmem
      · exact ⟨[], batch, batches, rfl, hid, fun later hlater heq => hrest ⟨later, hlater, heq⟩⟩
      · exact absurd ⟨batch, hmem, hid⟩ hrest

/-- What is known of a batch was decided when it came the last time. -/
theorem exists_decision {batches : List Batch} (hs : Sound ledger.state)
    (ht : ∀ b ∈ batches, ∀ t ∈ b.transactions, Bytes.Storable (t.header ++ t.payload))
    (h : ∃ batch ∈ batches, batch.headerSignature = id) :
    ∃ batch ∈ batches, batch.headerSignature = id ∧ ∃ before after,
      Sound before ∧ Grows ledger.state before ∧ Sound after ∧
      Grows after (batches.foldl submit ledger).state ∧
      Decision before batch after ((batches.foldl submit ledger).statusOf id) := by
  obtain ⟨first, batch, rest, rfl, rfl, hlast⟩ := exists_last h
  have hmem : batch ∈ first ++ batch :: rest := List.mem_append_right _ List.mem_cons_self
  obtain ⟨hbefore, hgrows⟩ :=
    hs.submitAll fun b hb => ht b (List.mem_append_left _ hb)
  have hafter := (hbefore.applyAll (ht batch hmem)).1
  rw [← state_submit] at hafter
  have hend :=
    hafter.submitAll fun b hb => ht b (List.mem_append_right _ (List.mem_cons_of_mem _ hb))
  have hdecision := submit_decision hbefore (ht batch hmem)
  rw [← statusOf_submitAll_of_ne hlast] at hdecision
  rw [List.foldl_append, List.foldl_cons]
  exact ⟨batch, hmem, rfl, _, _, hbefore, hgrows, hafter, hend.2, hdecision⟩

/-- Of a batch that never came nothing is known. -/
theorem exists_of_isFinal {batches : List Batch}
    (h : ((batches.foldl submit {}).statusOf id).status.isFinal = true) :
    ∃ batch ∈ batches, batch.headerSignature = id := by
  by_contra hnone
  rw [statusOf_submitAll_of_ne fun batch hmem hid => hnone ⟨batch, hmem, hid⟩] at h
  cases h

/-- Who was told that a batch is committed or invalid can rely on it as long as no batch under the
same id is sent. If it is the same batch that is sent again, then it is as before exactly if it
was invalid or there is nothing in it. -/
theorem final_status_lasts (requests : List Request) (hrequests : ∀ r ∈ requests, r.body.Storable)
    {inquiry : Request} {ids : List String} (hinquiry : inquiry? inquiry = some ids)
    (hid : id ∈ ids) (hreported : reported (serve {} requests) inquiry id = some status)
    (hfinal : status.status.isFinal = true) :
    ∃ batch ∈ requests.flatMap brought, batch.headerSignature = id ∧
      ∀ later : List Request, (∀ r ∈ later, r.body.Storable) →
        ((∀ b ∈ later.flatMap brought, b.headerSignature ≠ id) →
          Tells (serve {} (requests ++ later)) id status) ∧
        ((∃ b ∈ later.flatMap brought, b.headerSignature = id) →
          (∀ b ∈ later.flatMap brought, b.headerSignature = id → b = batch) →
          ∃ status', Tells (serve {} (requests ++ later)) id status' ∧
            (status'.status = status.status ↔
              status.status = .invalid ∨ batch.transactions = [])) := by
  obtain rfl : (serve {} requests).statusOf id = status :=
    Option.some.inj ((reported_eq hinquiry hid _).symm.trans hreported)
  rw [serve_eq_submit] at hfinal
  obtain ⟨batch, hmem, hid, before, after, -, -, hafter, hgrows, hdecision⟩ :=
    exists_decision (show Sound ({} : Ledger).state from sound_nil)
      (fun b => storable_of_flatMap_brought hrequests)
      (exists_of_isFinal hfinal)
  rw [← serve_eq_submit] at hgrows hdecision
  refine ⟨batch, hmem, hid, fun later hlater => ?_⟩
  have hserve : serve {} (requests ++ later) =
      (later.flatMap brought).foldl submit (serve {} requests) := by
    rw [serve_append, serve_eq_submit (serve {} requests)]
  constructor
  · intro hothers
    rw [hserve, ← statusOf_submitAll_of_ne hothers]
    exact tells_statusOf _ _
  · intro hagain hsame
    obtain ⟨batch', hmem', hid', again, _, hsound, hgrows', -, -, hdecision'⟩ :=
      exists_decision (sound_serve hrequests)
        (fun b => storable_of_flatMap_brought hlater) hagain
    obtain rfl := hsame batch' hmem' hid'
    refine ⟨_, tells_statusOf _ _, ?_⟩
    rw [hserve]
    by_cases hempty : batch'.transactions = []
    · rw [hdecision.committed_of_empty hempty, hdecision'.committed_of_empty hempty]
      exact ⟨fun _ => Or.inr hempty, fun _ => rfl⟩
    · have hbreaks := hdecision.breaksAtOnce hafter hsound (hgrows.trans hgrows') hempty
      rw [hdecision'.invalid_of_breaksAtOnce hsound hbreaks]
      exact ⟨fun h => Or.inl h.symm, fun h => (h.resolve_right hempty).symm⟩

/-- A batch in which an agent is registered. -/
def sending : Request :=
  posting batchesUrl [{
    headerSignature := "b1"
    transactions := [{
      header := TransactionHeader.schema.encode { signerPublicKey := "p1" }
      headerSignature := "t1"
      payload := (Action.createAgent (some "n") 1).encode }] }]

def asking : Request where
  method := .get
  url := { scheme := "http".toList, path := "/batch_statuses".toList
           query := some "id=b1".toList }

theorem inquiry?_asking : inquiry? asking = some ["b1"] := by decide +kernel

theorem final_status_lasts_sending :
    reported (serve {} [sending]) asking "b1" = some { id := "b1", status := .committed } ∧
    Tells (serve {} ([sending] ++ [registration "a" "A"])) "b1"
      { id := "b1", status := .committed } ∧
    ∃ status, Tells (serve {} ([sending] ++ [sending])) "b1" status ∧
      status.status ≠ .committed := by
  have hstatus : (serve {} [sending]).statusOf "b1" = { id := "b1", status := .committed } := by
    decide +kernel
  have hreported : reported (serve {} [sending]) asking "b1" =
      some { id := "b1", status := .committed } := by
    rw [← hstatus]
    exact reported_eq inquiry?_asking (by simp) _
  obtain ⟨batch, hmem, -, hlasts⟩ :=
    final_status_lasts [sending] (by decide +kernel) inquiry?_asking (by simp) hreported rfl
  refine ⟨hreported, (hlasts [registration "a" "A"] (by decide +kernel)).1 (by decide +kernel), ?_⟩
  have hbrought : ∀ b ∈ [sending].flatMap brought, b.transactions ≠ [] ∧
      ∀ b' ∈ [sending].flatMap brought, b'.headerSignature = "b1" → b' = b := by decide +kernel
  obtain ⟨status, htells, hkind⟩ := (hlasts [sending] (by decide +kernel)).2 (by decide +kernel)
    (hbrought batch hmem).2
  refine ⟨status, htells, fun hcommitted => ?_⟩
  rcases hkind.mp hcommitted with hinvalid | hempty
  · cases hinvalid
  · exact (hbrought batch hmem).1 hempty

/-- The status of a batch that was committed changes when it is sent again. -/
theorem final_status_changes :
    reported (serve {} [sending]) asking "b1" = some { id := "b1", status := .committed } ∧
    StatusKind.committed.isFinal = true ∧
    reported (serve {} [sending, sending]) asking "b1" = some
      { id := "b1", status := .invalid
        invalidTransactions := [
          { id := "t1", message := "Agent already exists: p1", extendedData := some "" }] } := by
  rw [reported_eq inquiry?_asking (by simp), reported_eq inquiry?_asking (by simp)]
  decide +kernel

end CertRegistry.Ledger
