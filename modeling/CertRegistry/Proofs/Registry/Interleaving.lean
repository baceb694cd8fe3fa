import CertRegistry.Proofs.Registry.Registrations

/-!
# Registering side by side

Any number of callers register at one node that starts empty, and their requests come in any order,
a submission before the question for its status. All that matters is the order of the submissions:
it makes up the ledger, whenever the questions are asked. The invariant carries that those who have
asked were told what the ledger still says about their batches.
-/

namespace CertRegistry

open Rest Rest.Talk

namespace Caller

/-- Whether a caller asks the node at a port of this machine, and what it sends is small. -/
structure IsReady (c : Caller) (port : Nat) : Prop where
  isLocal : c.client.IsLocal port
  storable : (c.registration.body c.client.family).Storable

variable {c : Caller} {port now : Nat} {ledger : Ledger}

theorem IsReady.ends_submit (h : c.IsReady port) :
    c.submit.Ends now ledger ("/batch_statuses?id=" ++ c.batch.headerSignature)
      (ledger.submit c.batch) :=
  Ledger.ends_sendBatches h.isLocal.rest (Registration.fits_of_storable h.storable)

theorem IsReady.ends_inquire (h : c.IsReady port) :
    c.inquire.Ends now ledger [ledger.statusOf c.batch.headerSignature] ledger :=
  Ledger.ends_statuses h.isLocal.rest h.isLocal.bounded (c.registration.isAnyDigit_batchId _)
    (c.registration.length_batchId _)

end Caller

/-- The stage after so many turns, if the last one told something. -/
def Stage.after : Nat → List BatchStatus → Stage
  | 0, _ => waiting
  | 1, _ => submitted
  | _ + 2, told => returned (.ok told)

namespace Crowd

variable {ι : Type} [DecidableEq ι] (callers : ι → Caller)

/-- Who has submitted, in the order in which they did. -/
def submitters (schedule : List ι) : List ι := schedule.eraseDups

/-- The ledger that the submissions make up. -/
def ledger (order : List ι) : Ledger :=
  (order.map fun i => (callers i).batch).foldl Ledger.submit {}

/-- What a ledger says about the batch of a caller. -/
def told (ledger : Ledger) (i : ι) : BatchStatus :=
  ledger.statusOf (callers i).batch.headerSignature

theorem submitters_concat (schedule : List ι) (i : ι) : submitters (schedule ++ [i]) =
    if i ∈ schedule then submitters schedule else submitters schedule ++ [i] := by
  unfold submitters
  rw [List.eraseDups_append]
  by_cases h : i ∈ schedule
  · simp [List.removeAll, h]
  · simp [List.removeAll, h, List.eraseDups_cons]

theorem mem_submitters {schedule : List ι} {i : ι} : i ∈ submitters schedule ↔ i ∈ schedule :=
  List.mem_eraseDups

theorem nodup_submitters (schedule : List ι) : (submitters schedule).Nodup := by
  induction schedule using List.reverseRecOn with
  | nil => exact List.nodup_nil
  | append_singleton schedule i ih =>
    rw [submitters_concat]
    by_cases h : i ∈ schedule
    · rwa [if_pos h]
    · rw [if_neg h]
      exact List.concat_eq_append ▸ ih.concat fun hmem => h (mem_submitters.mp hmem)

omit [DecidableEq ι] in
theorem ledger_concat (order : List ι) (i : ι) :
    ledger callers (order ++ [i]) = (ledger callers order).submit (callers i).batch := by
  rw [ledger, List.map_append, List.foldl_append]
  rfl

/-- What becomes of a crowd in which a caller registers and nobody else has a turn in between. -/
def registers (crowd : Crowd ι) (i : ι) : Crowd ι where
  session := ((callers i).register.run.run crowd.session).2
  stage := Function.update crowd.stage i
    (.returned ((callers i).register.run.run crowd.session).1)

theorem turn_turn {crowd : Crowd ι} {i : ι} (h : crowd.stage i = .waiting) :
    turn callers (turn callers crowd i) i = registers callers crowd i := by
  unfold registers
  rw [Caller.register_eq, Talk.run_bind]
  rcases hsubmit : (callers i).submit.run.run crowd.session with ⟨posted, session⟩
  cases posted with
  | ok link =>
    simp only [turn, h, hsubmit, Function.update_self, Function.update_idem]
    rfl
  | error fault => simp [turn, h, hsubmit]

/-- Whether the turns of callers are what their clients do to create agents: the same two requests,
which come to the same if nobody else has a turn in between. -/
structure AreRegistrations (callers : ι → Caller) : Prop where
  requests : ∀ i, (callers i).client.createAgent Ledger.node (callers i).registration.signer
      (callers i).registration.nonce (callers i).registration.name
      (callers i).registration.timestamp =
    (callers i).submit >>= fun _ => (callers i).inquire
  turns : ∀ crowd i, crowd.stage i = .waiting →
    turn callers (turn callers crowd i) i = registers callers crowd i

theorem areRegistrations : AreRegistrations callers :=
  ⟨fun i => (callers i).register_eq, fun _ _ h => turn_turn callers h⟩

/-! ## Schedules -/

/-- Whether nobody else in a schedule has a batch with the id of that of a caller. -/
def Owns (schedule : List ι) (i : ι) : Prop :=
  ∀ j ∈ schedule, (callers j).batch.headerSignature = (callers i).batch.headerSignature → j = i

/-- What holds after a schedule: the submissions have made up the ledger, and whoever has asked was
told something about its batch, which is what the ledger says in the end if the id is its own. -/
structure Follows (schedule : List ι) (crowd : Crowd ι) : Prop where
  ledger : crowd.session.node = ledger callers (submitters schedule)
  stage : ∀ i, ∃ status, crowd.stage i = .after (schedule.count i) [status] ∧
    status.id = (callers i).batch.headerSignature ∧
    (Owns callers schedule i → status = told callers crowd.session.node i)

variable {callers} {port : Nat} {schedule : List ι} {crowd : Crowd ι} {i : ι}

omit [DecidableEq ι] in
theorem Owns.of_append {more : List ι} (h : Owns callers (schedule ++ more) i) :
    Owns callers schedule i :=
  fun j hj => h j (List.mem_append_left _ hj)

/-- A turn in which one caller moves on, and others who have an id of their own would be told the
same as before. -/
theorem Follows.moves_on (h : Follows callers schedule crowd) {session : Session Ledger}
    {next : Stage} (hledger : session.node = Crowd.ledger callers (submitters (schedule ++ [i])))
    (hnext : next = .after (schedule.count i + 1) [told callers session.node i])
    (hkept : ∀ j, j ≠ i → Owns callers (schedule ++ [i]) j →
      told callers session.node j = told callers crowd.session.node j) :
    Follows callers (schedule ++ [i])
      { session, stage := Function.update crowd.stage i next } := by
  refine ⟨hledger, fun j => ?_⟩
  show ∃ status, Function.update crowd.stage i next j = _ ∧ _
  rw [List.count_append]
  by_cases hj : j = i
  · subst hj
    rw [Function.update_self, List.count_singleton_self]
    exact ⟨_, hnext, Ledger.id_statusOf _ _, fun _ => rfl⟩
  · obtain ⟨status, hstage, hid, htold⟩ := h.stage j
    have hcount : [i].count j = 0 := by simp [Ne.symm hj]
    rw [Function.update_of_ne hj, hcount, Nat.add_zero]
    refine ⟨status, hstage, hid, fun howns => ?_⟩
    rw [htold howns.of_append, hkept j hj howns]

theorem Follows.submits (h : Follows callers schedule crowd) (hready : (callers i).IsReady port)
    (hnew : i ∉ schedule) : Follows callers (schedule ++ [i]) (turn callers crowd i) := by
  have hcount : schedule.count i = 0 := List.count_eq_zero_of_not_mem hnew
  have hstage : crowd.stage i = .waiting := by
    obtain ⟨status, hstage, -⟩ := h.stage i
    rw [hstage, hcount]
    rfl
  obtain ⟨session, hrun, hnode, -⟩ := hready.ends_submit crowd.session rfl rfl
  have hturn : turn callers crowd i =
      { session, stage := Function.update crowd.stage i .submitted } := by
    simp only [turn, hstage, hrun]
  rw [hturn]
  apply h.moves_on
  · rw [submitters_concat, if_neg hnew, ledger_concat, hnode, h.ledger]
  · rw [hcount]
    rfl
  · intro j hj howns
    have hne : (callers i).batch.headerSignature ≠ (callers j).batch.headerSignature :=
      fun heq => hj (howns i (by simp) heq).symm
    rw [told, told, hnode, Ledger.statusOf_submit_of_ne hne]

theorem Follows.inquires (h : Follows callers schedule crowd) (hready : (callers i).IsReady port)
    (hcount : schedule.count i = 1) : Follows callers (schedule ++ [i]) (turn callers crowd i) := by
  have hstage : crowd.stage i = .submitted := by
    obtain ⟨status, hstage, -⟩ := h.stage i
    rw [hstage, hcount]
    rfl
  have hmem : i ∈ schedule := List.count_pos_iff.mp (by omega)
  obtain ⟨session, hrun, hnode, -⟩ := hready.ends_inquire crowd.session rfl rfl
  have hturn : turn callers crowd i =
      { session
        stage := Function.update crowd.stage i
          (.returned (.ok [told callers crowd.session.node i])) } := by
    simp only [turn, hstage, hrun]
    rfl
  rw [hturn]
  apply h.moves_on
  · rw [submitters_concat, if_pos hmem, hnode, h.ledger]
  · rw [hcount, hnode]
    rfl
  · intro j _ _
    rw [hnode]

/-- Whoever has returned makes no more requests. -/
theorem Follows.rests (h : Follows callers schedule crowd) (hcount : 2 ≤ schedule.count i) :
    Follows callers (schedule ++ [i]) (turn callers crowd i) := by
  obtain ⟨n, hn⟩ := Nat.exists_eq_add_of_le' hcount
  have hturn : turn callers crowd i = crowd := by
    obtain ⟨status, hstage, -⟩ := h.stage i
    rw [hn] at hstage
    simp only [turn, hstage, Stage.after]
  have hmem : i ∈ schedule := List.count_pos_iff.mp (by omega)
  rw [hturn]
  constructor
  · rw [submitters_concat, if_pos hmem, h.ledger]
  · intro j
    obtain ⟨status, hstage, hid, htold⟩ := h.stage j
    refine ⟨status, ?_, hid, fun howns => htold howns.of_append⟩
    rw [hstage, List.count_append]
    by_cases hj : j = i
    · subst hj
      rw [List.count_singleton_self, hn]
      rfl
    · rw [List.count_singleton, if_neg (by simpa using Ne.symm hj), Nat.add_zero]

theorem follows_run (hready : ∀ i ∈ schedule, (callers i).IsReady port) :
    Follows callers schedule (run callers schedule) := by
  induction schedule using List.reverseRecOn with
  | nil => exact ⟨rfl, fun i => ⟨told callers {} i, rfl, Ledger.id_statusOf _ _, fun _ => rfl⟩⟩
  | append_singleton schedule i ih =>
    have h := ih fun j hj => hready j (List.mem_append_left _ hj)
    have hi := hready i (by simp)
    rw [run, List.foldl_append]
    show Follows callers (schedule ++ [i]) (turn callers (run callers schedule) i)
    rcases hcount : schedule.count i with _ | _ | n
    · exact h.submits hi (List.count_eq_zero.mp hcount)
    · exact h.inquires hi hcount
    · exact h.rests (by omega)

/-! ## Who gets in -/

/-- What a caller registers with, and a status. -/
def verdict (callers : ι → Caller) (status : ι → BatchStatus) (i : ι) : Verdict :=
  ⟨(callers i).registration, status i⟩

/-- What the node decides on the submissions, one after the other. -/
structure Decides (callers : ι → Caller) (order : List ι) (status : ι → BatchStatus) : Prop where
  reflects : Ledger.Reflects (order.map (verdict callers status)) (ledger callers order).state
  decided : ∀ earlier i later, order = earlier ++ i :: later →
    Verdict.Decided (callers i).client.family (earlier.map (verdict callers status))
      (verdict callers status i)
  recorded : ∀ earlier i later, order = earlier ++ i :: later →
    told callers (ledger callers (earlier ++ [i])) i = status i

theorem exists_decides {order : List ι} (hnodup : order.Nodup)
    (hready : ∀ i ∈ order, (callers i).IsReady port) : ∃ status, Decides callers order status := by
  induction order using List.reverseRecOn with
  | nil =>
    refine ⟨told callers {}, ⟨Ledger.sound_nil, fun _ => rfl, List.nodup_nil⟩, ?_, ?_⟩
    · intro earlier i later h
      simp at h
    · intro earlier i later h
      simp at h
  | append_singleton order i ih =>
    rw [List.nodup_append] at hnodup
    obtain ⟨hnodup, -, hnew⟩ := hnodup
    obtain ⟨status, hreflects, hdecided, hrecorded⟩ :=
      ih hnodup fun j hj => hready j (List.mem_append_left _ hj)
    obtain ⟨last, hlast, hmore, hnext⟩ := hreflects.submit (hready i (by simp)).storable
    have hold : ∀ j ∈ order, Function.update status i last j = status j :=
      fun j hj => Function.update_of_ne (hnew j hj i (List.mem_singleton_self i)) _ _
    have hmap : ∀ earlier : List ι, (∀ j ∈ earlier, j ∈ order) →
        earlier.map (verdict callers (Function.update status i last)) =
          earlier.map (verdict callers status) := by
      intro earlier h
      refine List.map_congr_left fun j hj => ?_
      rw [verdict, verdict, hold j (h j hj)]
    have hverdict : verdict callers (Function.update status i last) i =
        ⟨(callers i).registration, last⟩ := by
      rw [verdict, Function.update_self]
    refine ⟨Function.update status i last, ?_, ?_, ?_⟩
    · rw [List.map_append, List.map_singleton, hmap order fun _ => id, hverdict, ledger_concat]
      exact hmore
    · apply forall_splits_concat
      · intro earlier j later h
        have hmem : ∀ k ∈ earlier ++ j :: later, k ∈ order := fun k hk => h ▸ hk
        rw [hmap earlier fun k hk => hmem k (List.mem_append_left _ hk), verdict,
          hold j (hmem j (by simp))]
        exact hdecided earlier j later h
      · rw [hmap order fun _ => id, hverdict]
        exact hnext
    · apply forall_splits_concat
      · intro earlier j later h
        rw [hold j (h ▸ by simp)]
        exact hrecorded earlier j later h
      · rw [Function.update_self, ledger_concat]
        exact hlast

/-- The key under which a caller registers. -/
def key (callers : ι → Caller) (i : ι) : String := (callers i).registration.signer.publicKeyHex

/-- Whether a caller is the first, in the order of the submissions, to register its key with a
name. -/
def IsFirst (callers : ι → Caller) (order : List ι) (i : ι) : Prop :=
  (callers i).registration.IsNamed ∧ ∃ earlier later, order = earlier ++ i :: later ∧
    ∀ j ∈ earlier, (callers j).registration.IsNamed → key callers j ≠ key callers i

section Order

omit [DecidableEq ι]

variable {order earlier later : List ι} {status : ι → BatchStatus} {j : ι}

theorem IsFirst.mem (h : IsFirst callers order i) : i ∈ order := by
  obtain ⟨-, earlier, later, rfl, -⟩ := h
  simp

/-- Only one caller can be the first with a key. -/
theorem IsFirst.unique (hi : IsFirst callers order i) (hj : IsFirst callers order j)
    (hkey : key callers i = key callers j) : i = j := by
  obtain ⟨hnamed, earlier, later, rfl, hfirst⟩ := hi
  obtain ⟨hnamed', earlier', later', horder, hfirst'⟩ := hj
  rcases List.append_eq_append_iff.mp horder with ⟨between, rfl, hrest⟩ | ⟨between, rfl, hrest⟩
  · cases between with
    | nil => exact (List.cons.inj hrest).1
    | cons first between =>
      obtain ⟨rfl, -⟩ := List.cons.inj hrest
      exact absurd hkey (hfirst' i (by simp) hnamed)
  · cases between with
    | nil => exact (List.cons.inj hrest).1.symm
    | cons first between =>
      obtain ⟨rfl, -⟩ := List.cons.inj hrest
      exact absurd hkey.symm (hfirst j (by simp) hnamed')

/-- A key that somebody has registered with a name is taken from then on. -/
theorem Decides.exists_committed (h : Decides callers order status)
    (horder : order = earlier ++ j :: later) (hnamed : (callers j).registration.IsNamed) :
    ∃ k ∈ earlier ++ [j], (status k).status = .committed ∧ key callers k = key callers j := by
  by_cases hcommitted : (status j).status = .committed
  · exact ⟨j, by simp, hcommitted, rfl⟩
  · by_contra hnone
    refine hcommitted ((h.decided earlier j later horder).committed.mpr ⟨hnamed, ?_⟩)
    intro e he hcommitted' hkey
    obtain ⟨k, hk, rfl⟩ := List.mem_map.mp he
    exact hnone ⟨k, List.mem_append_left _ hk, hcommitted', hkey⟩

theorem Decides.committed_iff (h : Decides callers order status) (hi : i ∈ order) :
    (status i).status = .committed ↔ IsFirst callers order i := by
  constructor
  · intro hcommitted
    obtain ⟨earlier, later, horder⟩ := List.append_of_mem hi
    obtain ⟨hnamed, hfresh⟩ := (h.decided earlier i later horder).committed.mp hcommitted
    refine ⟨hnamed, earlier, later, horder, fun j hj hnamed' hkey => ?_⟩
    obtain ⟨before, after, rfl⟩ := List.append_of_mem hj
    rw [List.append_assoc, List.cons_append] at horder
    obtain ⟨k, hk, hcommitted', hkey'⟩ := h.exists_committed horder hnamed'
    have hmem : k ∈ before ++ j :: after := by
      rw [List.append_cons]
      exact List.mem_append_left _ hk
    exact hfresh _ (List.mem_map_of_mem hmem) hcommitted' (hkey'.trans hkey)
  · rintro ⟨hnamed, earlier, later, horder, hfirst⟩
    refine (h.decided earlier i later horder).committed.mpr ⟨hnamed, ?_⟩
    intro e he hcommitted
    obtain ⟨j, hj, rfl⟩ := List.mem_map.mp he
    obtain ⟨before, after, rfl⟩ := List.append_of_mem hj
    rw [List.append_assoc, List.cons_append] at horder
    exact hfirst j hj ((h.decided before j _ horder).committed.mp hcommitted).1

theorem Decides.isFinal (h : Decides callers order status) (hi : i ∈ order) :
    (status i).status.isFinal = true := by
  obtain ⟨earlier, later, horder⟩ := List.append_of_mem hi
  have hdecided := h.decided earlier i later horder
  by_cases hcommitted : (status i).status = .committed
  · rw [hcommitted]
    rfl
  · have hinvalid : (status i).status = .invalid := by
      by_cases hnamed : (callers i).registration.IsNamed
      · exact (hdecided.taken hnamed hcommitted).1
      · exact (hdecided.unnamed hnamed).1
    rw [hinvalid]
    rfl

/-- The agents that got in are those of the callers who were the first with their keys. -/
theorem Decides.mem_agents (h : Decides callers order status) {agent : Agent} :
    agent ∈ Ledger.agents (ledger callers order).state ↔
      ∃ i, IsFirst callers order i ∧ (callers i).registration.agent = agent := by
  rw [h.reflects.perm_agents.mem_iff, mem_registered]
  constructor
  · rintro ⟨v, hv, hcommitted, rfl⟩
    obtain ⟨i, hi, rfl⟩ := List.mem_map.mp hv
    exact ⟨i, (h.committed_iff hi).mp hcommitted, rfl⟩
  · rintro ⟨i, hfirst, rfl⟩
    exact ⟨_, List.mem_map_of_mem hfirst.mem, (h.committed_iff hfirst.mem).mpr hfirst, rfl⟩

/-- What comes later has no part in what is said about a batch with an id of its own. -/
theorem told_ledger_append (h : ∀ j ∈ later,
    (callers j).batch.headerSignature ≠ (callers i).batch.headerSignature) :
    told callers (ledger callers (earlier ++ later)) i =
      told callers (ledger callers earlier) i := by
  induction later using List.reverseRecOn with
  | nil => rw [List.append_nil]
  | append_singleton later j ih =>
    rw [← List.append_assoc, ledger_concat, told,
      Ledger.statusOf_submit_of_ne (h j (by simp))]
    exact ih fun k hk => h k (List.mem_append_left _ hk)

theorem Decides.told_eq (h : Decides callers order status) (hnodup : order.Nodup) (hi : i ∈ order)
    (howns : Owns callers order i) : told callers (ledger callers order) i = status i := by
  obtain ⟨earlier, later, rfl⟩ := List.append_of_mem hi
  rw [← h.recorded earlier i later rfl, List.append_cons]
  apply told_ledger_append
  intro j hj heq
  obtain rfl := howns j (by simp [hj]) heq
  exact (List.nodup_cons.mp (List.nodup_append.mp hnodup).2.1).1 hj

end Order

/-- What a schedule comes to, in which callers have submitted in some order. -/
structure Settles (callers : ι → Caller) (schedule order : List ι) (crowd : Crowd ι) : Prop where
  /-- Questions leave no trace. -/
  ledger : crowd.session.node = ledger callers order
  /-- There is one answer to a question, which is about the batch of the caller. -/
  returned : ∀ i, 2 ≤ schedule.count i → ∃ status, crowd.stage i = .returned (.ok [status]) ∧
    status.id = (callers i).batch.headerSignature ∧
    (Owns callers schedule i → status = told callers crowd.session.node i ∧
      status.status.isFinal = true ∧ (status.status = .committed ↔ IsFirst callers order i))
  unique : ∀ i j, IsFirst callers order i → IsFirst callers order j →
    key callers i = key callers j → i = j
  stored : ∀ agent, agent ∈ Ledger.agents crowd.session.node.state ↔
    ∃ i, IsFirst callers order i ∧ (callers i).registration.agent = agent
  distinct : ((Ledger.agents crowd.session.node.state).map (·.publicKey)).Nodup

/-- Whichever way the requests of callers who create agents come in, each is told what became of its
own batch, if nobody else has one with its id, and those get in who are the first to submit their
keys with names. -/
theorem schedules_settle (callers : ι → Caller) {port : Nat} (schedule : List ι)
    (hready : ∀ i ∈ schedule, (callers i).IsReady port) :
    AreRegistrations callers ∧
      Settles callers schedule (submitters schedule) (run callers schedule) := by
  refine ⟨areRegistrations callers, ?_⟩
  have hfollows := follows_run hready
  obtain ⟨status, hdecides⟩ := exists_decides (nodup_submitters schedule)
    fun i hi => hready i (mem_submitters.mp hi)
  constructor
  · exact hfollows.ledger
  · intro i hcount
    obtain ⟨answer, hstage, hid, htold⟩ := hfollows.stage i
    obtain ⟨n, hn⟩ := Nat.exists_eq_add_of_le' hcount
    rw [hn] at hstage
    refine ⟨answer, hstage, hid, fun howns => ⟨htold howns, ?_⟩⟩
    have hmem : i ∈ submitters schedule :=
      mem_submitters.mpr (List.count_pos_iff.mp (by omega))
    have hanswer : answer = status i := by
      rw [htold howns, hfollows.ledger]
      exact hdecides.told_eq (nodup_submitters schedule) hmem
        fun j hj => howns j (mem_submitters.mp hj)
    rw [hanswer]
    exact ⟨hdecides.isFinal hmem, hdecides.committed_iff hmem⟩
  · intro i j hi hj hkey
    exact hi.unique hj hkey
  · intro agent
    rw [hfollows.ledger]
    exact hdecides.mem_agents
  · rw [hfollows.ledger]
    exact hdecides.reflects.sound.nodup_agents

end Crowd

/-- Eve and Ada, who have the same key. -/
def Caller.rival (isAda : Bool) : Caller where
  client := .sample
  registration := .sample (some (if isAda then "Ada" else "Eve"))

/-- Eve is the first to submit and the last to ask, so she gets in and Ada does not, who would if
she were alone. -/
theorem Crowd.schedules_settle_rivals :
    (∀ agent, agent ∈
        Ledger.agents (run Caller.rival [false, true, true, false]).session.node.state ↔
      agent = (Caller.rival false).registration.agent) ∧
    ∃ status, (run Caller.rival [true, true]).stage true = .returned (.ok [status]) ∧
      status.status = .committed := by
  have hlocal : RegistryClient.sample.IsLocal 8008 :=
    ⟨⟨by decide, rfl, by decide⟩, by decide⟩
  have hready : ∀ isAda, (Caller.rival isAda).IsReady 8008 := by
    intro isAda
    cases isAda with
    | false => exact ⟨hlocal, Registration.storable_body rfl (by decide +kernel)⟩
    | true => exact ⟨hlocal, Registration.storable_body rfl (by decide +kernel)⟩
  constructor
  · obtain ⟨-, hsettles⟩ :=
      schedules_settle Caller.rival [false, true, true, false] fun i _ => hready i
    have heve : IsFirst Caller.rival (submitters [false, true, true, false]) false :=
      ⟨⟨"Eve", rfl, by decide⟩, [], [true], by decide, List.forall_mem_nil _⟩
    intro agent
    rw [hsettles.stored]
    constructor
    · rintro ⟨i, hfirst, rfl⟩
      rw [hsettles.unique i false hfirst heve rfl]
    · rintro rfl
      exact ⟨false, heve, rfl⟩
  · obtain ⟨-, hsettles⟩ := schedules_settle Caller.rival [true, true] fun i _ => hready i
    have hada : IsFirst Caller.rival (submitters [true, true]) true :=
      ⟨⟨"Ada", rfl, by decide⟩, [], [], by decide, List.forall_mem_nil _⟩
    have howns : Owns Caller.rival [true, true] true := by
      intro j hj _
      simpa using hj
    obtain ⟨status, hstage, -, hdecided⟩ := hsettles.returned true (by decide)
    exact ⟨status, hstage, (hdecided howns).2.2.mpr hada⟩

end CertRegistry
