import CertRegistry.Proofs.Rest.Attempts

/-!
# Accounts of what a client does

What the calls of a client add to the totals of the counters: one for every attempt that did not
end at a deadline, and besides that what was learned from answers, which batches were taken and
which statuses were told.
-/

namespace CertRegistry.Rest

variable {σ : Type}

/-- What a client learned from answers that it could read. -/
structure News where
  /-- How many batches there are in the lists that were taken. -/
  submitted : Nat := 0
  /-- All statuses that were told. -/
  told : List BatchStatus := []

namespace News

def add (news more : News) : News :=
  { submitted := news.submitted + more.submitted, told := news.told ++ more.told }

/-- What the news add to a counter. -/
def total (news : News) : Counter → Nat
  | .batchesSubmitted => news.submitted
  | .status kind => news.told.countP (·.status = kind)
  | .requests .. => 0

@[simp]
theorem total_empty (c : Counter) : total {} c = 0 := by
  cases c <;> rfl

@[simp]
theorem total_add (news more : News) (c : Counter) :
    (news.add more).total c = news.total c + more.total c := by
  cases c with
  | status kind => exact List.countP_append
  | _ => rfl

@[simp]
theorem empty_add (news : News) : add {} news = news := by
  simp [add]

end News

namespace Tally

theorem total_cons (entry : Counter × Nat) (tally : Tally) (c : Counter) :
    total (entry :: tally) c = (if entry.1 = c then entry.2 else 0) + tally.total c := by
  by_cases h : entry.1 = c
  · simp [total, h]
  · simp [total, h]

theorem total_append (tally more : Tally) (c : Counter) :
    total (tally ++ more) c = tally.total c + more.total c := by
  induction tally with
  | nil => simp
  | cons entry tally ih =>
    rw [List.cons_append, total_cons, total_cons, ih, Nat.add_assoc]

/-- One for each thing, under the counter that it belongs to. -/
theorem total_map_one {α : Type} (counter : α → Counter) (xs : List α) (c : Counter) :
    total (xs.map fun x => (counter x, 1)) c = xs.countP (counter · = c) := by
  induction xs with
  | nil => rfl
  | cons x xs ih =>
    rw [List.map_cons, total_cons, ih, List.countP_cons, Nat.add_comm]
    simp

theorem total_submitted (n : Nat) (c : Counter) :
    total [(.batchesSubmitted, n)] c = News.total { submitted := n } c := by
  cases c <;> simp [total_cons, News.total]

theorem total_told (told : List BatchStatus) (c : Counter) :
    total (told.map fun status => (.status status.status, 1)).reverse c =
      News.total { told } c := by
  rw [← List.map_reverse, total_map_one, List.countP_reverse]
  cases c with
  | status kind => simp only [News.total, Counter.status.injEq]
  | _ => simp [News.total]

variable {resource? : Attempt → Option Resource} {succeeds : Ending → Bool}

theorem ofAttempts_append (attempts more : List Attempt) :
    ofAttempts resource? succeeds (attempts ++ more) =
      ofAttempts resource? succeeds attempts ++ ofAttempts resource? succeeds more :=
  List.flatMap_append

/-- Whether an attempt at a request for a resource is counted, as a success or as an error. -/
def counts (resource? : Attempt → Option Resource) (succeeds : Ending → Bool) (resource : Resource)
    (success : Bool) (a : Attempt) : Bool :=
  resource? a = some resource && a.ending ≠ .abandoned && succeeds a.ending = success

theorem total_ofAttempts_requests (attempts : List Attempt) (resource : Resource)
    (success : Bool) :
    (ofAttempts resource? succeeds attempts).total (.requests resource success) =
      attempts.countP (counts resource? succeeds resource success) := by
  induction attempts with
  | nil => rfl
  | cons a attempts ih =>
    rw [← List.singleton_append, ofAttempts_append, total_append, ih, List.countP_append]
    congr 1
    unfold ofAttempts counts
    by_cases hending : a.ending = .abandoned
    · simp [hending]
    · cases hresource : resource? a with
      | none => simp [hending, hresource]
      | some r => simp [hending, hresource, total_cons, List.countP_cons]

theorem total_ofAttempts_of_ne {c : Counter} (h : ∀ r success, c ≠ .requests r success)
    (attempts : List Attempt) : (ofAttempts resource? succeeds attempts).total c = 0 := by
  induction attempts with
  | nil => rfl
  | cons a attempts ih =>
    rw [← List.singleton_append, ofAttempts_append, total_append, ih]
    unfold ofAttempts
    by_cases hending : a.ending = .abandoned
    · simp [hending]
    · cases hresource : resource? a with
      | none => simp [hending, hresource]
      | some r => simp [hending, hresource, total_cons, (h r (succeeds a.ending)).symm]

end Tally

/-- The attempts that a session has and had not before. -/
def Session.attemptsSince (s before : Session σ) : List Attempt :=
  s.attempts.take (s.attempts.length - before.attempts.length)

theorem Session.attemptsSince_eq {s before : Session σ} {attempts : List Attempt}
    (h : s.attempts = attempts ++ before.attempts) : s.attemptsSince before = attempts := by
  unfold attemptsSince
  rw [h, List.length_append, Nat.add_sub_cancel]
  exact List.take_left

/-- What a session has recorded later on: some attempts more, and in the totals what there is to be
counted for them and for the news. -/
structure Session.Adds (s s' : Session σ) (resource? : Attempt → Option Resource)
    (succeeds : Ending → Bool) (attempts : List Attempt) (news : News) : Prop where
  attempts_eq : s'.attempts = attempts ++ s.attempts
  total_eq : ∀ c, s'.tally.total c =
    s.tally.total c + (Tally.ofAttempts resource? succeeds attempts).total c + news.total c

namespace Session.Adds

variable {s s₁ s₂ : Session σ} {resource? : Attempt → Option Resource} {succeeds : Ending → Bool}
  {attempts more : List Attempt} {news moreNews : News}

/-- Time may pass and the node may change. -/
theorem of_eq {s s' : Session σ} (hattempts : s'.attempts = s.attempts)
    (htally : s'.tally = s.tally) : s.Adds s' resource? succeeds [] {} :=
  ⟨hattempts, fun c => by rw [htally, News.total_empty]; rfl⟩

theorem of_grows (h : s.Grows s₁ attempts (.ofAttempts resource? succeeds attempts)) :
    s.Adds s₁ resource? succeeds attempts {} :=
  ⟨h.attempts, fun c => by rw [h.tally, Tally.total_append, News.total_empty, Nat.add_comm]; rfl⟩

theorem trans (h : s.Adds s₁ resource? succeeds attempts news)
    (h' : s₁.Adds s₂ resource? succeeds more moreNews) :
    s.Adds s₂ resource? succeeds (more ++ attempts) (news.add moreNews) := by
  refine ⟨by rw [h'.attempts_eq, h.attempts_eq, List.append_assoc], fun c => ?_⟩
  rw [h'.total_eq, h.total_eq, Tally.ofAttempts_append, Tally.total_append, News.total_add]
  omega

/-- Only the attempts that were made matter for how attempts are counted. -/
theorem congr {resource?' : Attempt → Option Resource} {succeeds' : Ending → Bool}
    (h : s.Adds s₁ resource? succeeds attempts news)
    (hresource : ∀ a ∈ attempts, resource? a = resource?' a)
    (hsucceeds : ∀ a ∈ attempts, succeeds a.ending = succeeds' a.ending) :
    s.Adds s₁ resource?' succeeds' attempts news := by
  have htally : Tally.ofAttempts resource? succeeds attempts =
      Tally.ofAttempts resource?' succeeds' attempts := by
    unfold Tally.ofAttempts
    rw [List.flatMap_def, List.flatMap_def]
    refine congrArg List.flatten (List.map_congr_left fun a ha => ?_)
    rw [hresource a ha, hsucceeds a ha]
  exact ⟨h.attempts_eq, fun c => by rw [h.total_eq, htally]⟩

end Session.Adds

/-- What a session has recorded later on if all requests in between have one method and are for one
resource, or for none. A deadline cuts requests short only if there may be one. -/
structure Session.Asks (s s' : Session σ) (method : Method) (mayEnd : Prop)
    (resource? : Option Resource) (succeeds : Ending → Bool) (news : News) : Prop where
  exists_attempts : ∃ attempts,
    (∀ a ∈ attempts, a.method = method ∧ (a.ending = .abandoned → mayEnd)) ∧
      s.Adds s' (fun _ => resource?) succeeds attempts news

namespace Session.Asks

variable {s s₁ s₂ : Session σ} {method : Method} {mayEnd : Prop} {resource? : Option Resource}
  {succeeds : Ending → Bool} {news more : News}

theorem of_eq (hattempts : s₁.attempts = s.attempts) (htally : s₁.tally = s.tally) :
    s.Asks s₁ method mayEnd resource? succeeds {} :=
  ⟨[], List.forall_mem_nil _, .of_eq hattempts htally⟩

theorem later (s : Session σ) (time : Nat) :
    s.Asks { s with clock := time } method mayEnd resource? succeeds {} :=
  .of_eq rfl rfl

theorem imp {mayEnd' : Prop} (h : s.Asks s₁ method mayEnd resource? succeeds news)
    (hend : mayEnd → mayEnd') : s.Asks s₁ method mayEnd' resource? succeeds news := by
  obtain ⟨attempts, hall, hadds⟩ := h
  exact ⟨attempts, fun a ha => ⟨(hall a ha).1, fun hending => hend ((hall a ha).2 hending)⟩, hadds⟩

theorem of_news {tally : Tally} (hattempts : s₁.attempts = s.attempts)
    (htally : s₁.tally = tally ++ s.tally) (h : ∀ c, tally.total c = news.total c) :
    s.Asks s₁ method mayEnd resource? succeeds news := by
  refine ⟨[], List.forall_mem_nil _, hattempts, fun c => ?_⟩
  rw [htally, Tally.total_append, h, Nat.add_comm]
  rfl

theorem trans (h : s.Asks s₁ method mayEnd resource? succeeds news)
    (h' : s₁.Asks s₂ method mayEnd resource? succeeds more) :
    s.Asks s₂ method mayEnd resource? succeeds (news.add more) := by
  obtain ⟨attempts, hall, hadds⟩ := h
  obtain ⟨attempts', hall', hadds'⟩ := h'
  refine ⟨attempts' ++ attempts, fun a ha => ?_, hadds.trans hadds'⟩
  rcases List.mem_append.mp ha with ha | ha
  · exact hall' a ha
  · exact hall a ha

end Session.Asks

/-! ## Requests -/

namespace Talk

variable {α : Type} (node : Node σ)

theorem send_asks (s : Session σ) (limits : Limits) (call : Call) : ∃ result s',
    (send node limits call).run.run s = (result, s') ∧
      s.Asks s' call.method (∃ d, limits.deadline = some d) none Ending.isSuccess {} := by
  obtain ⟨ending, hconcludes, hgrows⟩ := send_concludes s node limits call
  rcases hrun : (send node limits call).run.run s with ⟨result, s'⟩
  rw [hrun] at hconcludes hgrows
  refine ⟨result, s', rfl, [call.attempt s.clock ending], ?_, .of_grows ?_⟩
  · refine List.forall_mem_singleton.mpr ⟨rfl, ?_⟩
    rintro (rfl : ending = .abandoned)
    cases hconcludes with
    | abandoned h => exact ⟨_, h⟩
  · have htally : Tally.ofAttempts (fun _ => none) Ending.isSuccess
        [call.attempt s.clock ending] = [] := by
      simp [Tally.ofAttempts]
    rw [htally]
    exact hgrows

theorem request_asks (s : Session σ) (limits : Limits) (call : Call) (resource : Resource)
    (reader : Json.Reader α) : ∃ result s',
    (request node limits resource reader call).run.run s = (result, s') ∧
      s.Asks s' call.method (∃ d, limits.deadline = some d) (some resource) Ending.isSuccess
        {} := by
  obtain ⟨attempt, hgrows, hmethod, hending, -⟩ := request_run s node limits call resource reader
  exact ⟨_, _, rfl, [attempt], List.forall_mem_singleton.mpr ⟨hmethod, hending⟩, .of_grows hgrows⟩

/-- Things that are only counted, one after the other. -/
theorem run_forIn_count (counter : α → Counter) (xs : List α) (s : Session σ) :
    (forIn xs PUnit.unit fun x _ => do
      count (counter x) 1
      return ForInStep.yield PUnit.unit : Talk σ PUnit).run.run s =
      (.ok (), { s with tally := (xs.map fun x => (counter x, 1)).reverse ++ s.tally }) := by
  induction xs generalizing s with
  | nil => rfl
  | cons x xs ih =>
    simp only [List.forIn_cons, bind_assoc, run_bind, run_count, pure_bind]
    rw [ih]
    simp [Tally.add]

end Talk

namespace News

/-- What the answer to a list of batches tells. -/
def ofReceipt (batches : BatchList) : Except Fault String → News
  | .ok _ => { submitted := batches.batches.length }
  | .error _ => {}

/-- What the answer to a question for statuses tells. -/
def ofStatuses : Except Fault (List BatchStatus) → News
  | .ok told => { told }
  | .error _ => {}

end News

end CertRegistry.Rest
