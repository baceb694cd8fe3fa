import CertRegistry.Proofs.Command.Overrides
import CertRegistry.Proofs.Rest.Waits
import CertRegistry.Proofs.Toml.Bounds

/-!
# No command waits too long

A whole number in a file of settings has 64 bits with a sign, so two of them add up to a number
that has 64 bits without one. No check looks at that, and none has to.
-/

namespace CertRegistry

open Toml

/-! ## The waits of a configuration -/

/-- Whether the two times that a wait for statuses adds up are as small as numbers in a file. -/
structure Config.WaitsAreShort (config : Config) : Prop where
  timeout : config.node.timeoutSeconds < integerBound
  statusWait : config.polling.statusWaitSeconds < integerBound

namespace Config

theorem keeps_settings : ∀ s ∈ settings, s.Keeps WaitsAreShort := by
  unfold settings
  simp only [List.forall_mem_cons]
  refine ⟨?_, ?_, ?_, ?_, List.forall_mem_nil _⟩
  · refine Setting.keeps_group (Q := fun n : NodeSettings => n.timeoutSeconds < integerBound) ?_
      (fun config h => h.timeout) (fun config n h hn => ⟨hn, h.statusWait⟩)
    simp only [List.forall_mem_cons]
    refine ⟨?_, ?_, List.forall_mem_nil _⟩
    · exact Setting.keeps_of fun _ _ _ h _ _ => h
    · exact Setting.keeps_of fun _ _ _ _ hitem hread => hitem.natural?_lt hread
  · refine Setting.keeps_group
      (Q := fun p : PollingSettings => p.statusWaitSeconds < integerBound) ?_
      (fun config h => h.statusWait) (fun config p h hp => ⟨h.timeout, hp⟩)
    simp only [List.forall_mem_cons]
    refine ⟨?_, ?_, ?_, List.forall_mem_nil _⟩
    · exact Setting.keeps_of fun _ _ _ h _ _ => h
    · exact Setting.keeps_of fun _ _ _ h _ _ => h
    · exact Setting.keeps_of fun _ _ _ _ hitem hread => hitem.natural?_lt hread
  · exact Setting.keeps_group_of_put fun _ _ h => ⟨h.timeout, h.statusWait⟩
  · exact Setting.keeps_group_of_put fun _ _ h => ⟨h.timeout, h.statusWait⟩

theorem waitsAreShort_ofToml? {text : String} {config : Config} (h : ofToml? text = some config) :
    config.WaitsAreShort := by
  obtain ⟨entries, hentries, hread⟩ := Option.bind_eq_some_iff.mp h
  exact Setting.readEntries?_keeps keeps_settings (areBounded_parse? hentries)
    ⟨by decide, by decide⟩ hread

theorem waitsAreShort_read {content : FileContent} {config : Config}
    (h : read content = .ok config) : config.WaitsAreShort := by
  unfold read at h
  obtain ⟨text, -, h⟩ := bind_eq_ok.mp h
  split at h
  next found htext =>
    cases h
    exact waitsAreShort_ofToml? htext
  next => cases h

end Config

/-- Whatever names the node in the end, the waits are those of the file or the defaults. -/
theorem Invocation.waitsAreShort_configuration {invocation : Invocation} {around : Surroundings}
    {config : Config} (h : invocation.configuration around = .ok config) :
    config.WaitsAreShort := by
  obtain ⟨given, hgiven, -, -, rfl⟩ := configuration_eq_ok.mp h
  have hshort : given.WaitsAreShort := by
    unfold Invocation.given at hgiven
    split at hgiven
    · exact Config.waitsAreShort_read hgiven
    · cases hgiven
      exact ⟨by decide, by decide⟩
  exact ⟨hshort.timeout, hshort.statusWait⟩

theorem Invocation.problems_configuration {invocation : Invocation} {around : Surroundings}
    {config : Config} (h : invocation.configuration around = .ok config) :
    config.problems = [] := by
  obtain ⟨given, -, hsound, hall, rfl⟩ := configuration_eq_ok.mp h
  refine Config.problems_eq_nil.mpr ⟨?_, Config.isSound_withUrl.mpr hsound⟩
  rw [Config.node_url_withUrl]
  refine hall _ ?_
  rw [List.mem_cons, endpoints, List.mem_append, Option.mem_toList, Option.mem_toList]
  cases invocation.url with
  | some url => exact Or.inr (Or.inr rfl)
  | none =>
    cases around.endpoint? with
    | some url => exact Or.inr (Or.inl rfl)
    | none => exact Or.inl rfl

/-- The client that a configuration makes of the base of its endpoint. -/
theorem RegistryClient.ofConfig_eq {config : Config} {base : String}
    (hbase : Endpoint.base config.node.url = .ok base) : ofConfig config =
      .ok { rest := { base, timeoutSeconds := config.node.timeoutSeconds }
            family := config.family
            statusWaitSeconds := config.polling.statusWaitSeconds } := by
  unfold ofConfig Rest.Client.ofEndpoint
  rw [hbase]
  rfl

/-- The endpoint that passes the check is one that a client takes. -/
theorem RegistryClient.exists_ofConfig {config : Config} (h : config.problems = []) :
    ∃ client, ofConfig config = .ok client ∧
      client.rest.timeoutSeconds = config.node.timeoutSeconds ∧
      client.statusWaitSeconds = config.polling.statusWaitSeconds := by
  obtain ⟨base, hbase⟩ := Endpoint.isUsable_iff.mp (Config.problems_eq_nil.mp h).1
  exact ⟨_, ofConfig_eq hbase, rfl, rfl⟩

theorem RegistryClient.exists_ofConfig_waits {config : Config} (h : config.problems = [])
    (hshort : config.WaitsAreShort) : ∃ client, ofConfig config = .ok client ∧
      client.rest.timeoutSeconds + client.statusWaitSeconds < UInt64.size := by
  obtain ⟨client, hclient, htimeout, hwait⟩ := exists_ofConfig h
  refine ⟨client, hclient, ?_⟩
  rw [htimeout, hwait]
  exact Nat.add_lt_add hshort.timeout hshort.statusWait

/-! ## Commands -/

namespace Command

variable {σ : Type}

theorem converse_eq_error {α : Type} {toFailure : Rest.Fault → Failure} {talk : Rest.Talk σ α}
    {start : σ} {failure : Failure} (h : talk.WaitsFit)
    (hconverse : converse toFailure talk start = .error failure) :
    ∃ fault, fault ≠ .waitTooLong ∧ toFailure fault = failure := by
  unfold converse at hconverse
  split at hconverse
  · cases hconverse
  next fault hfault =>
    cases hconverse
    refine ⟨fault, ?_, rfl⟩
    rintro rfl
    exact h _ hfault

theorem signer_eq_error {around : Surroundings} {keyFile : Option String} {failure : Failure}
    (h : signer around keyFile = .error failure) : ∃ fault, failure = .key fault := by
  unfold signer at h
  split at h
  · obtain ⟨fault, -, rfl⟩ := mapError_eq_error.mp h
    exact ⟨fault, rfl⟩
  · obtain ⟨fault, -, rfl⟩ := mapError_eq_error.mp h
    exact ⟨fault, rfl⟩

theorem generate_eq_error {around : Surroundings} {output : Option String} {failure : Failure}
    (h : generate around output = .error failure) : ∃ fault, failure = .unwritable fault := by
  unfold generate at h
  cases output with
  | none => cases h
  | some path =>
    simp only at h
    split at h
    next fault _ =>
      cases h
      exact ⟨fault, rfl⟩
    next => cases h

/-- A command does not fail because a wait is too long. -/
theorem run_ne_tooLong {config : Config} (hproblems : config.problems = [])
    (hshort : config.WaitsAreShort) (node : Rest.Node σ) (start : σ) (around : Surroundings)
    (command : Command) {failure : Failure}
    (h : command.run node start around config = .error failure) :
    failure ≠ .node .waitTooLong ∧ failure ≠ .registry .waitTooLong := by
  obtain ⟨client, hclient, htimeout, hwait⟩ := RegistryClient.exists_ofConfig hproblems
  have hclient' := mapError_eq_ok (f := Failure.registry) |>.mpr hclient
  have hfit : client.rest.timeoutSeconds + client.statusWaitSeconds < UInt64.size := by
    have hsum := Nat.add_lt_add hshort.timeout hshort.statusWait
    rw [htimeout, hwait]
    exact hsum
  have hfit' : client.rest.timeoutSeconds + config.polling.statusWaitSeconds < UInt64.size := by
    rw [← hwait]
    exact hfit
  cases command with
  | keygen output =>
    simp only [run] at h
    obtain ⟨fault, rfl⟩ := generate_eq_error h
    exact ⟨by simp, by simp⟩
  | wait tries =>
    simp only [run] at h
    replace h := eq_of_bind_ok hclient' h
    rcases bind_eq_error.mp h with h | ⟨_, -, h⟩
    · obtain ⟨fault, hne, rfl⟩ := converse_eq_error (Rest.Client.waitsFit_waitForNode _ _ _) h
      exact ⟨by simpa using hne, by simp⟩
    · cases h
  | createAgent name timestamp keyFile =>
    simp only [run] at h
    rcases bind_eq_error.mp h with h | ⟨signer, -, h⟩
    · obtain ⟨fault, rfl⟩ := signer_eq_error h
      exact ⟨by simp, by simp⟩
    replace h := eq_of_bind_ok hclient' h
    rcases bind_eq_error.mp h with h | ⟨_, -, h⟩
    · obtain ⟨fault, hne, rfl⟩ :=
        converse_eq_error (RegistryClient.waitsFit_createAgent hfit _ _ _ _) h
      exact ⟨by simp, by simpa using hne⟩
    · cases h
  | agent publicKey =>
    simp only [run] at h
    replace h := eq_of_bind_ok hclient' h
    rcases bind_eq_error.mp h with h | ⟨found, -, h⟩
    · obtain ⟨fault, hne, rfl⟩ := converse_eq_error (RegistryClient.waitsFit_fetchAgent _ _) h
      exact ⟨by simp, by simpa using hne⟩
    · cases found with
      | some agent => cases h
      | none =>
        cases h
        exact ⟨by simp, by simp⟩
  | agents =>
    simp only [run] at h
    replace h := eq_of_bind_ok hclient' h
    rcases bind_eq_error.mp h with h | ⟨_, -, h⟩
    · obtain ⟨fault, hne, rfl⟩ := converse_eq_error (RegistryClient.waitsFit_listAgents _) h
      exact ⟨by simp, by simpa using hne⟩
    · cases h
  | status batchIds =>
    simp only [run] at h
    replace h := eq_of_bind_ok hclient' h
    rcases bind_eq_error.mp h with h | ⟨_, -, h⟩
    · obtain ⟨fault, hne, rfl⟩ := converse_eq_error (Rest.Client.waitsFit_statuses hfit') h
      exact ⟨by simpa using hne, by simp⟩
    · cases h

/-- A request for statuses fails for the length of its wait exactly if the two times add up to more
than 64 bits hold, and then at once. No configuration that a command starts with is like that,
whatever the file of settings, the environment and the command line say. -/
theorem never_waits_too_long :
    (∀ {σ : Type} (node : Rest.Node σ) (client : Rest.Client) (ids : List String)
        (wait : Option Nat) (s : Rest.Session σ),
      (((client.statuses node ids wait).run.run s).1 = .error .waitTooLong ↔
        UInt64.size ≤ client.timeoutSeconds + wait.getD 0) ∧
      (UInt64.size ≤ client.timeoutSeconds + wait.getD 0 →
        (client.statuses node ids wait).run.run s = (.error .waitTooLong, s))) ∧
    Rest.Fault.waitTooLong.message = "overflow when adding durations" ∧
    ∀ (invocation : Invocation) (around : Surroundings) (config : Config),
      invocation.configuration around = .ok config →
      config.problems = [] ∧
      (∃ client, RegistryClient.ofConfig config = .ok client ∧
        client.rest.timeoutSeconds + client.statusWaitSeconds < UInt64.size) ∧
      ∀ {σ : Type} (node : Rest.Node σ) (start : σ) (command : Command) (failure : Failure),
        command.run node start around config = .error failure →
        failure ≠ .node .waitTooLong ∧ failure ≠ .registry .waitTooLong := by
  refine ⟨fun node client ids wait s => ⟨⟨fun h => ?_, fun h => ?_⟩, fun h => ?_⟩, rfl,
    fun invocation around config h => ?_⟩
  · by_contra hlt
    exact Rest.Client.waitsFit_statuses (Nat.lt_of_not_le hlt) s h
  · rw [Rest.Client.run_statuses_of_le h]
  · exact Rest.Client.run_statuses_of_le h s
  · have hproblems := Invocation.problems_configuration h
    have hshort := Invocation.waitsAreShort_configuration h
    obtain ⟨client, hclient, hwaits⟩ := RegistryClient.exists_ofConfig_waits hproblems hshort
    exact ⟨hproblems, ⟨client, hclient, hwaits⟩, fun node start command failure =>
      run_ne_tooLong hproblems hshort node start around command⟩

/-- Even with the largest numbers that a file can hold. -/
theorem never_waits_too_long_largest :
    let settings := "[rest_api]\nrequest_timeout_secs = 9223372036854775807\n" ++
      "[polling]\nstatus_wait_secs = 9223372036854775807\n"
    ∃ config, Invocation.sample.configuration (.sample settings none) = .ok config ∧
      config.node.timeoutSeconds + config.polling.statusWaitSeconds = UInt64.size - 2 ∧
      ∀ failure, (Command.status []).run Rest.Node.unreachable () (.sample settings none) config =
        .error failure → failure ≠ .node .waitTooLong := by
  intro settings
  have hgiven : Config.ofToml? settings = some
      { node := { timeoutSeconds := 9223372036854775807 },
        polling := { statusWaitSeconds := 9223372036854775807 } } := by decide +kernel
  have hplain : Endpoint.isUsable "http://localhost:8008" = true :=
    Endpoint.isUsable_localhost (by decide +kernel)
  have hall : ∀ o ∈ Invocation.sample.overridden (.sample settings none),
      Endpoint.isUsable o = true := by
    rw [Invocation.overridden_sample hgiven]
    exact List.forall_mem_singleton.mpr hplain
  have hconfig : Invocation.sample.configuration (.sample settings none) = .ok
      { node := { timeoutSeconds := 9223372036854775807 },
        polling := { statusWaitSeconds := 9223372036854775807 } } :=
    (Invocation.configuration_of_url rfl hplain).mpr ⟨_, Invocation.given_sample hgiven,
      ⟨by decide, by decide, by decide, by decide⟩, hall, rfl⟩
  obtain ⟨-, -, hstarted⟩ := never_waits_too_long
  obtain ⟨-, -, hrun⟩ := hstarted _ _ _ hconfig
  exact ⟨_, hconfig, by decide, fun failure hfailure => (hrun _ _ _ failure hfailure).1⟩

end Command

end CertRegistry
