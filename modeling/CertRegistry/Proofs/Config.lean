import CertRegistry.Command.Run
import CertRegistry.Proofs.Stages
import CertRegistry.Proofs.Url.Local

/-!
# Configurations that pass the check

What a configuration must be like for nothing to be wrong with it, and which configuration is in
effect: the one that was given, with the last of the texts that name the node. All of those texts
are looked at, also those that a later one replaces.
-/

namespace CertRegistry

/-- Whether an endpoint names a node. -/
def Endpoint.isUsable (endpoint : String) : Bool := (base endpoint).toOption.isSome

theorem Endpoint.isUsable_iff {endpoint : String} :
    isUsable endpoint = true ↔ ∃ text, base endpoint = .ok text := by
  simp only [isUsable, Option.isSome_iff_exists, toOption_eq_some]

/-- The same endpoint with and without the part that says how to speak to it. -/
theorem Endpoint.isUsable_localhost {endpoint : String}
    (h : candidate endpoint = "http://localhost:8008") : isUsable endpoint = true := by
  obtain ⟨url, hparse, hhost⟩ := Url.parse_localhost
  rw [isUsable_iff]
  unfold base
  rw [h, hparse]
  simp only [Url.hostText, hhost]
  exact ⟨_, rfl⟩

namespace Config

/-- What has to hold of the settings that do not name the node. -/
structure IsSound (config : Config) : Prop where
  timeout : config.node.timeoutSeconds ≠ 0
  tries : config.polling.tries ≠ 0
  name : Text.trim config.family.name ≠ ""
  version : Text.trim config.family.version ≠ ""

variable {config : Config}

theorem problems_eq_nil :
    config.problems = [] ↔ Endpoint.isUsable config.node.url = true ∧ config.IsSound := by
  have hsound : config.IsSound ↔ config.node.timeoutSeconds ≠ 0 ∧ config.polling.tries ≠ 0 ∧
      Text.trim config.family.name ≠ "" ∧ Text.trim config.family.version ≠ "" :=
    ⟨fun h => ⟨h.timeout, h.tries, h.name, h.version⟩, fun ⟨h₁, h₂, h₃, h₄⟩ => ⟨h₁, h₂, h₃, h₄⟩⟩
  cases hbase : Endpoint.base config.node.url with
  | ok text =>
    simp only [hsound, problems, Endpoint.isUsable, hbase, Except.toOption, List.append_eq_nil_iff,
      ite_eq_right_iff, reduceCtorEq, imp_false, Option.isSome_some, true_and, and_assoc]
  | error problem =>
    simp only [problems, Endpoint.isUsable, hbase, Except.toOption, List.append_eq_nil_iff,
      reduceCtorEq, Option.isSome_none, false_and]

theorem check_eq_ok {checked : Config} :
    config.check = .ok checked ↔
      Endpoint.isUsable config.node.url = true ∧ config.IsSound ∧ checked = config := by
  rw [← and_assoc, ← problems_eq_nil]
  unfold check
  cases config.problems with
  | nil => simp only [Except.ok.injEq, true_and, eq_comm]
  | cons problem problems => simp only [reduceCtorEq, false_and]

theorem bind_check (h : config.check = .ok config) (next : Config → Except Fault Config) :
    ((.ok config : Except Fault Config) >>= fun given => given.check >>= next) = next config := by
  simp only [bind, Except.bind, h]

@[simp]
theorem node_url_withUrl (url : String) : (config.withUrl url).node.url = url := rfl

@[simp]
theorem withUrl_withUrl (first second : String) :
    (config.withUrl first).withUrl second = config.withUrl second := rfl

@[simp]
theorem isSound_withUrl {url : String} : (config.withUrl url).IsSound ↔ config.IsSound :=
  ⟨fun ⟨timeout, tries, name, version⟩ => ⟨timeout, tries, name, version⟩,
    fun ⟨timeout, tries, name, version⟩ => ⟨timeout, tries, name, version⟩⟩

/-- The check tells two usable endpoints apart only by what it returns. -/
theorem check_withUrl {url : String} (hgiven : Endpoint.isUsable config.node.url = true)
    (h : Endpoint.isUsable url = true) :
    (config.withUrl url).check = config.check.map (·.withUrl url) := by
  obtain ⟨_, hgiven⟩ := Endpoint.isUsable_iff.mp hgiven
  obtain ⟨_, h⟩ := Endpoint.isUsable_iff.mp h
  have hproblems : (config.withUrl url).problems = config.problems := by
    simp only [problems, withUrl, hgiven, h]
    rfl
  unfold check
  rw [hproblems]
  cases config.problems with
  | nil => rfl
  | cons problem problems => rfl

/-- The configuration in a file, whatever is wrong with it. -/
def read (content : FileContent) : Except Fault Config := do
  let text ← content.text.mapError .unreadable
  match ofToml? text with
  | some config => return config
  | none => throw .malformed

theorem load_eq (content : FileContent) : load content = read content >>= check := by
  unfold load read
  cases content.text with
  | error fault => rfl
  | ok text =>
    cases h : ofToml? text with
    | none => simp only [h, mapError_ok, bind, Except.bind, throw, throwThe, MonadExceptOf.throw]
    | some config => simp only [h, mapError_ok, bind, Except.bind, pure, Except.pure]

theorem override_eq (value : Option Bytes) :
    config.override value =
      (config.withUrl ((value.bind Bytes.text?).getD config.node.url)).check := by
  unfold override
  cases value.bind Bytes.text? with
  | none => rfl
  | some url => rfl

end Config

theorem Config.check_default : ({} : Config).check = .ok {} := by
  have hcandidate : Endpoint.candidate ({} : Config).node.url = "http://localhost:8008" := by
    decide +kernel
  have husable : Endpoint.isUsable ({} : Config).node.url = true :=
    Endpoint.isUsable_localhost hcandidate
  have hsound : ({} : Config).IsSound := ⟨by decide, by decide, by decide, by decide⟩
  exact check_eq_ok.mpr ⟨husable, hsound, rfl⟩

/-- The endpoint that the variable of the environment names. -/
def Surroundings.endpoint? (around : Surroundings) : Option String :=
  around.urlVariable.bind Bytes.text?

namespace Invocation

variable (invocation : Invocation) (around : Surroundings)

/-- The configuration that a command line starts from: that of the file it names, or else the
defaults. -/
def given : Except Config.Fault Config :=
  match invocation.config with
  | some path => Config.read (around.file path)
  | none => .ok {}

/-- The endpoints that may be named besides that of the configuration a command line starts from,
the stronger one last. -/
def endpoints : List String := around.endpoint?.toList ++ invocation.url.toList

theorem configuration_eq : invocation.configuration around = do
    let given ← invocation.given around
    let checked ← given.check
    let checked ← (checked.withUrl (around.endpoint?.getD checked.node.url)).check
    match invocation.url with
    | some url => (checked.withUrl url).check
    | none => return checked := by
  unfold configuration given
  simp only [Config.override_eq, Surroundings.endpoint?]
  cases invocation.config with
  | none =>
    cases invocation.url with
    | none => simp only [pure_bind, Config.bind_check Config.check_default]
    | some url => simp only [pure_bind, Config.bind_check Config.check_default]
  | some path =>
    cases invocation.url with
    | none => simp only [Config.load_eq, bind_assoc]
    | some url => simp only [Config.load_eq, bind_assoc]

variable {invocation around}

/-- A command starts if every endpoint that is named is usable; the last one is in effect. -/
theorem configuration_eq_ok {config : Config} :
    invocation.configuration around = .ok config ↔ ∃ given,
      invocation.given around = .ok given ∧ given.IsSound ∧
      (∀ url ∈ given.node.url :: invocation.endpoints around, Endpoint.isUsable url = true) ∧
      config = given.withUrl
        (invocation.url.getD (around.endpoint?.getD given.node.url)) := by
  rw [configuration_eq, bind_eq_ok]
  refine exists_congr fun given => and_congr_right fun _ => ?_
  simp only [bind_eq_ok, Config.check_eq_ok, endpoints, List.forall_mem_cons,
    List.forall_mem_append, Option.mem_toList]
  constructor
  · rintro ⟨_, ⟨hgiven, hsound, rfl⟩, _, ⟨hvariable, -, rfl⟩, hlast⟩
    have hvariable' : ∀ url ∈ around.endpoint?, Endpoint.isUsable url = true := by
      intro url hurl
      rw [Option.mem_def] at hurl
      simpa only [hurl, Option.getD_some, Config.node_url_withUrl] using hvariable
    cases hurl : invocation.url with
    | none =>
      rw [hurl] at hlast
      cases hlast
      exact ⟨hsound, ⟨hgiven, hvariable', by simp⟩, rfl⟩
    | some url =>
      rw [hurl] at hlast
      obtain ⟨husable, -, rfl⟩ := Config.check_eq_ok.mp hlast
      exact ⟨hsound, ⟨hgiven, hvariable', by simpa using husable⟩, rfl⟩
  · rintro ⟨hsound, ⟨hgiven, hvariable, hurl⟩, rfl⟩
    refine ⟨given, ⟨hgiven, hsound, rfl⟩, _, ⟨?_, Config.isSound_withUrl.mpr hsound, rfl⟩, ?_⟩
    · cases hendpoint : around.endpoint? with
      | none => exact hgiven
      | some url => exact hvariable url hendpoint
    · cases hlast : invocation.url with
      | none => rfl
      | some url =>
        refine Config.check_eq_ok.mpr ⟨hurl url hlast, ?_, rfl⟩
        rwa [Config.withUrl_withUrl, Config.isSound_withUrl]

end Invocation

end CertRegistry
