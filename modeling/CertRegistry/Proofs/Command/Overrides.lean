import CertRegistry.Proofs.Config
import CertRegistry.Proofs.Ledger.Sizes

/-!
# An endpoint on the command line

The endpoint that a command line names takes the place of every other one, but the others are
checked before it is looked at. As long as all of them are usable, nothing that a command does
depends on them.
-/

namespace CertRegistry

/-- The file that a command reads a key from. -/
def Command.keyFile? : Command → Option String
  | .createAgent _ _ keyFile => keyFile
  | _ => none

namespace Invocation

/-- The endpoints that one on the command line takes the place of. -/
def overridden (invocation : Invocation) (around : Surroundings) : List String :=
  ((invocation.given around).toOption.map (·.node.url)).toList ++ around.endpoint?.toList

/-- Surroundings in which a command line meets the same, apart from endpoints in the file of
settings and in the environment. -/
structure AgreeBut (invocation : Invocation) (around other : Surroundings) : Prop where
  given : (invocation.given around).map (·.withUrl "") =
    (invocation.given other).map (·.withUrl "")
  keyFile : ∀ path ∈ invocation.command.keyFile?, around.file path = other.file path
  unwritable : around.unwritable? = other.unwritable?
  keyVariable : around.keyVariable = other.keyVariable
  now : around.now = other.now
  freshKey : around.freshKey = other.freshKey
  freshNonce : around.freshNonce = other.freshNonce
  pages : around.pages = other.pages

variable {invocation : Invocation} {around other : Surroundings} {url : String}

theorem AgreeBut.given_withUrl (h : invocation.AgreeBut around other) (url : String) :
    (invocation.given around).map (·.withUrl url) =
      (invocation.given other).map (·.withUrl url) := by
  have hmap := congrArg (·.map (·.withUrl url)) h.given
  cases hgiven : invocation.given around with
  | error fault =>
    cases hother : invocation.given other with
    | error fault' => simpa [hgiven, hother, Except.map] using hmap
    | ok given => simp [hgiven, hother, Except.map] at hmap
  | ok given =>
    cases hother : invocation.given other with
    | error fault => simp [hgiven, hother, Except.map] at hmap
    | ok given' => simpa [hgiven, hother, Except.map] using hmap

/-- Usable endpoints that are replaced leave no trace. -/
theorem configuration_eq_of_usable (hurl : invocation.url = some url)
    (husable : Endpoint.isUsable url = true)
    (h : ∀ o ∈ invocation.overridden around, Endpoint.isUsable o = true) :
    invocation.configuration around =
      (invocation.given around).map (·.withUrl url) >>= Config.check := by
  rw [configuration_eq, hurl]
  simp only [overridden, List.forall_mem_append, Option.mem_toList] at h
  cases hgiven : invocation.given around with
  | error fault => simp only [Except.map, bind, Except.bind]
  | ok given =>
    have hfirst : Endpoint.isUsable given.node.url = true := by
      refine h.1 _ ?_
      rw [hgiven]
      rfl
    have hnamed : Endpoint.isUsable (around.endpoint?.getD given.node.url) = true := by
      cases hendpoint : around.endpoint? with
      | none => exact hfirst
      | some endpoint => exact h.2 endpoint hendpoint
    simp only [Except.map, bind, Except.bind]
    rw [Config.check_withUrl hfirst husable]
    cases hcheck : given.check with
    | error fault => simp only [Except.map]
    | ok checked =>
      obtain ⟨-, -, rfl⟩ := Config.check_eq_ok.mp hcheck
      simp only [Config.check_withUrl hfirst hnamed, hcheck, Except.map, Config.withUrl_withUrl,
        Config.check_withUrl hfirst husable]

theorem configuration_of_url {config : Config} (hurl : invocation.url = some url)
    (husable : Endpoint.isUsable url = true) :
    invocation.configuration around = .ok config ↔ ∃ given,
      invocation.given around = .ok given ∧ given.IsSound ∧
      (∀ o ∈ invocation.overridden around, Endpoint.isUsable o = true) ∧
      config = given.withUrl url := by
  rw [configuration_eq_ok]
  refine exists_congr fun given => and_congr_right fun hgiven => and_congr_right fun _ => ?_
  have hall : (∀ o ∈ given.node.url :: invocation.endpoints around,
      Endpoint.isUsable o = true) ↔
      ∀ o ∈ invocation.overridden around, Endpoint.isUsable o = true := by
    simp only [endpoints, overridden, hgiven, hurl, Except.toOption, Option.map_some,
      Option.toList_some, List.forall_mem_cons, List.forall_mem_append, husable,
      List.not_mem_nil, false_imp_iff, implies_true, and_true]
  rw [hall, hurl, Option.getD_some]

theorem configuration_congr (hurl : invocation.url = some url)
    (husable : Endpoint.isUsable url = true) (h : invocation.AgreeBut around other)
    (hall : ∀ o ∈ invocation.overridden around ++ invocation.overridden other,
      Endpoint.isUsable o = true) :
    invocation.configuration around = invocation.configuration other := by
  rw [List.forall_mem_append] at hall
  rw [configuration_eq_of_usable hurl husable hall.1,
    configuration_eq_of_usable hurl husable hall.2, h.given_withUrl]

/-- Once it has its configuration, a command does not look at the replaced endpoints again. -/
theorem AgreeBut.run_eq {σ : Type} (h : invocation.AgreeBut around other) (node : Rest.Node σ)
    (start : σ) (config : Config) :
    invocation.command.run node start around config =
      invocation.command.run node start other config := by
  cases hcommand : invocation.command with
  | keygen output => simp only [Command.run, Command.generate, h.freshKey, h.unwritable]
  | wait tries => rfl
  | createAgent name timestamp keyFile =>
    have hsigner : Command.signer around keyFile = Command.signer other keyFile := by
      unfold Command.signer
      cases hkey : keyFile with
      | none => simp only [h.keyVariable]
      | some path =>
        have hmem : path ∈ invocation.command.keyFile? := by
          rw [hcommand]
          exact hkey
        simp only [h.keyFile path hmem]
    simp only [Command.run, hsigner, h.freshNonce, h.now]
  | agent publicKey => simp only [Command.run, h.pages]
  | agents => simp only [Command.run, h.pages]
  | status batchIds => rfl

/-- The endpoint on the command line is the one in effect, and the others have no effect but that
all of them have to be usable. -/
theorem url_overrides {arguments : List String} (hparse : parse arguments = .ok invocation)
    (hurl : invocation.url = some url) (husable : Endpoint.isUsable url = true) :
    (∀ around config, invocation.configuration around = .ok config ↔
      ∃ given, invocation.given around = .ok given ∧ given.IsSound ∧
        (∀ o ∈ invocation.overridden around, Endpoint.isUsable o = true) ∧
        config = given.withUrl url) ∧
    ∀ {σ : Type} (node : Rest.Node σ) (start : σ) (around other : Surroundings),
      invocation.AgreeBut around other →
      (∀ o ∈ invocation.overridden around ++ invocation.overridden other,
        Endpoint.isUsable o = true) →
      Outcome.ofArguments node start around arguments =
        Outcome.ofArguments node start other arguments := by
  constructor
  · intro around config
    exact configuration_of_url hurl husable
  · intro σ node start around other h hall
    simp only [Outcome.ofArguments, hparse, configuration_congr hurl husable h hall, h.run_eq]

end Invocation

/-! ## Endpoints that are replaced are still checked -/

/-- A file of settings and a variable of the environment, and no key anywhere. -/
def Surroundings.sample (settings : String) (endpoint : Option String) : Surroundings where
  file := fun _ => .ok (Bytes.ofText settings)
  unwritable? := fun _ => none
  urlVariable := endpoint.map Bytes.ofText
  now := 0
  freshKey := .least
  freshNonce := List.replicate 16 0
  pages := 1

def Invocation.sample : Invocation where
  config := some "settings.toml"
  url := some "http://localhost:8008"
  command := .keygen none

theorem Invocation.parse_sample :
    parse ["--config", "settings.toml", "--url", "http://localhost:8008", "keygen"] =
      .ok .sample :=
  toOption_eq_some.mp (by decide +kernel)

namespace Invocation

variable {settings settings' : String} {given given' : Config} {endpoint endpoint' : Option String}

theorem given_sample (h : Config.ofToml? settings = some given) :
    Invocation.sample.given (.sample settings endpoint) = .ok given := by
  have htext : FileContent.text (.ok (Bytes.ofText settings)) = .ok settings := by
    simp only [FileContent.text, Bytes.text?_ofText]
  simp only [Invocation.given, sample, Surroundings.sample, Config.read, htext, mapError_ok, h,
    bind, Except.bind, pure, Except.pure]

theorem overridden_sample (h : Config.ofToml? settings = some given) :
    Invocation.sample.overridden (.sample settings endpoint) =
      given.node.url :: endpoint.toList := by
  have hendpoint : (Surroundings.sample settings endpoint).endpoint? = endpoint := by
    cases endpoint with
    | none => rfl
    | some text => exact Bytes.text?_ofText text
  rw [overridden, given_sample h, hendpoint]
  rfl

theorem agreeBut_sample (h : Config.ofToml? settings = some given)
    (h' : Config.ofToml? settings' = some given')
    (hurl : given.withUrl "" = given'.withUrl "") :
    Invocation.sample.AgreeBut (.sample settings endpoint) (.sample settings' endpoint') where
  given := by
    rw [given_sample h, given_sample h', Except.map, Except.map, hurl]
  keyFile := nofun
  unwritable := rfl
  keyVariable := rfl
  now := rfl
  freshKey := rfl
  freshNonce := rfl
  pages := rfl

/-- Settings that name another node, and a variable that names yet another, give way. -/
theorem url_overrides_sample :
    let arguments :=
      ["--config", "settings.toml", "--url", "http://localhost:8008", "keygen"]
    let around := Surroundings.sample "[rest_api]\nurl = \"localhost:8008\"\n"
      (some " localhost:8008 ")
    Invocation.sample.configuration around =
        .ok { node := { url := "http://localhost:8008" } } ∧
      ∀ {σ : Type} (node : Rest.Node σ) (start : σ),
        Outcome.ofArguments node start around arguments =
          Outcome.ofArguments node start (.sample "" none) arguments := by
  intro arguments around
  have hgiven : Config.ofToml? "[rest_api]\nurl = \"localhost:8008\"\n" =
      some { node := { url := "localhost:8008" } } := by decide +kernel
  have hdefault : Config.ofToml? "" = some {} := by decide +kernel
  have hplain : Endpoint.isUsable "http://localhost:8008" = true :=
    Endpoint.isUsable_localhost (by decide +kernel)
  have hbare : Endpoint.isUsable "localhost:8008" = true :=
    Endpoint.isUsable_localhost (by decide +kernel)
  have hblank : Endpoint.isUsable " localhost:8008 " = true :=
    Endpoint.isUsable_localhost (by decide +kernel)
  obtain ⟨hconfig, hsame⟩ := url_overrides parse_sample rfl hplain
  refine ⟨(hconfig _ _).mpr ⟨_, given_sample hgiven, ?_, ?_, rfl⟩, ?_⟩
  · exact ⟨by decide, by decide, by decide, by decide⟩
  · rw [overridden_sample hgiven]
    simp only [Option.toList_some, List.forall_mem_cons, hbare, hblank, List.not_mem_nil,
      false_imp_iff, implies_true, and_true]
  · intro σ node start
    refine hsame node start _ _ (agreeBut_sample hgiven hdefault rfl) ?_
    rw [overridden_sample hgiven, overridden_sample hdefault]
    simp only [Option.toList_some, Option.toList_none, List.cons_append, List.nil_append,
      List.forall_mem_cons, hbare, hblank, hplain, List.not_mem_nil, false_imp_iff, implies_true,
      and_true]

/-- A variable that names no node keeps a command from starting, also one that is told another
node. -/
theorem variable_stops_url :
    ¬ ∀ (arguments : List String) (invocation : Invocation) (url : String)
        (around other : Surroundings), parse arguments = .ok invocation →
      invocation.url = some url → Endpoint.isUsable url = true →
      invocation.AgreeBut around other →
      (∃ config, invocation.configuration around = .ok config) →
      ∃ config, invocation.configuration other = .ok config := by
  intro h
  have hdefault : Config.ofToml? "" = some {} := by decide +kernel
  have hplain : Endpoint.isUsable "http://localhost:8008" = true :=
    Endpoint.isUsable_localhost (by decide +kernel)
  have hnone : Endpoint.isUsable "http://" = false := by decide +kernel
  have hstart : ∃ config, Invocation.sample.configuration (.sample "" none) = .ok config := by
    refine ⟨{}, (configuration_of_url rfl hplain).mpr ⟨_, given_sample hdefault, ?_, ?_, rfl⟩⟩
    · exact ⟨by decide, by decide, by decide, by decide⟩
    · rw [overridden_sample hdefault]
      exact List.forall_mem_singleton.mpr hplain
  obtain ⟨config, hconfig⟩ := h _ _ _ _ (.sample "" (some "http://")) parse_sample rfl hplain
    (agreeBut_sample hdefault hdefault rfl) hstart
  obtain ⟨given, -, -, hall, -⟩ := (configuration_of_url rfl hplain).mp hconfig
  rw [overridden_sample hdefault] at hall
  have husable := hall "http://" (List.mem_cons_of_mem _ List.mem_cons_self)
  rw [hnone] at husable
  cases husable

end Invocation

end CertRegistry
