import CertRegistry.Endpoint
import CertRegistry.Ledger.Batching
import CertRegistry.Registry.Address
import CertRegistry.Text.Stored
import CertRegistry.Toml.Shape

/-!
# Configuration

Every setting has a default. A file of settings, a variable of the environment and the command
line each override what was there before, and the outcome is checked each time.
-/

namespace CertRegistry

/-- Where the node is and how long to wait for its answers. -/
structure NodeSettings where
  url : String := "http://localhost:8008"
  timeoutSeconds : Nat := 30
  deriving DecidableEq, Repr

/-- How to wait for the node and for its decisions. -/
structure PollingSettings where
  tries : Nat := 5
  backoffMillis : Nat := 2000
  statusWaitSeconds : Nat := 10
  deriving DecidableEq, Repr

structure LogSettings where
  level : String := "info"
  json : Bool := false
  deriving DecidableEq, Repr

structure Config where
  node : NodeSettings := {}
  polling : PollingSettings := {}
  family : Family := { name := familyName, version := familyVersion }
  log : LogSettings := {}
  deriving DecidableEq, Repr

namespace Config

/-- What is wrong with a configuration. -/
inductive Problem where
  | badUrl (endpoint : String) (problem : Endpoint.Problem)
  | zero (setting : String)
  | empty (setting : String)
  deriving DecidableEq, Repr

def Problem.message : Problem → String
  | badUrl endpoint problem => "rest_api.url is invalid: " ++ Endpoint.complaint endpoint problem
  | zero setting => setting ++ " must be greater than zero"
  | empty setting => setting ++ " must not be empty"

/-- Why there is no configuration. -/
inductive Fault where
  | unreadable (fault : ReadFault)
  | malformed
  | invalid (problems : List Problem)
  deriving DecidableEq, Repr

def Fault.message : Fault → String
  | unreadable fault => "IO error: " ++ fault.message
  | malformed => "Parse error"
  | invalid problems =>
    "Validation failed: " ++ String.intercalate ", " (problems.map (·.message))

open Toml in
def settings : List (Setting Config) :=
  let word : Nat := UInt64.size
  [ .group "rest_api" [
      .of "url" (·.text?) fun s v => { s with url := v },
      .of "request_timeout_secs" (·.natural? word) fun s v => { s with timeoutSeconds := v }]
      (·.node) fun c s => { c with node := s },
    .group "polling" [
      .of "availability_tries" (·.natural? UInt32.size) fun s v => { s with tries := v },
      .of "backoff_step_ms" (·.natural? word) fun s v => { s with backoffMillis := v },
      .of "status_wait_secs" (·.natural? word) fun s v => { s with statusWaitSeconds := v }]
      (·.polling) fun c s => { c with polling := s },
    .group "family" [
      .of "name" (·.text?) fun s v => { s with name := v },
      .of "version" (·.text?) fun s v => { s with version := v }]
      (·.family) fun c s => { c with family := s },
    .group "observability" [
      .of "log_level" (·.text?) fun s v => { s with level := v },
      .of "json" (·.bool?) fun s v => { s with json := v }]
      (·.log) fun c s => { c with log := s } ]

/-- The configuration that a text in TOML describes. -/
def ofToml? (text : String) : Option Config :=
  (Toml.parse? text).bind (Toml.Setting.readEntries? settings {})

/-- All that is wrong with a configuration. -/
def problems (config : Config) : List Problem :=
  (match Endpoint.base config.node.url with
    | .ok _ => []
    | .error problem => [Problem.badUrl config.node.url problem]) ++
  (if config.node.timeoutSeconds = 0 then [Problem.zero "rest_api.request_timeout_secs"] else []) ++
  (if config.polling.tries = 0 then [Problem.zero "polling.availability_tries"] else []) ++
  (if Text.trim config.family.name = "" then [Problem.empty "family.name"] else []) ++
  (if Text.trim config.family.version = "" then [Problem.empty "family.version"] else [])

/-- The configuration, if nothing is wrong with it. -/
def check (config : Config) : Except Fault Config :=
  match config.problems with
  | [] => .ok config
  | problems => .error (.invalid problems)

/-- The configuration in a file. -/
def load (content : FileContent) : Except Fault Config := do
  match content.text with
  | .error fault => throw (.unreadable fault)
  | .ok text =>
    match ofToml? text with
    | some config => config.check
    | none => throw .malformed

/-- The same configuration for another node. -/
def withUrl (config : Config) (url : String) : Config :=
  { config with node := { config.node with url } }

/-- The variable of the environment that may name the node. -/
def urlVariable : String := "CONSENSOURCE_REST_URL"

/-- The configuration with the node that a variable of the environment names. A value that is
not UTF-8 counts as unset; the configuration is checked in any case. -/
def override (config : Config) (variableValue : Option Bytes) : Except Fault Config :=
  match variableValue.bind Bytes.text? with
  | some url => (config.withUrl url).check
  | none => config.check

end Config

end CertRegistry
