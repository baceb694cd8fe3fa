import CertRegistry.Log.Directive

/-!
# Log filters

A filter is a text of directives, separated by commas. Of the directives that apply to a target the
most exact one decides what passes.
-/

namespace CertRegistry.Log

/-- A filter: its directives, in their order. -/
abbrev Filter := List Directive

namespace Filter

/-- The parts of a text between commas, empty ones apart. -/
def parts (text : String) : List String :=
  ((text.toList.splitOn ',').filter (· ≠ [])).map String.ofList

/-- Reads a filter of which every directive has to be readable. -/
def parse? (text : String) : Option Filter := (parts text).mapM Directive.parse?

/-- Reads what can be read of a filter. If that is nothing, errors of all targets pass. -/
def parseLenient (text : String) : Filter :=
  match (parts text).filterMap Directive.parse? with
  | [] => [{ bound := Level.error.rank }]
  | directives => directives

/-- The target of the messages of this library. -/
def ownTarget : String := "consensource_client"

/-- The filter for a configured level. -/
def ofLevel (level : String) : Filter := parseLenient (ownTarget ++ "=" ++ level)

/-- The filter in effect: the one in the environment, if it is readable, or the configured one. -/
def select (environment : Option String) (level : String) : Filter :=
  (environment.bind parse?).getD (ofLevel level)

/-- The directive that decides about a target; of equally exact ones the last. -/
def deciding? (filter : Filter) (target : String) : Option Directive :=
  (filter.filter (·.appliesTo target)).foldl (fun best d =>
    match best with
    | some b => if b.isAtMost d then some d else some b
    | none => some d) none

/-- Whether messages of a target pass at a level. -/
def passes (filter : Filter) (target : String) (level : Level) : Bool :=
  match filter.deciding? target with
  | some d => level.rank ≤ d.bound
  | none => false

end Filter

end CertRegistry.Log
