import CertRegistry.Text.Blank
import CertRegistry.Url.Parse

/-!
# Endpoints

Where a node is found, as people write it: a URL, or only a host and perhaps a port. Addresses of
resources are made by adding to the base that belongs to an endpoint.
-/

namespace CertRegistry

namespace Endpoint

/-- Why an endpoint cannot be used. -/
inductive Problem where
  | notUrl (fault : Url.Fault)
  | noHost
  deriving DecidableEq, Repr

def Problem.reason : Problem → String
  | notUrl fault => fault.message
  | noHost => "missing host"

/-- Whether the text has a scheme and slashes somewhere. -/
def hasScheme (cs : List Char) : Bool :=
  match cs with
  | ':' :: '/' :: '/' :: _ => true
  | _ :: rest => hasScheme rest
  | [] => false

/-- The endpoint as a URL; a plain one is for HTTP. -/
def candidate (endpoint : String) : String :=
  let text := Text.trim endpoint
  if hasScheme text.toList then text else "http://" ++ text

/-- The base that resources of the node at an endpoint are named by: the endpoint as a URL,
without slashes at the end. -/
def base (endpoint : String) : Except Problem String :=
  match Url.parse (candidate endpoint) with
  | .error fault => .error (.notUrl fault)
  | .ok url =>
    if url.hostText = [] then .error .noHost
    else .ok (String.ofList (Text.dropEndWhile (· = '/') (candidate endpoint).toList))

/-- What is said of an endpoint that cannot be used. -/
def complaint (endpoint : String) (problem : Problem) : String :=
  "Invalid REST API URL '" ++ endpoint ++ "': " ++ problem.reason

end Endpoint

end CertRegistry
