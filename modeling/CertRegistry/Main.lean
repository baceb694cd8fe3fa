import CertRegistry.Command.Run

/-!
# The program

Looks around as far as a command needs it, carries the command out and does what its outcome
says. No transport is linked in, so every node is out of reach.
-/

namespace CertRegistry

/-- How a fault of the file system reads. Its number may come with a minus sign. -/
def readFault (e : IO.Error) : ReadFault :=
  match e with
  | .permissionDenied .. => .denied
  | .inappropriateType _ code _ => if code = 20 ∨ code = 0 - 20 then .notDirectory else .isDirectory
  | .invalidArgument .. => .longName
  | _ => .missing

/-- The files that a command line names to be read. -/
def filesToRead (invocation : Invocation) : List String :=
  invocation.config.toList ++
    match invocation.command with
    | .createAgent _ _ keyFile => keyFile.toList
    | _ => []

def readFile (path : String) : IO (String × FileContent) := do
  try
    let content ← IO.FS.readBinFile path
    return (path, .ok content.data.toList)
  catch e => return (path, .error (readFault e))

/-- The current time in seconds, as the file system stamps a new file. -/
def currentTime : IO UInt64 := do
  let (_, path) ← IO.FS.createTempFile
  let stamp := (← path.metadata).modified.sec
  IO.FS.removeFile path
  return UInt64.ofNat stamp.toNat

/-- A key from random octets, with so many attempts at a number that can be one. -/
def drawKey : Nat → IO Signer
  | 0 => throw (IO.userError "no key could be drawn")
  | attempts + 1 => do
    let octets ← IO.getRandomBytes 32
    match Signer.ofBytes? octets.data.toList with
    | some signer => return signer
    | none => drawKey attempts

def lookAround (arguments : List String) : IO Surroundings := do
  let invocation := (Invocation.parse arguments).toOption
  let files ← ((invocation.map filesToRead).getD []).mapM readFile
  let nonce ← IO.getRandomBytes 16
  return {
    file := fun path => (files.lookup path).getD (.error .missing)
    unwritable? := fun _ => none
    urlVariable := (← IO.getEnv Config.urlVariable).map Bytes.ofText
    keyVariable := (← IO.getEnv privateKeyVariable).map Bytes.ofText
    now := ← currentTime
    freshKey := ← drawKey 64
    freshNonce := nonce.data.toList
    pages := 10000 }

/-- Writes the file of an outcome; why it cannot be written, if it cannot. -/
def writeFile (written : Option (String × String)) : IO (Option ReadFault) := do
  match written with
  | none => return none
  | some (path, content) =>
    try
      IO.FS.writeFile path content
      return none
    catch e => return some (readFault e)

end CertRegistry

open CertRegistry in
def main (arguments : List String) : IO UInt32 := do
  let around ← lookAround arguments
  let outcome := Outcome.ofArguments Rest.Node.unreachable () around arguments
  let outcome := match ← writeFile outcome.written with
    | some fault => Outcome.ofFailure (.unwritable fault)
    | none => outcome
  IO.print outcome.stdout
  IO.eprint outcome.stderr
  return UInt32.ofNat outcome.exitCode
