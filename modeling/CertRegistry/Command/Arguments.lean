import CertRegistry.Text.Digits

/-!
# Command lines

Options for all commands stand before the name of the command, those of the command and its
operands after it. Every option takes a value and may be given once. The first thing that is
wrong, or the first request for help, ends the reading.
-/

namespace CertRegistry

inductive Command where
  | keygen (output : Option String)
  | wait (tries : Option Nat)
  | createAgent (name : String) (timestamp : Option UInt64) (keyFile : Option String)
  | agent (publicKey : String)
  | agents
  | status (batchIds : List String)
  deriving DecidableEq, Repr

/-- The commands by name, for a reader who asks for help. -/
inductive Topic where
  | all
  | keygen
  | wait
  | createAgent
  | agent
  | agents
  | status
  | help
  deriving DecidableEq, Repr

/-- Why a command line names nothing to be done. -/
inductive Usage where
  | wrong
  | help (topic : Topic)
  deriving DecidableEq, Repr

structure Invocation where
  config : Option String := none
  url : Option String := none
  command : Command
  deriving DecidableEq, Repr

namespace Command

/-- What an option accepts. -/
inductive Kind where
  | any
  /-- The path of a file, which cannot be empty. -/
  | path
  /-- A whole number that fits 32 bits; an attached one may have a minus sign before zero. -/
  | word32
  | word64
  deriving DecidableEq, Repr

structure Flag where
  name : String
  letter : Char
  kind : Kind
  deriving DecidableEq, Repr

/-- What is read from the words of one command. -/
structure Words where
  values : List (String × String) := []
  /-- An option whose value, a word of its own, has been read last and not been looked at. -/
  pending : Option (Flag × String) := none
  operands : List String := []
  deriving DecidableEq, Repr

/-- The value of a number that may have a sign. -/
def signed? (bound : Nat) (text : String) : Option Nat :=
  match text.toList with
  | '-' :: digits => (Text.digitsValue? digits).filter (· = 0)
  | _ => Text.natural? bound text

def Kind.accepts (kind : Kind) (value : String) : Bool :=
  match kind with
  | any => true
  | path => value ≠ ""
  | word32 => (signed? UInt32.size value).isSome
  | word64 => (Text.natural? UInt64.size value).isSome

/-- Whether a word has to be an option. -/
def looksLikeOption (word : List Char) : Bool :=
  match word with
  | '-' :: _ :: _ => true
  | _ => false

/-- The option that a word names, and the value attached to it. -/
def option? (flags : List Flag) (word : List Char) : Option (Flag × Option String) :=
  match word with
  | '-' :: '-' :: rest =>
    let (name, value) := rest.span (· ≠ '=')
    (flags.find? (·.name = String.ofList name)).map fun flag =>
      (flag, match value with
        | _ :: value => some (String.ofList value)
        | [] => none)
  | '-' :: letter :: rest =>
    (flags.find? (·.letter = letter)).map fun flag =>
      (flag, match rest with
        | [] => none
        | '=' :: value => some (String.ofList value)
        | value => some (String.ofList value))
  | _ => none

/-- Whether a word asks for help. -/
def asksForHelp (word : List Char) : Bool :=
  match word with
  | '-' :: '-' :: rest => rest = "help".toList
  | '-' :: 'h' :: _ => true
  | _ => false

/-- Takes note of the value of an option. -/
def record (flag : Flag) (value : String) (words : Words) : Except Usage Words :=
  if (words.values.lookup flag.name).isSome ∨ ¬ flag.kind.accepts value then .error .wrong
  else .ok { words with values := words.values ++ [(flag.name, value)] }

/-- Takes note of the option that was read last. -/
def settle (words : Words) : Except Usage Words :=
  match words.pending with
  | some (flag, value) => record flag value { words with pending := none }
  | none => .ok words

/-- Reads options until an operand comes. What is left starts with the operand. The value of the
last option is looked at only by those who read on. -/
def readOptions (topic : Topic) (flags : List Flag) :
    Words → List String → Except Usage (Words × List String)
  | words, [] => .ok (words, [])
  | words, word :: rest =>
    let cs := word.toList
    if cs = ['-', '-'] ∨ ¬ looksLikeOption cs then .ok (words, word :: rest)
    else
      match settle words with
      | .error usage => .error usage
      | .ok words =>
        if asksForHelp cs then .error (.help topic)
        else
          match option? flags cs, rest with
          | some (flag, some value), rest =>
            match record flag value words with
            | .error usage => .error usage
            | .ok words => readOptions topic flags words rest
          | some (flag, none), value :: rest =>
            if looksLikeOption value.toList then .error .wrong
            else readOptions topic flags { words with pending := some (flag, value) } rest
          | _, _ => .error .wrong

/-- Reads the options and operands of a command, of which there are at most so many words.
After two hyphens all words are operands. -/
def readWords (topic : Topic) (flags : List Flag) (most : Option Nat) :
    Nat → Words → List String → Except Usage Words
  | 0, words, _ => .ok words
  | count + 1, words, all => do
    let (words, rest) ← readOptions topic flags words all
    let words ← settle words
    let fits (operands : List String) : Bool := match most with
      | some n => operands.length ≤ n
      | none => true
    match rest with
    | [] => return words
    | "--" :: rest =>
      let operands := words.operands ++ rest
      if fits operands then return { words with operands } else throw .wrong
    | operand :: rest =>
      let operands := words.operands ++ [operand]
      if fits operands then readWords topic flags most count { words with operands } rest
      else throw .wrong

/-- What a command takes: its options, and how many operands it takes at most. -/
def flagsOf : Topic → List Flag
  | .all => [⟨"config", 'c', .path⟩, ⟨"url", 'u', .any⟩]
  | .keygen => [⟨"output", 'o', .path⟩]
  | .wait => [⟨"tries", 't', .word32⟩]
  | .createAgent => [⟨"name", 'n', .any⟩, ⟨"timestamp", 't', .word64⟩, ⟨"key-file", 'k', .path⟩]
  | .agent | .agents | .status | .help => []

def maxOperands : Topic → Option Nat
  | .agent => some 1
  | .status => none
  | _ => some 0

/-- The commands by the names they are called by. -/
def topics : List (String × Topic) :=
  [("keygen", .keygen), ("wait", .wait), ("create-agent", .createAgent), ("agent", .agent),
    ("agents", .agents), ("status", .status)]

/-- The command that words amount to. -/
def ofWords (topic : Topic) (words : Words) : Except Usage Command :=
  match topic, words.operands with
  | .keygen, _ => .ok (.keygen (words.values.lookup "output"))
  | .wait, _ => .ok (.wait ((words.values.lookup "tries").bind (signed? UInt32.size)))
  | .createAgent, _ =>
    match words.values.lookup "name" with
    | some name =>
      let timestamp := (words.values.lookup "timestamp").bind (Text.natural? UInt64.size)
      .ok (.createAgent name (timestamp.map UInt64.ofNat) (words.values.lookup "key-file"))
    | none => .error .wrong
  | .agent, [key] => .ok (.agent key)
  | .agents, _ => .ok .agents
  | .status, ids => if ids = [] then .error .wrong else .ok (.status ids)
  | _, _ => .error .wrong

/-- Reads the words after the name of a command. -/
def read (topic : Topic) (rest : List String) : Except Usage Command := do
  let words ← readWords topic (flagsOf topic) (maxOperands topic) (rest.length + 1) {} rest
  ofWords topic words

/-- What a request for help is about. -/
def helpTopic (rest : List String) : Usage :=
  match rest with
  | [] => .help .all
  | ["help"] => .help .help
  | [name] => ((topics.lookup name).map Usage.help).getD .wrong
  | _ => .wrong

end Command

/-- Reads a command line. A request for help on a command comes before the last of the options
that stand before that command. -/
def Invocation.parse (arguments : List String) : Except Usage Invocation := do
  let (words, rest) ← Command.readOptions .all (Command.flagsOf .all) {} arguments
  match rest with
  | [] => throw .wrong
  | "help" :: rest => throw (Command.helpTopic rest)
  | name :: rest =>
    match Command.topics.lookup name with
    | some topic =>
      let command ← Command.read topic rest
      let words ← Command.settle words
      return { config := words.values.lookup "config", url := words.values.lookup "url", command }
    | none => throw .wrong

end CertRegistry
