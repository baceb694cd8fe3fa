import CertRegistry.Command.Arguments

/-!
# Help

What the command line answers to a request for help.
-/

namespace CertRegistry.Topic

/-- The name of the program. -/
def program : String := "consensource-client"

/-- What a command does. -/
def about : Topic → String
  | all => "Submit and inspect Consensource ledger transactions"
  | keygen => "Generate a new signing key"
  | wait => "Wait for the REST API to become available"
  | createAgent => "Register the signing key as an agent"
  | agent => "Show the agent with the given public key"
  | agents => "List all agents"
  | status => "Show batch statuses"
  | help => "Print this message or the help of the given subcommand(s)"

/-- How a command is called. -/
def usage : Topic → String
  | all => " [OPTIONS] <COMMAND>"
  | keygen => " keygen [OPTIONS]"
  | wait => " wait [OPTIONS]"
  | createAgent => " create-agent [OPTIONS] --name <NAME>"
  | agent => " agent <PUBLIC_KEY>"
  | agents => " agents"
  | status => " status <BATCH_IDS>..."
  | help => " help [COMMAND]..."

def operands : Topic → List (String × String)
  | agent => [("<PUBLIC_KEY>", "")]
  | status => [("<BATCH_IDS>...", "")]
  | help => [("[COMMAND]...", "Print help for the subcommand(s)")]
  | _ => []

/-- The options of a command with what they are for, other than that for help. -/
def ownOptions : Topic → List (String × String)
  | all => [("-c, --config <CONFIG>", "TOML configuration file"),
    ("-u, --url <URL>", "REST API URL (overrides config and CONSENSOURCE_REST_URL)")]
  | keygen => [("-o, --output <OUTPUT>", "Write the private key here instead of printing it")]
  | wait => [("-t, --tries <TRIES>", "")]
  | createAgent => [("-n, --name <NAME>", ""),
    ("-t, --timestamp <TIMESTAMP>", "Defaults to the current time"),
    ("-k, --key-file <KEY_FILE>", "Private key file (falls back to CONSENSOURCE_PRIVATE_KEY)")]
  | agent | agents | status | help => []

def options (topic : Topic) : List (String × String) :=
  if topic = help then [] else topic.ownOptions ++ [("-h, --help", "Print help")]

def commands : Topic → List (String × String)
  | all => (Command.topics ++ [("help", help)]).map fun (name, topic) => (name, topic.about)
  | _ => []

/-- Two columns under a title, or nothing if they are empty. -/
def table (title : String) (rows : List (String × String)) : String :=
  let width := (rows.map (·.1.length)).foldl max 0
  let line (row : String × String) : String :=
    "  " ++ row.1 ++ String.ofList (List.replicate (width - row.1.length) ' ') ++ "  " ++ row.2 ++
      "\n"
  if rows = [] then "" else "\n" ++ title ++ ":\n" ++ String.join (rows.map line)

/-- The answer to a request for help on a topic. -/
def page (topic : Topic) : String :=
  topic.about ++ "\n\nUsage: " ++ program ++ topic.usage ++ "\n" ++
    table "Commands" topic.commands ++ table "Arguments" topic.operands ++
    table "Options" topic.options

end CertRegistry.Topic
