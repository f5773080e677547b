/-! The commands and their help. -/

namespace Roster.Command

/-- What help is about: the program, or one of its commands. -/
inductive Topic where
  | program
  | run
  | profile
  | inspect
deriving DecidableEq, Repr

namespace Topic

def version : String := "0.1.0"

/-- How the topic is called. -/
def call : Topic → String
  | program => "main"
  | run => "main run"
  | profile => "main profile"
  | inspect => "main show"

/-- How the topic is used, behind its name. -/
def arguments : Topic → String
  | program => "[OPTIONS] COMMAND [ARGS]..."
  | run => "[OPTIONS]"
  | profile => "[OPTIONS]"
  | inspect => "[OPTIONS] INTERFACE"

def usage (topic : Topic) : String :=
  "Usage: " ++ topic.call ++ " " ++ topic.arguments

def hint (topic : Topic) : String :=
  "Try '" ++ topic.call ++ " --help' for help."

/-- What the topic is for, and its options. -/
def description : Topic → List String
  | program => [
      "  Discover PHP classes implementing target interfaces and cache the result.",
      "",
      "Options:",
      "  --version  Show the version and exit.",
      "  --help     Show this message and exit.",
      "",
      "Commands:",
      "  profile  Show the detected host resource profile.",
      "  run      Scan the project and write one cache artifact per interface.",
      "  show     Print the cached implementors of INTERFACE."]
  | run => [
      "  Scan the project and write one cache artifact per interface.",
      "",
      "Options:",
      "  --base-path DIRECTORY           [default: .]",
      "  --app-path DIRECTORY            Defaults to <base-path>/app",
      "  --cache-path DIRECTORY          Defaults to <base-",
      "                                  path>/bootstrap/cache/discovery",
      "  -i, --interface TEXT            Target interface (repeatable)",
      "  --vendor TEXT                   Vendor package to scan (repeatable)",
      "  --all-vendors                   Scan the whole vendor directory",
      "  --format [php|json]             [default: php]",
      "  --batch-size INTEGER RANGE      Override the detected batch size  [x>=1]",
      "  --progressive / --no-progressive",
      "                                  Force progressive scanning",
      "  --memory-limit TEXT             Memory ceiling used for sizing, e.g. 512M",
      "  -v, --verbose                   Enable debug logging",
      "  --help                          Show this message and exit."]
  | profile => [
      "  Show the detected host resource profile.",
      "",
      "Options:",
      "  --memory-limit TEXT  Memory ceiling used for sizing, e.g. 512M",
      "  --help               Show this message and exit."]
  | inspect => [
      "  Print the cached implementors of INTERFACE.",
      "",
      "Options:",
      "  --cache-path DIRECTORY  [required]",
      "  --format [php|json]     [default: php]",
      "  --help                  Show this message and exit."]

/-- The lines of the topic's help. -/
def help (topic : Topic) : List String :=
  [topic.usage, ""] ++ topic.description

end Topic

end Roster.Command
