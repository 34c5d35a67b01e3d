/-!
Help: what the program says about itself and about each of its commands.
-/

namespace DataflowPlan

/-- What help is about. -/
inductive HelpTopic
  | program
  | validate
  | explain
  | simulate
deriving DecidableEq

/-- A name and what it is for. -/
structure HelpEntry where
  name : String
  text : String

namespace HelpEntry

/-- The entry with its text in a column of its own. -/
def beside (column : Nat) (e : HelpEntry) : String :=
  "  " ++ e.name ++ String.ofList (List.replicate (column - e.name.length) ' ') ++ "  " ++ e.text

/-- The entry with its text in the next line. -/
def above (e : HelpEntry) : String :=
  "  " ++ e.name ++ "\n          " ++ e.text

def longest (entries : List HelpEntry) : Nat :=
  entries.foldl (fun n e => max n e.name.length) 0

/-- The columns of a line. -/
def width : Nat := 100

/-- Names that take up more than a part of the line leave too little for some text. -/
def areCrowded (entries : List HelpEntry) : Bool :=
  let taken := longest entries + 12
  40 < taken && entries.any fun e => width < taken + e.text.length

/-- One entry after the other. -/
def render (entries : List HelpEntry) : String :=
  let line := if areCrowded entries then above else beside (longest entries)
  "\n".intercalate (entries.map line)

end HelpEntry

namespace HelpTopic

/-- The options that change settings. -/
def overriding : List HelpEntry :=
  [⟨"    --join-threshold <JOIN_THRESHOLD>",
      "Broadcast/hash-partition join threshold, in MB (overrides config)"⟩,
   ⟨"    --page-size <PAGE_SIZE>", "Intermediate set page size in bytes (overrides config)"⟩,
   ⟨"    --penalty <PENALTY>", "Penalty factor for refused sources (overrides config)"⟩]

/-- The options, apart from the one for help. -/
def options : HelpTopic → List HelpEntry
  | .program => []
  | .validate => [⟨"-j, --job <JOB>", "Path to the job YAML file"⟩]
  | .explain =>
    [⟨"-j, --job <JOB>", ""⟩, ⟨"    --json", "Print the plan as JSON"⟩] ++ overriding
  | .simulate =>
    [⟨"-j, --job <JOB>", ""⟩,
     ⟨"    --nodes <NODES>", "Number of simulated nodes [default: 2]"⟩,
     ⟨"    --cores <CORES>", "Cores per simulated node [default: 8]"⟩] ++ overriding

def summary : HelpTopic → String
  | .program => "Cost-based physical planner for dataflow jobs"
  | .validate => "Check a job description for errors"
  | .explain => "Plan a job against the sizes in its `statistics:` section (EXPLAIN)"
  | .simulate => "Run a job on an in-process cluster, re-planning after every increment"

def usage : HelpTopic → String
  | .program => "stageplan <COMMAND>"
  | .validate => "stageplan validate --job <JOB>"
  | .explain => "stageplan explain [OPTIONS] --job <JOB>"
  | .simulate => "stageplan simulate [OPTIONS] --job <JOB>"

/-- The commands to choose from. -/
def commands : HelpTopic → List HelpEntry
  | .program =>
    [⟨"validate", summary .validate⟩, ⟨"explain", summary .explain⟩,
     ⟨"simulate", summary .simulate⟩,
     ⟨"help", "Print this message or the help of the given subcommand(s)"⟩]
  | .validate | .explain | .simulate => []

/-- A heading with its entries, if there are any. -/
def block (heading : String) : List HelpEntry → String
  | [] => ""
  | entries => heading ++ ":\n" ++ HelpEntry.render entries ++ "\n\n"

def text (topic : HelpTopic) : String :=
  let options := topic.options ++ [⟨"-h, --help", "Print help"⟩]
  topic.summary ++ "\n\n"
    ++ "Usage: " ++ topic.usage ++ "\n\n"
    ++ block "Commands" topic.commands
    ++ "Options:\n" ++ HelpEntry.render options ++ "\n"

end HelpTopic

end DataflowPlan
