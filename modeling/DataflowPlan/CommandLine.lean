import DataflowPlan.CommandLine.Help
import DataflowPlan.Plan.Explanation
import DataflowPlan.Simulation

/-!
The command line: a job is checked, its plan is explained, or it is run on a simulated cluster. The
environment gives the first settings, the job comes next, and options have the last word.
-/

namespace DataflowPlan

-----------------------------------------------------------------------------------------------
-- Options

/-- The values of options; each may be given once. -/
structure Options where
  job : Option String
  json : Bool
  nodes : Option Nat
  cores : Option Nat
  joinThreshold : Option Float
  pageSize : Option Nat
  penalty : Option Float
deriving DecidableEq

namespace Options

def empty : Options :=
  ⟨none, false, none, none, none, none, none⟩

/-- The value of an option, in the form it has to have, if the option had no value yet. -/
def once {α : Type} (old : Option α) (form : List Char → Option α) (value : List Char)
    : Option (Option α) :=
  match old with
  | some _ => none
  | none => (form value).map some

def set? (o : Options) (name : String) (value : List Char) : Option Options :=
  match name with
  | "job" => (once o.job (some <| String.ofList ·) value).map fun job => { o with job }
  | "nodes" => (once o.nodes Decimal.plusWord? value).map fun nodes => { o with nodes }
  | "cores" => (once o.cores Decimal.plusWord? value).map fun cores => { o with cores }
  | "join-threshold" =>
    (once o.joinThreshold Decimal.float? value).map fun joinThreshold => { o with joinThreshold }
  | "page-size" =>
    (once o.pageSize Decimal.plusWord? value).map fun pageSize => { o with pageSize }
  | "penalty" => (once o.penalty Decimal.float? value).map fun penalty => { o with penalty }
  | _ => none

/-- An option that stands alone. -/
def setFlag? (o : Options) (name : String) : Option Options :=
  if name == "json" && !o.json then some { o with json := true } else none

/-- One argument taken apart. -/
inductive Argument
  | flag (name : String)
  /-- A name and an equals sign with a value after it. -/
  | assigned (name : String) (value : List Char)
  /-- A name whose value is the next argument. -/
  | open (name : String)
  /-- Two hyphens alone: no option follows. -/
  | final
  | help
  | other

namespace Argument

/-- Options begin with two hyphens; the job's and that for help have a short form too. -/
def ofText (text : String) : Argument :=
  match text.toList with
  | ['-', '-'] => .final
  | '-' :: '-' :: rest =>
    let name := String.ofList (rest.takeWhile (· ≠ '='))
    match rest.dropWhile (· ≠ '=') with
    | _ :: value => .assigned name value
    | [] => if name == "json" then .flag name else if name == "help" then .help else .open name
  | '-' :: 'h' :: _ => .help
  | ['-', 'j'] => .open "job"
  | '-' :: 'j' :: '=' :: value => .assigned "job" value
  | '-' :: 'j' :: value => .assigned "job" value
  | _ => .other

/-- The argument may be the value of the option before it. -/
def isValue (text : String) : Bool :=
  match text.toList with
  | '-' :: _ :: _ => false
  | _ => true

end Argument

/-- What arguments ask for. -/
inductive Request
  | options (o : Options)
  | help

/-- What arguments ask for. Only the allowed options may be given; what comes after a request for
help does not count.
-/
def read (allowed : List String) : Options → List String → Option Request
  | o, [] => some (.options o)
  | o, text :: rest =>
    match Argument.ofText text, rest with
    | .final, [] => some (.options o)
    | .help, _ => some .help
    | .flag name, rest =>
      if allowed.contains name then (o.setFlag? name).bind (read allowed · rest) else none
    | .assigned name value, rest =>
      if allowed.contains name then (o.set? name value).bind (read allowed · rest) else none
    | .open name, value :: rest =>
      if allowed.contains name && Argument.isValue value then
        (o.set? name value.toList).bind (read allowed · rest)
      else none
    | _, _ => none

end Options

-----------------------------------------------------------------------------------------------
-- Commands

/-- Settings that count before those of the job. -/
structure Overrides where
  joinThreshold : Option Float
  pageSize : Option Nat
  penalty : Option Float
deriving DecidableEq

namespace Overrides

def empty : Overrides := ⟨none, none, none⟩

def ofOptions (o : Options) : Overrides :=
  ⟨o.joinThreshold, o.pageSize, o.penalty⟩

def apply (o : Overrides) (c : PlannerConfig) : PlannerConfig :=
  { c with
    joinThreshold := o.joinThreshold.getD c.joinThreshold
    pageSize := o.pageSize.getD c.pageSize
    penaltyFactor := o.penalty.getD c.penaltyFactor }

end Overrides

inductive Command
  | validate
  | explain (asJson : Bool) (overrides : Overrides)
  | simulate (nodes cores : Nat) (overrides : Overrides)
deriving DecidableEq

/-- What the program is asked for. -/
inductive Invocation
  /-- A command on the job in a file. -/
  | command (command : Command) (job : String)
  | help (topic : HelpTopic)
deriving DecidableEq

namespace Invocation

/-- The options that change settings. -/
def overriding : List String :=
  ["join-threshold", "page-size", "penalty"]

/-- A command's name is followed by options. -/
structure CommandForm where
  topic : HelpTopic
  allowed : List String
  make : Options → Command

def form? : String → Option CommandForm
  | "validate" => some ⟨.validate, ["job"], fun _ => .validate⟩
  | "explain" =>
    some ⟨.explain, "job" :: "json" :: overriding, fun o => .explain o.json (.ofOptions o)⟩
  | "simulate" =>
    some ⟨.simulate, "job" :: "nodes" :: "cores" :: overriding, fun o =>
      .simulate (o.nodes.getD 2) (o.cores.getD 8) (.ofOptions o)⟩
  | _ => none

/-- What arguments ask for, if they are all understood. -/
def ofArguments? : List String → Option Invocation
  | [] => none
  | name :: rest =>
    match Options.Argument.ofText name, form? name with
    | .help, _ => some (.help .program)
    | _, none => none
    | _, some form =>
      match Options.empty.read form.allowed rest with
      | none => none
      | some .help => some (.help form.topic)
      | some (.options o) => o.job.map (.command (form.make o))

end Invocation

-----------------------------------------------------------------------------------------------
-- Outcomes

/-- What a command leaves. -/
structure Outcome where
  code : Nat
  output : String
  errors : String
deriving DecidableEq

/-- Why a command fails. -/
inductive CommandFault
  | job (fault : JobFault)
  | planning (error : Error)
  | simulation (fault : SimulationFault)
deriving DecidableEq

def CommandFault.message : CommandFault → String
  | .job fault => fault.message
  | .planning error => error.message
  | .simulation fault => fault.message

namespace Command

/-- The job of a text, with its settings overridden. -/
def load (env : Environment) (overrides : Overrides) (text : String)
    : Except CommandFault Job := do
  let job ← (Job.ofText (.ofEnvironment env) text).mapError .job
  let config := overrides.apply job.config
  config.validate.mapError .planning
  pure { job with config }

/-- The text of a job's plan. -/
def explained (job : Job) (asJson : Bool) : Except Error String := do
  let plan ← planJob job.id job.graph job.config job.statistics
  plan.checkOrder
  pure (if asJson then plan.toJson.indentedText ++ "\n"
    else plan.explain ++ "fingerprint: " ++ plan.fingerprint.short ++ "\n")

/-- The text of a finished simulation. -/
def simulated (report : RunReport) : String :=
  "✓ Job simulated successfully\n"
    ++ "  Stages: " ++ toString report.stages ++ "\n"
    ++ "  Increments: " ++ toString report.increments ++ "\n"
    ++ "  Intermediate sets: " ++ toString report.setsCreated ++ "\n"
    ++ "  Plan hash: " ++ report.planHash.hex ++ "\n"

/-- What the command prints for the text of a job. -/
def output (command : Command) (env : Environment) (text : String)
    : Except CommandFault String :=
  match command with
  | .validate => do
    let _ ← load env .empty text
    pure "✓ Job is valid\n"
  | .explain asJson overrides => do
    let job ← load env overrides text
    (explained job asJson).mapError .planning
  | .simulate nodes cores overrides => do
    let job ← load env overrides text
    let report ← (job.simulate env nodes cores).mapError .simulation
    pure (simulated report)

/-- What errors of the command begin with. -/
def errorHead : Command → String
  | .validate => "Validation failed: "
  | .explain .. | .simulate .. => "Error: "

/-- Carries out the command. -/
def run (command : Command) (env : Environment) (text : String) : Outcome :=
  match command.output env text with
  | .ok output => ⟨0, output, ""⟩
  | .error fault => ⟨1, "", command.errorHead ++ fault.message ++ "\n"⟩

end Command

/-- Does what the program is asked for, with the text of the job. -/
def Invocation.run (invocation : Invocation) (env : Environment) (text : String) : Outcome :=
  match invocation with
  | .command c _ => c.run env text
  | .help topic => ⟨0, topic.text, ""⟩

end DataflowPlan
