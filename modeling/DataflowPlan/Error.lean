import DataflowPlan.Computation.Kind
import DataflowPlan.Decimal.Plain
import DataflowPlan.Identifier
import DataflowPlan.Stage.Kind
import DataflowPlan.Text.Quoted

/-!
What can be wrong with a configuration, a graph, a plan or a session, and the one wording of each.
-/

namespace DataflowPlan

/-- A setting that no planner or scheduler can work with. -/
inductive ConfigFault
  | emptyPage
  | threshold (value : Float)
  | penalty (value : Float)
  | noNodes
  | ratio (value : Float)
  /-- A key that names no setting; none for a key that is not a text. -/
  | unknownKey (key : Option String)
deriving DecidableEq

def ConfigFault.message : ConfigFault → String
  | .emptyPage => "page sizes must be non-zero"
  | .threshold value =>
    "broadcast join threshold must be positive, got " ++ Decimal.plainText value
  | .penalty value =>
    "source penalty factor must be at least 1, got " ++ Decimal.plainText value
  | .noNodes => "scheduler needs at least one node"
  | .ratio value =>
    "partition to core ratio must be positive, got " ++ Decimal.plainText value
  | .unknownKey key => "unknown config key " ++ Text.quoted (key.getD "<non-string>")

/-- A way in which a graph is not one that can be planned. -/
inductive GraphFault
  | producedTwice (output : String)
  | inputCount (output : String) (kind : AtomicKind) (count : Nat)
  | sameSides (output input : String)
  | noScan
  | cycle
  | scannedTwice (key : String)
deriving DecidableEq

def GraphFault.message : GraphFault → String
  | .producedTwice output => "tuple set '" ++ output ++ "' is produced twice"
  | .inputCount output kind count =>
    "'" ++ output ++ "' (" ++ kind.display ++ ") has " ++ toString count ++ " inputs"
  | .sameSides output input => "join '" ++ output ++ "' reads '" ++ input ++ "' on both sides"
  | .noScan => "graph has no scan"
  | .cycle => "computation graph has a cycle"
  | .scannedTwice key => "two scans read " ++ key

/-- A promise between the parts of the planner that does not hold. -/
inductive Violation
  | incomplete (stage : StageKind) (field : String)
  | notASource (output : String)
  | noActiveConsumer (output : String)
  | alreadyBuilt (hashSet : String)
  | outOfOrder (stage last : StageId)
  | unwritten (stage : StageId) (set : String)
  | unbuilt (stage : StageId) (hashSet : String)
  /-- A pipeline that is longer than the arena. -/
  | endless
deriving DecidableEq

def Violation.message : Violation → String
  | .incomplete stage field => stage.display ++ " built without " ++ field
  | .notASource output => output ++ " is not a source"
  | .noActiveConsumer output => output ++ " has no active consumer"
  | .alreadyBuilt hashSet => "join already built hash set " ++ hashSet
  | .outOfOrder stage last => "stage " ++ stage.display ++ " follows " ++ last.display
  | .unwritten stage set => stage.display ++ " reads " ++ set ++ " before it is written"
  | .unbuilt stage hashSet => stage.display ++ " probes " ++ hashSet ++ " before it is built"
  | .endless => "pipeline has no end"

/-- Why planning fails. -/
inductive Error
  | config (fault : ConfigFault)
  /-- A computation whose set no pipeline can start from. -/
  | unsupportedSource (computation : String) (kind : ComputationKind)
  /-- A computation that names no set for a pipeline to end in. -/
  | unsupportedSink (computation : String) (kind : ComputationKind)
  | unknownComputation (name : String)
  | unknownTupleSet (name : String)
  | graph (fault : GraphFault)
  /-- Every source kept refusing. -/
  | stalled (refusals : Nat) (sources : List String)
  | violation (broken : Violation)
deriving DecidableEq

def Error.message : Error → String
  | .config fault => "Invalid configuration: " ++ fault.message
  | .unsupportedSource computation kind =>
    "Unsupported source: computation '" ++ computation ++ "' of kind " ++ kind.display
      ++ " cannot be read as a source set"
  | .unsupportedSink computation kind =>
    "Unsupported sink: computation '" ++ computation ++ "' of kind " ++ kind.display
      ++ " cannot terminate a pipeline"
  | .unknownComputation name => "Unknown computation: " ++ name
  | .unknownTupleSet name => "Unknown tuple set: " ++ name
  | .graph fault => "Invalid computation graph: " ++ fault.message
  | .stalled refusals sources =>
    "Planning error: planning stalled: " ++ toString refusals
      ++ " consecutive refusals over sources " ++ Text.quotedList sources
  | .violation broken => "Internal invariant failed: " ++ broken.message

end DataflowPlan
