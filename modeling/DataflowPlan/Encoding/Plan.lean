import DataflowPlan.Digest
import DataflowPlan.Encoding.Stage
import DataflowPlan.Json.Printer
import DataflowPlan.Json.Reader
import DataflowPlan.Plan

/-!
The JSON form of plans, their texts, and the digest that tells plans apart.
-/

namespace DataflowPlan

open Json

def stagesToJson (stages : List Stage) : Value :=
  .array (stages.map Stage.toJson)

/-- The digest of a sequence of stages: that of its compact text. -/
def stagesHash (stages : List Stage) : Digest :=
  .ofText (stagesToJson stages).compactText

namespace Increment

def fieldNames : List String :=
  ["stages", "intermediate_sets"]

def ofJson? (v : Value) : Option Increment :=
  match v.fields? fieldNames with
  | some [stages, intermediateSets] => do
    let stages ← stages.required (Value.list? (Stage.ofJsonUnder? 2))
    let intermediateSets ← intermediateSets.required (Value.list? SetId.ofJson?)
    pure ⟨stages, intermediateSets⟩
  | _ => none

end Increment

namespace Plan

def toJson (p : Plan) : Value :=
  .object [
    ("job_id", .text p.jobId),
    ("stages", stagesToJson p.stages),
    ("intermediate_sets", .array (p.intermediateSets.map SetId.toJson))]

def fieldNames : List String :=
  ["job_id", "stages", "intermediate_sets"]

def ofJson? (v : Value) : Option Plan :=
  match v.fields? fieldNames with
  | some [jobId, stages, intermediateSets] => do
    let jobId ← jobId.required Value.text?
    let stages ← stages.required (Value.list? (Stage.ofJsonUnder? 2))
    let intermediateSets ← intermediateSets.required (Value.list? SetId.ofJson?)
    pure ⟨jobId, stages, intermediateSets⟩
  | _ => none

/-- The digest of the plan's stages. -/
def fingerprint (p : Plan) : Digest := stagesHash p.stages

/-- The plan's compact text. -/
def render (p : Plan) : String := p.toJson.compactText

/-- The plan that a text writes. -/
def parse? (text : String) : Option Plan :=
  (Value.ofText? text).bind ofJson?

end Plan

end DataflowPlan
