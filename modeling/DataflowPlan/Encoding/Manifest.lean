import DataflowPlan.Json.Record
import DataflowPlan.Manifest

/-!
The JSON form of digests and manifests.
-/

namespace DataflowPlan

open Json

namespace Digest

def toJson (d : Digest) : Value :=
  .array (d.bytes.map fun b => .natural b.toNat)

/-- Exactly 32 bytes. -/
def ofJson? (v : Value) : Option Digest :=
  ((v.list? Value.byte?).filter (·.length = 32)).map Digest.mk

end Digest

namespace Uuid

def toJson (id : Uuid) : Value := .text id.display

def ofJson? (v : Value) : Option Uuid := v.text?.bind Uuid.ofText?

end Uuid

namespace Manifest

def toJson (m : Manifest) : Value :=
  .object [
    ("id", m.id.toJson),
    ("job_id", .text m.jobId),
    ("plan_hash", m.planHash.toJson),
    ("engine_version", .text m.engineVersion),
    ("num_stages", .natural m.stages),
    ("num_increments", .natural m.increments),
    ("intermediate_sets_created", .natural m.setsCreated),
    ("started_ms", .natural m.startedMs),
    ("finished_ms", .natural m.finishedMs)]

def fieldNames : List String :=
  ["id", "job_id", "plan_hash", "engine_version", "num_stages", "num_increments",
   "intermediate_sets_created", "started_ms", "finished_ms"]

def ofJson? (v : Value) : Option Manifest :=
  match v.fields? fieldNames with
  | some [id, jobId, planHash, engineVersion, stages, increments, setsCreated, startedMs,
      finishedMs] => do
    let id ← id.required Uuid.ofJson?
    let jobId ← jobId.required Value.text?
    let planHash ← planHash.required Digest.ofJson?
    let engineVersion ← engineVersion.required Value.text?
    let stages ← stages.required Value.word?
    let increments ← increments.required Value.word?
    let setsCreated ← setsCreated.required Value.word?
    let startedMs ← startedMs.required Value.word?
    let finishedMs ← finishedMs.required Value.word?
    pure {
      id, jobId, planHash, engineVersion, stages, increments, setsCreated, startedMs, finishedMs
    }
  | _ => none

end Manifest

end DataflowPlan
