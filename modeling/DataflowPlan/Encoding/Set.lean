import DataflowPlan.Json.Record
import DataflowPlan.SetId

/-!
The JSON form of sets.
-/

namespace DataflowPlan

namespace SetKind

def name : SetKind → String
  | .user => "UserSet"
  | .intermediate => "Intermediate"
  | .partitionedHash => "PartitionedHashSet"

def ofName? : String → Option SetKind
  | "UserSet" => some .user
  | "Intermediate" => some .intermediate
  | "PartitionedHashSet" => some .partitionedHash
  | _ => none

def ofJson? (v : Json.Value) : Option SetKind := v.constant?.bind ofName?

/-- The kind as it stands in a record with a tag. -/
def ofTagged? (v : Json.Value) : Option SetKind := v.taggedConstant?.bind ofName?

end SetKind

namespace SetId

open Json in
def toJson (s : SetId) : Value :=
  .object [
    ("database", .text s.database),
    ("set_name", .text s.name),
    ("page_size", .optional .natural s.pageSize),
    ("set_type", .text s.kind.name),
    ("is_aggregation_result", .boolean s.isAggregationResult)]

def fieldNames : List String :=
  ["database", "set_name", "page_size", "set_type", "is_aggregation_result"]

open Json in
/-- The set, with the decoder for its kind. -/
def ofFields? (kindOf? : Value → Option SetKind) (v : Value) : Option SetId :=
  match v.fields? fieldNames with
  | some [database, name, pageSize, kind, isAggregationResult] => do
    let database ← database.required Value.text?
    let name ← name.required Value.text?
    let pageSize ← pageSize.orElse none (Value.optional? Value.word?)
    let kind ← kind.orElse .user kindOf?
    let isAggregationResult ← isAggregationResult.orElse false Value.boolean?
    pure ⟨database, name, pageSize, kind, isAggregationResult⟩
  | _ => none

def ofJson? : Json.Value → Option SetId := ofFields? SetKind.ofJson?

/-- The set as it stands in a record with a tag. -/
def ofTagged? : Json.Value → Option SetId := ofFields? SetKind.ofTagged?

end SetId

end DataflowPlan
