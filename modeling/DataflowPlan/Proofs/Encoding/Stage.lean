import DataflowPlan.Encoding.Stage
import DataflowPlan.Proofs.Encoding.Graph
import Mathlib.Tactic.MkIffOfInductiveProp

/-! The JSON form of sets and stages loses nothing: a stage of each kind is taken apart as it was
put together, with its tag among its fields and with sets in which fields may be left out.
-/

namespace DataflowPlan

open Json

namespace SetKind

@[simp]
theorem ofJson?_name (kind : SetKind) : ofJson? (.text kind.name) = some kind := by
  cases kind <;> rfl

@[simp]
theorem ofTagged?_name (kind : SetKind) : ofTagged? (.text kind.name) = some kind := by
  cases kind <;> rfl

end SetKind

namespace SetId

/-- The page size fits a word. -/
def FitsWords (s : SetId) : Prop :=
  ∀ n ∈ s.pageSize, n ≤ Decimal.maxWord

instance (s : SetId) : Decidable s.FitsWords :=
  inferInstanceAs (Decidable (∀ n ∈ s.pageSize, n ≤ Decimal.maxWord))

variable {s : SetId}

theorem ofFields?_toJson {kindOf? : Value → Option SetKind} (fits : s.FitsWords)
    (reads : kindOf? (.text s.kind.name) = some s.kind)
    : ofFields? kindOf? s.toJson = some s := by
  have pageSize := Value.optional?_natural fits
  rw [ofFields?, toJson, Value.fields?_object fieldNames (by decide +kernel) rfl]
  simp [pageSize, reads]

theorem ofJson?_toJson (fits : s.FitsWords) : ofJson? s.toJson = some s :=
  ofFields?_toJson fits s.kind.ofJson?_name

theorem ofTagged?_toJson (fits : s.FitsWords) : ofTagged? s.toJson = some s :=
  ofFields?_toJson fits s.kind.ofTagged?_name

theorem optional?_toJson {set : Option SetId} (fits : ∀ s ∈ set, s.FitsWords)
    : (Value.optional toJson set).optional? ofTagged? = some set :=
  Value.optional?_optional (fun _ => Value.noConfusion) fun s given =>
    ofTagged?_toJson (fits s given)

theorem isPlain_toJson (fits : s.FitsWords) : s.toJson.IsPlain := by
  have pageSize : ∀ n ∈ s.pageSize, n ≤ Decimal.maxWord := fits
  simpa [toJson] using pageSize

theorem height_toJson_le (s : SetId) : s.toJson.height ≤ 1 := by
  refine Nat.succ_le_succ (Value.heightOfMembers_le ?_)
  simp [Value.height]

end SetId

-----------------------------------------------------------------------------------------------
-- Parts of stages
-----------------------------------------------------------------------------------------------

/-- The number of the stage fits a word. -/
def StageId.FitsWords (id : StageId) : Prop :=
  id.number ≤ Decimal.maxWord

instance (id : StageId) : Decidable id.FitsWords :=
  inferInstanceAs (Decidable (id.number ≤ Decimal.maxWord))

theorem StageId.ofJson?_toJson {id : StageId} (fits : id.FitsWords)
    : ofJson? id.toJson = some id := by
  rw [ofJson?, toJson, Value.word?_natural fits, Option.map_some]

theorem StageId.isPlain_toJson {id : StageId} (fits : id.FitsWords) : id.toJson.IsPlain :=
  .word fits

/-- A table of texts is read as it was. -/
theorem probesOfJson?_toJson (probes : Table String)
    : probesOfJson? (probesToJson probes) = some probes :=
  Value.members?_entries fun _ _ => rfl

theorem isPlain_probesToJson (probes : Table String) : (probesToJson probes).IsPlain :=
  Value.isPlain_entries fun _ _ => .text _

theorem height_probesToJson_le (probes : Table String) : (probesToJson probes).height ≤ 1 := by
  refine Nat.succ_le_succ (Value.heightOfMembers_le fun entry member => ?_)
  obtain ⟨-, -, rfl⟩ := List.mem_map.mp member
  exact Nat.le_refl 0

-----------------------------------------------------------------------------------------------
-- Stages of each kind
-----------------------------------------------------------------------------------------------

namespace TupleSetStage

/-- All numbers of the stage and of its sets fit a word. -/
@[mk_iff]
structure FitsWords (s : TupleSetStage) : Prop where
  id : s.id.FitsWords
  source : s.source.FitsWords
  sink : s.sink.FitsWords
  combiner : ∀ set ∈ s.combiner, set.FitsWords
  nodesToCollect : s.nodesToCollect ≤ Decimal.maxWord
  nodeId : ∀ n ∈ s.nodeId, n ≤ Decimal.maxWord
  nodeCount : ∀ n ∈ s.nodeCount, n ≤ Decimal.maxWord
  totalPartitions : ∀ n ∈ s.totalPartitions, n ≤ Decimal.maxWord
  memory : ∀ n ∈ s.memory, n ≤ Decimal.maxWord

instance (s : TupleSetStage) : Decidable s.FitsWords :=
  decidable_of_iff' _ (fitsWords_iff s)

variable {s : TupleSetStage}

theorem ofJson?_members (fits : s.FitsWords) : ofJson? (.object s.members) = some s := by
  have id := StageId.ofJson?_toJson fits.id
  have source := SetId.ofTagged?_toJson fits.source
  have sink := SetId.ofTagged?_toJson fits.sink
  have combiner := SetId.optional?_toJson fits.combiner
  have probes : (Value.optional probesToJson s.probes).optional? probesOfJson? = some s.probes :=
    Value.optional?_optional (fun _ => Value.noConfusion) fun probes _ =>
      probesOfJson?_toJson probes
  have nodesToCollect := Value.word?_natural fits.nodesToCollect
  have nodeId := Value.optional?_natural fits.nodeId
  have nodeCount := Value.optional?_natural fits.nodeCount
  have totalPartitions := Value.optional?_natural fits.totalPartitions
  have memory := Value.optional?_natural fits.memory
  rw [ofJson?, Value.fields?_object fieldNames (by decide +kernel) rfl]
  simp [members, id, source, sink, combiner, probes, nodesToCollect, nodeId, nodeCount,
    totalPartitions, memory]

theorem isPlain_members (fits : s.FitsWords) : (Value.object s.members).IsPlain := by
  have combiner : ∀ set ∈ s.combiner, set.toJson.IsPlain := fun set given =>
    SetId.isPlain_toJson (fits.combiner set given)
  have probes : ∀ table ∈ s.probes, (probesToJson table).IsPlain := fun table _ =>
    isPlain_probesToJson table
  simpa [members, SetId.isPlain_toJson fits.source, SetId.isPlain_toJson fits.sink,
    StageId.isPlain_toJson fits.id, fits.nodesToCollect]
    using ⟨combiner, probes, fits.nodeId, fits.nodeCount, fits.totalPartitions, fits.memory⟩

theorem height_members_le (s : TupleSetStage) : ∀ entry ∈ s.members, entry.2.height ≤ 1 := by
  simp [members, Value.height, StageId.toJson, SetId.height_toJson_le, Value.height_texts_le,
    Value.height_optional_le SetId.height_toJson_le,
    Value.height_optional_le height_probesToJson_le]

end TupleSetStage

namespace AggregationStage

/-- All numbers of the stage and of its sets fit a word. -/
@[mk_iff]
structure FitsWords (s : AggregationStage) : Prop where
  id : s.id.FitsWords
  source : s.source.FitsWords
  sink : s.sink.FitsWords
  nodePartitions : ∀ n ∈ s.nodePartitions, n ≤ Decimal.maxWord
  memory : ∀ n ∈ s.memory, n ≤ Decimal.maxWord

instance (s : AggregationStage) : Decidable s.FitsWords :=
  decidable_of_iff' _ (fitsWords_iff s)

variable {s : AggregationStage}

theorem ofJson?_members (fits : s.FitsWords) : ofJson? (.object s.members) = some s := by
  have id := StageId.ofJson?_toJson fits.id
  have source := SetId.ofTagged?_toJson fits.source
  have sink := SetId.ofTagged?_toJson fits.sink
  have nodePartitions := Value.optional?_natural fits.nodePartitions
  have memory := Value.optional?_natural fits.memory
  rw [ofJson?, Value.fields?_object fieldNames (by decide +kernel) rfl]
  simp [members, id, source, sink, nodePartitions, memory]

theorem isPlain_members (fits : s.FitsWords) : (Value.object s.members).IsPlain := by
  simpa [members, SetId.isPlain_toJson fits.source, SetId.isPlain_toJson fits.sink,
    StageId.isPlain_toJson fits.id] using ⟨fits.nodePartitions, fits.memory⟩

theorem height_members_le (s : AggregationStage) : ∀ entry ∈ s.members, entry.2.height ≤ 1 := by
  simp [members, Value.height, StageId.toJson, SetId.height_toJson_le]

end AggregationStage

namespace BroadcastBuildStage

/-- All numbers of the stage and of its source fit a word. -/
@[mk_iff]
structure FitsWords (s : BroadcastBuildStage) : Prop where
  id : s.id.FitsWords
  source : s.source.FitsWords
  memory : ∀ n ∈ s.memory, n ≤ Decimal.maxWord

instance (s : BroadcastBuildStage) : Decidable s.FitsWords :=
  decidable_of_iff' _ (fitsWords_iff s)

variable {s : BroadcastBuildStage}

theorem ofJson?_members (fits : s.FitsWords) : ofJson? (.object s.members) = some s := by
  have id := StageId.ofJson?_toJson fits.id
  have source := SetId.ofTagged?_toJson fits.source
  have memory := Value.optional?_natural fits.memory
  rw [ofJson?, Value.fields?_object fieldNames (by decide +kernel) rfl]
  simp [members, id, source, memory]

theorem isPlain_members (fits : s.FitsWords) : (Value.object s.members).IsPlain := by
  simpa [members, SetId.isPlain_toJson fits.source, StageId.isPlain_toJson fits.id]
    using fits.memory

theorem height_members_le (s : BroadcastBuildStage)
    : ∀ entry ∈ s.members, entry.2.height ≤ 1 := by
  simp [members, Value.height, StageId.toJson, SetId.height_toJson_le]

end BroadcastBuildStage

namespace PartitionedBuildStage

/-- All numbers of the stage and of its source fit a word. -/
@[mk_iff]
structure FitsWords (s : PartitionedBuildStage) : Prop where
  id : s.id.FitsWords
  source : s.source.FitsWords
  nodePartitions : ∀ n ∈ s.nodePartitions, n ≤ Decimal.maxWord
  memory : ∀ n ∈ s.memory, n ≤ Decimal.maxWord

instance (s : PartitionedBuildStage) : Decidable s.FitsWords :=
  decidable_of_iff' _ (fitsWords_iff s)

variable {s : PartitionedBuildStage}

theorem ofJson?_members (fits : s.FitsWords) : ofJson? (.object s.members) = some s := by
  have id := StageId.ofJson?_toJson fits.id
  have source := SetId.ofTagged?_toJson fits.source
  have nodePartitions := Value.optional?_natural fits.nodePartitions
  have memory := Value.optional?_natural fits.memory
  rw [ofJson?, Value.fields?_object fieldNames (by decide +kernel) rfl]
  simp [members, id, source, nodePartitions, memory]

theorem isPlain_members (fits : s.FitsWords) : (Value.object s.members).IsPlain := by
  simpa [members, SetId.isPlain_toJson fits.source, StageId.isPlain_toJson fits.id]
    using ⟨fits.nodePartitions, fits.memory⟩

theorem height_members_le (s : PartitionedBuildStage)
    : ∀ entry ∈ s.members, entry.2.height ≤ 1 := by
  simp [members, Value.height, StageId.toJson, SetId.height_toJson_le]

end PartitionedBuildStage

-----------------------------------------------------------------------------------------------
-- Tagged stages
-----------------------------------------------------------------------------------------------

@[simp]
theorem StageKind.ofName?_name (kind : StageKind) : ofName? kind.name = some kind := by
  cases kind <;> rfl

namespace Stage

/-- All numbers of the stage and of its sets fit a word. -/
def FitsWords : Stage → Prop
  | .tupleSet s => s.FitsWords
  | .aggregation s => s.FitsWords
  | .broadcastBuild s => s.FitsWords
  | .partitionedBuild s => s.FitsWords

instance : (s : Stage) → Decidable s.FitsWords
  | .tupleSet s => inferInstanceAs (Decidable s.FitsWords)
  | .aggregation s => inferInstanceAs (Decidable s.FitsWords)
  | .broadcastBuild s => inferInstanceAs (Decidable s.FitsWords)
  | .partitionedBuild s => inferInstanceAs (Decidable s.FitsWords)

/-- No field of a stage is named as the tag is. -/
theorem ne_tag_of_mem_members {s : Stage} {entry : String × Value} (member : entry ∈ s.members)
    : entry.1 ≠ tag := by
  have untagged : tag ∉ s.members.map Prod.fst := by
    cases s with
    | tupleSet s => exact (by decide +kernel : tag ∉ TupleSetStage.fieldNames)
    | aggregation s => exact (by decide +kernel : tag ∉ AggregationStage.fieldNames)
    | broadcastBuild s => exact (by decide +kernel : tag ∉ BroadcastBuildStage.fieldNames)
    | partitionedBuild s => exact (by decide +kernel : tag ∉ PartitionedBuildStage.fieldNames)
  exact fun same => untagged (same ▸ List.mem_map_of_mem member)

variable {s : Stage}

theorem ofFields?_members (fits : s.FitsWords) : ofFields? s.kind (.object s.members) = some s := by
  cases s with
  | tupleSet s => exact congrArg (Option.map _) (TupleSetStage.ofJson?_members fits)
  | aggregation s => exact congrArg (Option.map _) (AggregationStage.ofJson?_members fits)
  | broadcastBuild s => exact congrArg (Option.map _) (BroadcastBuildStage.ofJson?_members fits)
  | partitionedBuild s =>
      exact congrArg (Option.map _) (PartitionedBuildStage.ofJson?_members fits)

/-- The tag is found in front of the fields, and tells how they are taken apart. -/
theorem ofTagged?_toJson (fits : s.FitsWords) : ofTagged? s.toJson = some s := by
  have tags : ((tag, Value.text s.kind.name) :: s.members).filter (·.1 == tag)
      = [(tag, .text s.kind.name)] := by
    have none : s.members.filter (·.1 == tag) = [] :=
      List.filter_eq_nil_iff.mpr fun _ member => by simpa using ne_tag_of_mem_members member
    rw [List.filter_cons_of_pos (by simp), none]
  have fields : ((tag, Value.text s.kind.name) :: s.members).filter (·.1 != tag) = s.members := by
    rw [List.filter_cons_of_neg (by simp)]
    exact List.filter_eq_self.mpr fun _ member => by simpa using ne_tag_of_mem_members member
  rw [toJson, ofTagged?, tags, fields]
  simp [ofFields?_members fits]

theorem isPlain_toJson (fits : s.FitsWords) : s.toJson.IsPlain := by
  have fields : (Value.object s.members).IsPlain := by
    cases s with
    | tupleSet s => exact TupleSetStage.isPlain_members fits
    | aggregation s => exact AggregationStage.isPlain_members fits
    | broadcastBuild s => exact BroadcastBuildStage.isPlain_members fits
    | partitionedBuild s => exact PartitionedBuildStage.isPlain_members fits
  simpa [toJson] using fields

/-- A stage is an object whose fields are at most lists of texts or objects without parts. -/
theorem height_toJson_le (s : Stage) : s.toJson.height ≤ 2 := by
  have fields : ∀ entry ∈ s.members, entry.2.height ≤ 1 := by
    cases s with
    | tupleSet s => exact s.height_members_le
    | aggregation s => exact s.height_members_le
    | broadcastBuild s => exact s.height_members_le
    | partitionedBuild s => exact s.height_members_le
  refine Nat.succ_le_succ (Value.heightOfMembers_le fun entry member => ?_)
  rcases List.mem_cons.mp member with rfl | later
  · exact Nat.zero_le 1
  · exact fields entry later

/-- A stage is read as it was, wherever stages stand. -/
theorem ofJsonUnder?_toJson {outer : Nat} (fits : s.FitsWords) (room : outer + 2 ≤ highest)
    : ofJsonUnder? outer s.toJson = some s := by
  have low := s.height_toJson_le
  have readable := Value.isReadable_of_isPlain (isPlain_toJson fits)
  have fit : outer + s.toJson.height ≤ highest := by omega
  rw [ofJsonUnder?, readable, if_pos (by simpa using fit), ofTagged?_toJson fits]

end Stage

end DataflowPlan
