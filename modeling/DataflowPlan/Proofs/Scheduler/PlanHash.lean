import DataflowPlan.Proofs.Encoding.Plan
import DataflowPlan.Proofs.Scheduler.Foresight

/-! What is known of a plan from its text. The texts that digests are taken of tell all lists of
stages apart, be it for the fingerprint of a plan or for the record of a run.
-/

namespace DataflowPlan

open Json

/-- Plans and graphs are read from their texts as they were, and lists of stages can be told apart
by the texts of which a plan's fingerprint and the plan hash of a run's record are the digests.
-/
theorem texts_faithful
    : (∀ plan : Plan, plan.FitsWords → Plan.parse? plan.render = some plan)
      ∧ (∀ g : Graph,
          g.FitsWords → (Value.ofText? g.toJson.compactText).bind Graph.ofJson? = some g)
      ∧ (∀ stages others : List Stage,
          (∀ s ∈ stages, s.FitsWords)
          → (∀ s ∈ others, s.FitsWords)
          → stages ≠ others
          → (stagesToJson stages).compactText ≠ (stagesToJson others).compactText)
      ∧ (∀ plan : Plan, plan.fingerprint = .ofText (stagesToJson plan.stages).compactText)
      ∧ ∀ (σ : Type) (service : Service σ) (cluster : ClusterConfig) (session : Session)
          (state : σ) (report : RunReport) (id : Uuid) (startedMs finishedMs : Nat),
          (service.run cluster session state).1 = .ok report
          → (report.manifest id startedMs finishedMs).planHash
            = .ofText
                (stagesToJson
                  (service.run cluster session state).2.run.dispatched).compactText := by
  refine ⟨fun _ => Plan.parse?_render, fun _ => Graph.ofText?_compactText, ?_, fun _ => rfl, ?_⟩
  · exact fun stages others fits fits' different same =>
      different (eq_of_stagesText fits fits' same)
  · intro σ service cluster session state report id startedMs finishedMs finished
    rw [(Service.drive_of_run finished).2]
    rfl

/-- A plan with a stage of each kind, with unusual names and with the largest word. -/
def unusualPlan : Plan where
  jobId := "job \"1\""
  stages :=
    [.tupleSet {
        id := ⟨0⟩
        jobId := "job \"1\""
        sourceTupleSet := "in\n"
        source := ⟨"db", "data\x00", none, .user, false⟩
        tupleSets := ["in\n", "", "größer"]
        targetTupleSet := "größer"
        targetComputation := "back\\slash"
        outputType := "Object"
        sink := .intermediate "job \"1\"" "größer" 18446744073709551615
        combiner := some (.user "db" "sums")
        probes := some (.ofList [("stage", "null"), ("", "\t")])
        probing := true
        combining := true
        broadcasting := false
        repartitioning := true
        repartitionJoin := false
        repartitionVector := true
        collectAsMap := true
        nodesToCollect := 18446744073709551615
        inputAggHashOut := false
        needRemoveInput := true
        allocator := .noReferenceCount
        nodeId := some 0
        nodeCount := none
        totalPartitions := some 12
        memory := some 18446744073709551615
      },
      .aggregation
        ⟨⟨1⟩, "job", .aggregationResult "job" "in", .user "db" "out", "sum", false, none, some 0⟩,
      .broadcastBuild ⟨⟨2⟩, "job", .user "db" "in", "job:in", "in", "in", "scan", none⟩,
      .partitionedBuild ⟨⟨3⟩, "job", .user "db" "in", "job:in", "in", "in", "scan", some 4, none⟩]
  intermediateSets := [.intermediate "job \"1\"" "größer" 18446744073709551615]

theorem unusualPlan_text_faithful
    : unusualPlan.FitsWords
      ∧ Plan.parse? unusualPlan.render = some unusualPlan
      ∧ twoScans.FitsWords
      ∧ (Value.ofText? twoScans.toJson.compactText).bind Graph.ofJson? = some twoScans
      ∧ (stagesToJson unusualPlan.stages).compactText
        ≠ (stagesToJson unusualPlan.stages.tail).compactText
      ∧ ∃ first report,
          Session.start "job" twoScans .standard = .ok first
          ∧ (LocalCluster.service.run twoNodes first sidedNodes).1 = .ok report
          ∧ (report.manifest ⟨1⟩ 0 0).planHash
            = .ofText
                (stagesToJson
                  (LocalCluster.service.run twoNodes first
                    sidedNodes).2.run.dispatched).compactText := by
  have plan : unusualPlan.FitsWords := by decide
  have graph : twoScans.FitsWords := by decide
  refine ⟨plan, texts_faithful.1 unusualPlan plan, graph, texts_faithful.2.1 twoScans graph, ?_, ?_⟩
  · exact texts_faithful.2.2.1 unusualPlan.stages unusualPlan.stages.tail plan.stages
      (fun s member => plan.stages s (List.mem_of_mem_tail member)) (by decide)
  · have runs : (Session.start "job" twoScans .standard).toOption.any (fun first =>
        (LocalCluster.service.run twoNodes first sidedNodes).1.isOk) = true := by
      decide +kernel
    obtain ⟨first, started, runs⟩ := Except.toOption_any_iff.mp runs
    obtain ⟨report, ran⟩ := Except.isOk_iff.mp runs
    exact ⟨first, report, started, ran, texts_faithful.2.2.2.2 _ _ _ _ _ report ⟨1⟩ 0 0 ran⟩

end DataflowPlan
