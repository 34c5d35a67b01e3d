import DataflowPlan.Proofs.Cluster.Executions
import DataflowPlan.Proofs.Scheduler.Lifecycle
import DataflowPlan.Proofs.Session.Numbering

/-! The order in which stages are sent out. A stage is sent to all nodes before the next one is, and
the first that fails is the last, so that the nodes keep in step up to that one stage.
-/

namespace DataflowPlan

-----------------------------------------------------------------------------------------------
-- Nodes in step
-----------------------------------------------------------------------------------------------

/-- Since the cluster was as `before`, the node has run its copies of exactly these stages, in
order.
-/
def LocalCluster.HasRun (before after : LocalCluster) (cluster : ClusterConfig)
    (node : ClusterNode) (stages : List Stage) : Prop :=
  after.ranOn node.id = before.ranOn node.id ++ stages.map (·.specializeFor node cluster)

theorem LocalCluster.HasRun.of_executed {before after later : LocalCluster}
    {cluster : ClusterConfig} {node : ClusterNode} {stages : List Stage}
    (ran : before.HasRun after cluster node stages) (same : later.executed = after.executed)
    : before.HasRun later cluster node stages := by
  rwa [HasRun, ranOn, same]

/-- Where stages are sent to: the simulated cluster behind a service, as far as its state fits, the
nodes that are configured, and the cluster as it was at first.
-/
structure Post (σ : Type) where
  view : σ → LocalCluster
  fit : σ → Prop
  cluster : ClusterConfig
  before : LocalCluster

namespace Post

variable {σ : Type} (post : Post σ)

/-- All nodes have run exactly these stages, which are noted as sent out. -/
structure InStep (stages : List Stage) (e : Execution σ) : Prop where
  fits : post.fit e.state
  ran : ∀ node ∈ post.cluster.nodes, post.before.HasRun (post.view e.state) post.cluster node stages
  noted : e.run.dispatched = stages

/-- All nodes have run the stages before some place, and some of them the one at that place too. -/
structure NearlyInStep (planned : List Stage) (e : Execution σ) : Prop where
  fits : post.fit e.state
  ran
    : ∃ done,
        ∀ node ∈ post.cluster.nodes,
          ∃ count,
            done ≤ count ∧ count ≤ done + 1 ∧ count ≤ planned.length
            ∧ post.before.HasRun (post.view e.state) post.cluster node (planned.take count)

variable {post} {service : Service σ} {stages planned : List Stage} {stage : Stage}
  {e : Execution σ}

theorem InStep.nearly (inStep : post.InStep stages e) (within : stages <+: planned)
    : post.NearlyInStep planned e := by
  refine ⟨inStep.fits, stages.length, fun node member => ?_⟩
  refine ⟨stages.length, Nat.le_refl _, Nat.le_succ _, within.length_le, ?_⟩
  rw [← List.prefix_iff_eq_take.mp within]
  exact inStep.ran node member

/-- Nothing else of an execution matters. -/
theorem InStep.of_executed (inStep : post.InStep stages e) {state : σ} {run : Run}
    (same : (post.view state).executed = (post.view e.state).executed) (fits : post.fit state)
    (noted : run.dispatched = e.run.dispatched)
    : post.InStep stages { e with state, run } :=
  ⟨fits, fun node member => (inStep.ran node member).of_executed same, noted.trans inStep.noted⟩

theorem leads_note {change : Run → Run} {broken : Execution σ → Prop}
    (noted : ∀ run, (change run).dispatched = run.dispatched)
    : Step.Leads (post.InStep stages) (Step.note change) (post.InStep stages) broken :=
  Step.leads_note fun e inStep => inStep.of_executed rfl inStep.fits (noted e.run)

theorem leads_ask (within : stages <+: planned) {request : Request σ Unit}
    (nothing : RunsNothing post.view post.fit request)
    : Step.Leads (post.InStep stages) (Step.ask request) (post.InStep stages)
        (post.NearlyInStep planned) := by
  have keeps : ∀ e, post.InStep stages e →
      post.InStep stages { e with state := (request e.state).2 } := by
    intro e inStep
    obtain ⟨same, fits⟩ := nothing e.state inStep.fits
    exact inStep.of_executed same fits rfl
  exact Step.leads_ask (fun e inStep _ => keeps e inStep)
    fun e inStep _ _ => (keeps e inStep).nearly within

-----------------------------------------------------------------------------------------------
-- One round
-----------------------------------------------------------------------------------------------

variable (runs : service.RunsOn post.view post.fit)

include runs

theorem leads_checkCancelled (within : stages <+: planned)
    : Step.Leads (post.InStep stages) service.checkCancelled (post.InStep stages)
        (post.NearlyInStep planned) := by
  refine Service.leads_checkCancelled (fun e inStep => ?_) fun _ inStep => inStep.nearly within
  obtain ⟨same, fits⟩ := runs.isCancelled e.state inStep.fits
  exact inStep.of_executed same fits rfl

theorem leads_createLive (within : stages <+: planned) (set : SetId)
    : Step.Leads (post.InStep stages) (service.createLive post.cluster set) (post.InStep stages)
        (post.NearlyInStep planned) :=
  Step.Leads.andThen (leads_note fun _ => rfl)
    (Step.Leads.andThen (leads_ask within (runs.createEverywhere post.cluster set))
      (leads_note fun _ => rfl))

/-- Each node in step runs the stage that is sent out, or breaks off the round. -/
theorem leads_dispatch (distinct : (post.cluster.nodes.map ClusterNode.id).Nodup)
    (within : stages ++ [stage] <+: planned)
    : Step.Leads (post.InStep stages)
        ((Step.ask (service.dispatch post.cluster stage)).andThen
          (Step.note fun run => { run with dispatched := run.dispatched ++ [stage] }))
        (post.InStep (stages ++ [stage])) (post.NearlyInStep planned) := by
  have copies : ∀ node : ClusterNode,
      (stages ++ [stage]).map (·.specializeFor node post.cluster)
        = stages.map (·.specializeFor node post.cluster)
          ++ [stage.specializeFor node post.cluster] :=
    fun node => by simp
  have asking
      : Step.Leads (post.InStep stages) (Step.ask (service.dispatch post.cluster stage))
          (fun e => post.InStep (stages ++ [stage])
            { e with run := { e.run with dispatched := e.run.dispatched ++ [stage] } })
          (post.NearlyInStep planned) := by
    refine Step.leads_ask ?_ ?_
    · intro e inStep ok
      obtain ⟨fits, ran⟩ := runs.dispatch post.cluster distinct stage inStep.fits
      refine ⟨fits, fun node member => ?_, congrArg (· ++ [stage]) inStep.noted⟩
      rcases ran node member with carried | ⟨failed, -⟩
      · rw [LocalCluster.HasRun, copies, ← List.append_assoc, ← inStep.ran node member]
        exact carried
      · exact absurd ok failed
    · intro e inStep error _
      obtain ⟨fits, ran⟩ := runs.dispatch post.cluster distinct stage inStep.fits
      have room : stages.length + 1 ≤ planned.length := by simpa using within.length_le
      have here : planned.take stages.length = stages :=
        (List.prefix_iff_eq_take.mp ((List.prefix_append _ _).trans within)).symm
      have further : planned.take (stages.length + 1) = stages ++ [stage] := by
        simpa using (List.prefix_iff_eq_take.mp within).symm
      refine ⟨fits, stages.length, fun node member => ?_⟩
      rcases ran node member with carried | ⟨-, failed⟩
      · refine ⟨stages.length + 1, Nat.le_succ _, Nat.le_refl _, room, ?_⟩
        rw [further, LocalCluster.HasRun, copies, ← List.append_assoc, ← inStep.ran node member]
        exact carried
      · refine ⟨stages.length, Nat.le_refl _, Nat.le_succ _, Nat.le_of_succ_le room, ?_⟩
        rw [here, LocalCluster.HasRun, ← inStep.ran node member]
        exact failed
  exact asking.andThen (Step.leads_note fun e inStep => inStep)

theorem leads_runStage (distinct : (post.cluster.nodes.map ClusterNode.id).Nodup)
    (within : stages ++ [stage] <+: planned)
    : Step.Leads (post.InStep stages) (service.runStage post.cluster stage)
        (post.InStep (stages ++ [stage])) (post.NearlyInStep planned) :=
  (leads_checkCancelled runs ((List.prefix_append _ _).trans within)).andThen
    (Step.Leads.andThen (leads_note fun _ => rfl) (leads_dispatch runs distinct within))

theorem leads_removeConsumed (within : stages <+: planned)
    : Step.Leads (post.InStep stages) (service.removeConsumed post.cluster) (post.InStep stages)
        (post.NearlyInStep planned) := by
  intro e inStep
  exact Step.leads_forEach (fun _ => post.InStep stages) _
    (fun _ set _ _ => leads_ask within (runs.removeEverywhere post.cluster set)) _
    (inStep.of_executed rfl inStep.fits rfl)

/-- A round lets all nodes run the stages of its increment, one after the other. -/
theorem leads_carryOut (distinct : (post.cluster.nodes.map ClusterNode.id).Nodup)
    (increment : Increment)
    : Step.Leads (post.InStep stages) (service.carryOut post.cluster increment)
        (post.InStep (stages ++ increment.stages))
        (post.NearlyInStep (stages ++ increment.stages)) := by
  have creating := Step.leads_forEach (fun _ => post.InStep stages) increment.intermediateSets
    fun _ set _ _ => leads_createLive runs (List.prefix_append stages increment.stages) set
  have running := Step.leads_forEach (fun done => post.InStep (stages ++ done)) increment.stages
    fun done stage rest whole => by
      have within : stages ++ done ++ [stage] <+: stages ++ increment.stages :=
        ⟨rest, by simp [whole]⟩
      simpa using leads_runStage runs distinct within
  rw [List.append_nil] at running
  exact Step.Leads.andThen (leads_note fun _ => rfl)
    (creating.andThen (running.andThen (leads_removeConsumed runs (List.prefix_refl _))))

-----------------------------------------------------------------------------------------------
-- Rounds in turn
-----------------------------------------------------------------------------------------------

/-- Planning a round runs nothing. -/
theorem InStep.planNext (inStep : post.InStep stages e)
    : post.InStep stages (service.planNext post.cluster e).2 := by
  obtain ⟨run, state, -⟩ := service.planNext_spec post.cluster e
  obtain ⟨same, fits⟩ := runs.refresh post.cluster e.state inStep.fits
  rw [← state] at same fits
  exact ⟨fits, fun node member => (inStep.ran node member).of_executed same, run ▸ inStep.noted⟩

/-- The rounds of a run keep the nodes in step, up to the stage or request at which they break off.
-/
theorem leads_drive (distinct : (post.cluster.nodes.map ClusterNode.id).Nodup) (first : Session)
    (fuel : Nat)
    : Step.Leads
        (fun e =>
          (∃ out, first.LeadsTo out e.session ∧ post.InStep out.stages e)
          ∧ e.session.topology.arena.activeCount ≤ fuel)
        (service.drive post.cluster fuel)
        (fun e =>
          (∃ out, first.LeadsTo out e.session ∧ post.InStep out.stages e)
          ∧ e.session.hasSources = false)
        (fun e => ∃ whole, first.LeadsTo whole e.session ∧ post.NearlyInStep whole.stages e) := by
  refine Service.leads_drive ?_ ?_ ?_ fuel
  · rintro e ⟨out, leads, inStep⟩
    obtain ⟨well, ill⟩ := leads_checkCancelled runs (List.prefix_refl _) e inStep
    exact ⟨fun ok => ⟨out, leads, well ok⟩, fun error fails => ⟨out, leads, ill error fails⟩⟩
  · rintro e error next ⟨out, leads, inStep⟩ planned
    have stays := (leads.planNext service post.cluster).2
    have ready := inStep.planNext runs
    rw [planned] at stays ready
    exact ⟨out, stays error rfl, ready.nearly (List.prefix_refl _)⟩
  · rintro e increment next ⟨out, leads, inStep⟩ planned - _ rfl
    have goesOn := (leads.planNext service post.cluster).1
    have ready := inStep.planNext runs
    rw [planned] at goesOn ready
    obtain ⟨well, ill⟩ := leads_carryOut runs distinct increment _ ready
    have further : first.LeadsTo (out.append increment)
        (service.carryOut post.cluster increment _).2.session :=
      (service.keepsSession_carryOut post.cluster increment _).symm ▸ goesOn increment rfl
    exact ⟨fun ok => ⟨_, further, well ok⟩, fun error fails => ⟨_, further, ill error fails⟩⟩

end Post

-----------------------------------------------------------------------------------------------
-- Runs
-----------------------------------------------------------------------------------------------

/-- What the nodes have run of a job's stages, from the cluster before it to the one after it: each
of them the first so many stages, in order, and none more than one stage ahead of another.
-/
structure DispatchOrder (cluster : ClusterConfig) (planned : List Stage)
    (before after : LocalCluster) : Prop where
  numbered : planned.map Stage.id = (List.range planned.length).map StageId.mk
  inStep
    : ∃ done,
        ∀ node ∈ cluster.nodes,
          ∃ count copies,
            done ≤ count ∧ count ≤ done + 1 ∧ count ≤ planned.length
            ∧ after.ranOn node.id = before.ranOn node.id ++ copies
            -- but for the fields of a node's copy these are the planned stages
            ∧ copies.map Stage.planned = (planned.take count).map Stage.planned
            ∧ after.stageOrder node.id
              = before.stageOrder node.id ++ (List.range count).map StageId.mk

theorem LocalCluster.HasRun.copies {before after : LocalCluster} {cluster : ClusterConfig}
    {node : ClusterNode} {planned : List Stage} {count : Nat}
    (ran : before.HasRun after cluster node (planned.take count))
    (numbered : planned.map Stage.id = (List.range planned.length).map StageId.mk)
    (within : count ≤ planned.length)
    : ∃ copies,
        after.ranOn node.id = before.ranOn node.id ++ copies
        ∧ copies.map Stage.planned = (planned.take count).map Stage.planned
        ∧ after.stageOrder node.id
          = before.stageOrder node.id ++ (List.range count).map StageId.mk := by
  have ids : (planned.take count).map Stage.id = (List.range count).map StageId.mk := by
    rw [List.map_take, numbered, ← List.map_take, List.take_range, Nat.min_eq_left within]
  have own : ∀ stage : Stage, (stage.specializeFor node cluster).id = stage.id := by
    rintro (_ | _ | _ | _) <;> rfl
  refine ⟨_, ran, ?_, ?_⟩
  · simp [Function.comp_def, Stage.planned_specializeFor]
  · rw [stageOrder_eq, stageOrder_eq, ran, List.map_append, List.map_map, ← ids]
    simp [Function.comp_def, own]

/-- In every run on a simulated cluster whose nodes differ, whatever fails and whenever the job is
cancelled, the nodes run the planned stages in order and in step; in a run that succeeds each of
them runs all stages that are planned, and nothing is left to plan.
Witness: a round sends out its stages one after the other and ends with the first that fails, and
the numbers of stages go on from round to round.
-/
theorem run_dispatchOrder {σ : Type} {service : Service σ} {view : σ → LocalCluster}
    {fit : σ → Prop} {cluster : ClusterConfig} {jobId : String} {g : Graph}
    {config : PlannerConfig} {first : Session} {state : σ}
    (started : Session.start jobId g config = .ok first)
    (distinct : (cluster.nodes.map ClusterNode.id).Nodup) (runs : service.RunsOn view fit)
    (fits : fit state)
    : ∃ planned,
        first.LeadsTo planned (service.run cluster first state).2.session
        ∧ DispatchOrder cluster planned.stages (view state)
            (view (service.run cluster first state).2.state)
        ∧ ∀ report,
            (service.run cluster first state).1 = .ok report →
              report.stages = planned.stages.length
              ∧ (service.run cluster first state).2.session.hasSources = false
              ∧ ∀ node ∈ cluster.nodes,
                  (view (service.run cluster first state).2.state).stageOrder node.id
                    = (view state).stageOrder node.id
                      ++ (List.range planned.stages.length).map StageId.mk := by
  obtain ⟨-, -, -, begins⟩ := Session.beginning_of_start started
  let post : Post σ := ⟨view, fit, cluster, view state⟩
  let start : Execution σ := ⟨first, .start, state⟩
  let driven := service.drive cluster first.topology.arena.activeCount start
  have runs : service.RunsOn post.view post.fit := runs
  have inStep : post.InStep [] start := ⟨fits, by simp [LocalCluster.HasRun, post, start], rfl⟩
  obtain ⟨well, ill⟩ := Post.leads_drive runs distinct first _ start
    ⟨⟨.empty, .refl first, inStep⟩, Nat.le_refl _⟩
  obtain ⟨planned, leads, nearly, complete⟩
      : ∃ planned : Increment,
          first.LeadsTo planned driven.2.session
          ∧ post.NearlyInStep planned.stages driven.2
          ∧ (driven.1 = .ok () →
              post.InStep planned.stages driven.2 ∧ driven.2.session.hasSources = false) := by
    rcases outcome : driven.1 with error | ⟨⟩
    · obtain ⟨whole, leads, nearly⟩ := ill error outcome
      exact ⟨whole, leads, nearly, nofun⟩
    · obtain ⟨⟨whole, leads, inStep⟩, none⟩ := well outcome
      exact ⟨whole, leads, inStep.nearly (List.prefix_refl _), fun _ => ⟨inStep, none⟩⟩
  have numbered := (leads.counted begins).ids
  -- what is removed at the end leaves what was run as it is
  have same
      : (view (service.run cluster first state).2.state).executed
        = (view driven.2.state).executed :=
    (runs.removeAll cluster (.ok ()) _ driven.2.state nearly.fits).1
  refine ⟨planned, leads, ⟨numbered, ?_⟩, fun report ran => ?_⟩
  · obtain ⟨done, each⟩ := nearly.ran
    refine ⟨done, fun node member => ?_⟩
    obtain ⟨count, low, high, within, ran⟩ := each node member
    obtain ⟨copies, here⟩ := (ran.of_executed same).copies numbered within
    exact ⟨count, copies, low, high, within, here⟩
  · obtain ⟨ok, rfl⟩ := Service.drive_of_run ran
    obtain ⟨inStep, none⟩ := complete ok
    refine ⟨congrArg List.length inStep.noted, none, fun node member => ?_⟩
    have ran := (inStep.ran node member).of_executed same
    rw [← List.take_length (l := planned.stages)] at ran
    obtain ⟨-, -, -, order⟩ := ran.copies numbered (Nat.le_refl _)
    exact order

/-- Of two nodes the second one fails a stage of the second round. -/
def laggingNodes : WatchedCluster :=
  { failingNodes with
    cluster := { failingNodes.cluster with failStage := some (1, ⟨2⟩) }
    cancelAfter := none }

theorem laggingNodes_dispatchOrder
    : ∃ first planned,
        Session.start "job" Session.everyKind .standard = .ok first
        ∧ DispatchOrder twoNodes planned laggingNodes.cluster
            (WatchedCluster.service.run twoNodes first laggingNodes).2.state.cluster
        ∧ (WatchedCluster.service.run twoNodes first laggingNodes).2.state.cluster.stageOrder 0
          = [⟨0⟩, ⟨1⟩, ⟨2⟩]
        ∧ (WatchedCluster.service.run twoNodes first laggingNodes).2.state.cluster.stageOrder 1
          = [⟨0⟩, ⟨1⟩] := by
  have runs : ((Session.start "job" Session.everyKind .standard).toOption.map fun first =>
      ((WatchedCluster.service.run twoNodes first laggingNodes).2.state.cluster.stageOrder 0,
        (WatchedCluster.service.run twoNodes first laggingNodes).2.state.cluster.stageOrder 1))
      = some ([⟨0⟩, ⟨1⟩, ⟨2⟩], [⟨0⟩, ⟨1⟩]) := by
    decide +kernel
  obtain ⟨first, outcome, runs⟩ := Except.toOption_map_eq_some_iff.mp runs
  simp only [Prod.mk.injEq] at runs
  obtain ⟨planned, -, order, -⟩ :=
    @run_dispatchOrder _ _ _ _ twoNodes _ _ _ _ laggingNodes outcome (by decide)
      WatchedCluster.runsOn trivial
  exact ⟨first, planned.stages, outcome, order, runs⟩

end DataflowPlan
