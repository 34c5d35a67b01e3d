import DataflowPlan.Proofs.Cluster.Holdings
import DataflowPlan.Scheduler

/-! What the nodes of a simulated cluster have run. A node that carries out its copy of a stage adds
it to its own stages, one that fails it changes nothing, and no other request adds to them.
-/

namespace DataflowPlan

-----------------------------------------------------------------------------------------------
-- One node
-----------------------------------------------------------------------------------------------

namespace LocalCluster

variable {c : LocalCluster}

/-- The copies of stages that a node has run, in order. -/
def ranOn (c : LocalCluster) (node : Nat) : List Stage :=
  (c.executed.filter (·.1 == node)).map Prod.snd

theorem stageOrder_eq (c : LocalCluster) (node : Nat)
    : c.stageOrder node = (c.ranOn node).map Stage.id := by
  simp [stageOrder, ranOn]

theorem executed_collect (node : ClusterNode)
    : (collect node c).2.executed = c.executed := by
  rw [collect_state]

theorem executed_createSet (node : ClusterNode) (set : SetId)
    : (createSet node set c).2.executed = c.executed := by
  unfold createSet
  split <;> rfl

theorem executed_afterStage (node : Nat) (stage : Stage)
    : (c.afterStage node stage).executed = c.executed ++ [(node, stage)] := by
  unfold afterStage
  cases stage.sink? <;> cases consumed? stage <;> rfl

/-- A node carries out a stage, or fails it and stays as it is. -/
theorem execute_cases (node : ClusterNode) (stage : Stage) (c : LocalCluster)
    : execute node stage c = (.ok (), c.afterStage node.id stage)
      ∨ ∃ error, execute node stage c = (.error error, c) := by
  unfold execute
  split
  · exact .inr ⟨_, rfl⟩
  · split
    · exact .inr ⟨_, rfl⟩
    · exact .inl rfl

theorem ranOn_afterStage (node n : Nat) (stage : Stage)
    : (c.afterStage node stage).ranOn n
        = if n = node then c.ranOn n ++ [stage] else c.ranOn n := by
  rw [ranOn, executed_afterStage, List.filter_append, List.map_append]
  by_cases same : n = node
  · simp [ranOn, same]
  · have other : (node == n) = false := beq_false_of_ne (Ne.symm same)
    simp [ranOn, same, other]

end LocalCluster

-----------------------------------------------------------------------------------------------
-- All nodes
-----------------------------------------------------------------------------------------------

section Asking

variable {σ α β : Type} {ask : ClusterNode → Request σ α} {fit : σ → Prop}

/-- What every request keeps, asking in turn keeps. -/
theorem askAll_keeps {nodes : List ClusterNode}
    (each : ∀ node ∈ nodes, ∀ state, fit state → fit (ask node state).2) {state : σ}
    (fits : fit state)
    : fit (askAll ask nodes state).2 := by
  induction nodes generalizing state with
  | nil => exact fits
  | cons node rest ih =>
      exact ih (fun other later => each other (List.mem_cons_of_mem _ later))
        (each node List.mem_cons_self state fits)

variable (part : σ → Nat → β) (keeps : ∀ node state, fit state → fit (ask node state).2)
  (apart
    : ∀ node state n,
        fit state → n ≠ node.id → part (ask node state).2 n = part state n)

include keeps apart

/-- Asking other nodes in turn leaves a node's part alone, if each request leaves that of other
nodes alone.
-/
theorem askAll_elsewhere {nodes : List ClusterNode} {state : σ} (fits : fit state) {n : Nat}
    (outside : n ∉ nodes.map ClusterNode.id)
    : part (askAll ask nodes state).2 n = part state n := by
  induction nodes generalizing state with
  | nil => rfl
  | cons node rest ih =>
      rw [List.map_cons, List.mem_cons, not_or] at outside
      exact (ih (keeps node state fits) outside.2).trans (apart node state n fits outside.1)

/-- A node that is asked in turn with others is asked while its own part is as it was before, and
its part stays as that request leaves it.
Witness: induction on the nodes, whose identifiers differ.
-/
theorem askAll_at {nodes : List ClusterNode} (distinct : (nodes.map ClusterNode.id).Nodup)
    {state : σ} (fits : fit state) {node : ClusterNode} (member : node ∈ nodes)
    : ∃ turn,
        fit turn
        ∧ part turn node.id = part state node.id
        ∧ (node, (ask node turn).1) ∈ (askAll ask nodes state).1
        ∧ part (askAll ask nodes state).2 node.id = part (ask node turn).2 node.id := by
  induction nodes generalizing state with
  | nil => simp at member
  | cons head rest ih =>
      obtain ⟨new, others⟩ := List.nodup_cons.mp distinct
      have still := keeps head state fits
      rcases List.mem_cons.mp member with rfl | later
      · exact ⟨state, fits, rfl, List.mem_cons_self, askAll_elsewhere part keeps apart still new⟩
      · have differs : node.id ≠ head.id := fun same => new (same ▸ List.mem_map_of_mem later)
        obtain ⟨turn, fitting, before, answered, after⟩ := ih others still later
        exact ⟨turn, fitting, before.trans (apart head state node.id fits differs),
          List.mem_cons_of_mem _ answered, after⟩

end Asking

-----------------------------------------------------------------------------------------------
-- Services
-----------------------------------------------------------------------------------------------

section Services

variable {σ α : Type} {view : σ → LocalCluster} {fit : σ → Prop} {service : Service σ}

/-- The request leaves what was run as it is, whatever it answers. -/
def RunsNothing (view : σ → LocalCluster) (fit : σ → Prop) (request : σ → α × σ)
    : Prop :=
  ∀ state,
    fit state →
      (view (request state).2).executed = (view state).executed ∧ fit (request state).2

/-- A service whose stages are run by the simulated cluster behind it. All other requests may fail
or be answered in any way.
-/
structure Service.RunsOn (service : Service σ) (view : σ → LocalCluster) (fit : σ → Prop)
    : Prop where
  collect : ∀ node, RunsNothing view fit (service.collect node)
  createSet : ∀ node set, RunsNothing view fit (service.createSet node set)
  removeSet : ∀ node set, RunsNothing view fit (service.removeSet node set)
  isCancelled : RunsNothing view fit service.isCancelled
  execute
    : ∀ node stage, Passes view fit (service.execute node stage) (LocalCluster.execute node stage)

theorem Passes.runsNothing {request : σ → α × σ} {own : LocalCluster → α × LocalCluster}
    (passes : Passes view fit request own) (same : ∀ c, (own c).2.executed = c.executed)
    : RunsNothing view fit request := by
  intro state fits
  obtain ⟨-, after, still⟩ := passes state fits
  exact ⟨after ▸ same (view state), still⟩

theorem RunsNothing.askAll {ask : ClusterNode → Request σ α}
    (each : ∀ node, RunsNothing view fit (ask node)) (nodes : List ClusterNode)
    : RunsNothing view fit (askAll ask nodes) := by
  intro state fits
  have keeps : ∀ node ∈ nodes, ∀ later,
      (view later).executed = (view state).executed ∧ fit later →
        (view (ask node later).2).executed = (view state).executed ∧ fit (ask node later).2 := by
    rintro node - later ⟨before, fitting⟩
    obtain ⟨same, still⟩ := each node later fitting
    exact ⟨same.trans before, still⟩
  exact askAll_keeps keeps ⟨rfl, fits⟩

namespace Service.RunsOn

variable (runs : service.RunsOn view fit) (cluster : ClusterConfig)

include runs

theorem refresh : RunsNothing view fit (service.refresh cluster) :=
  fun state fits => RunsNothing.askAll runs.collect cluster.nodes state fits

theorem createEverywhere (set : SetId)
    : RunsNothing view fit (service.createEverywhere cluster set) :=
  fun state fits => RunsNothing.askAll (runs.createSet · set) cluster.nodes state fits

theorem removeEverywhere (set : SetId)
    : RunsNothing view fit (service.removeEverywhere cluster set) :=
  fun state fits => RunsNothing.askAll (runs.removeSet · set) cluster.nodes state fits

theorem removeAll (outcome : Except ExecError Unit) (sets : List SetId)
    : RunsNothing view fit (service.removeAll cluster outcome sets) := by
  induction sets generalizing outcome with
  | nil => exact fun state fits => ⟨rfl, fits⟩
  | cons set rest ih =>
      intro state fits
      obtain ⟨same, still⟩ := runs.removeEverywhere cluster set state fits
      rw [Service.removeAll]
      split
      all_goals
        next after removed =>
          rw [removed] at same still
          obtain ⟨others, last⟩ := ih _ after still
          exact ⟨others.trans same, last⟩

/-- Each node has run its copy of the stage after it is sent out, or none of it; if no node fails,
all have run theirs.
-/
theorem dispatch (distinct : (cluster.nodes.map ClusterNode.id).Nodup) (stage : Stage) {state : σ}
    (fits : fit state)
    : fit (service.dispatch cluster stage state).2
      ∧ ∀ node ∈ cluster.nodes,
          (view (service.dispatch cluster stage state).2).ranOn node.id
              = (view state).ranOn node.id ++ [stage.specializeFor node cluster]
            ∨ (service.dispatch cluster stage state).1 ≠ .ok ()
              ∧ (view (service.dispatch cluster stage state).2).ranOn node.id
                = (view state).ranOn node.id := by
  have keeps : ∀ node state, fit state →
      fit (service.execute node (stage.specializeFor node cluster) state).2 :=
    fun node state fits => (runs.execute node _ state fits).2.2
  have apart : ∀ node state n, fit state → n ≠ node.id →
      (view (service.execute node (stage.specializeFor node cluster) state).2).ranOn n
        = (view state).ranOn n := by
    intro node state n fits other
    rw [(runs.execute node _ state fits).2.1]
    rcases LocalCluster.execute_cases node (stage.specializeFor node cluster) (view state) with
      carried | ⟨error, failed⟩
    · rw [carried, LocalCluster.ranOn_afterStage, if_neg other]
    · rw [failed]
  refine ⟨askAll_keeps (fun node _ => keeps node) fits, fun node member => ?_⟩
  obtain ⟨turn, fitting, before, answered, after⟩ :=
    askAll_at (fun state n => (view state).ranOn n) keeps apart distinct fits member
  obtain ⟨answer, own, -⟩ := runs.execute node (stage.specializeFor node cluster) turn fitting
  rw [← before]
  rcases LocalCluster.execute_cases node (stage.specializeFor node cluster) (view turn) with
    carried | ⟨error, failed⟩
  · refine .inl (after.trans ?_)
    rw [own, carried, LocalCluster.ranOn_afterStage, if_pos rfl]
  · refine .inr ⟨fun ok => ?_, after.trans ?_⟩
    · have well := firstError_eq_ok.mp ok _ answered
      rw [answer, failed] at well
      simp at well
    · rw [own, failed]

end Service.RunsOn

theorem Service.ActsOn.runsOn (acts : service.ActsOn view fit)
    : service.RunsOn view fit where
  collect node := (acts.collect node).runsNothing fun c => LocalCluster.executed_collect node
  createSet node set := (acts.createSet node set).runsNothing fun c =>
    LocalCluster.executed_createSet node set
  removeSet node set := (acts.removeSet node set).runsNothing fun c => rfl
  isCancelled state fits := by
    obtain ⟨same, still⟩ := acts.isCancelled state fits
    exact ⟨congrArg LocalCluster.executed same, still⟩
  execute := acts.execute

/-- On a watched cluster stages are run by its cluster, whatever is made to fail. -/
theorem WatchedCluster.runsOn
    : WatchedCluster.service.RunsOn WatchedCluster.cluster fun _ => True where
  collect node w _ := ⟨LocalCluster.executed_collect node, trivial⟩
  createSet node set w _ := by
    refine ⟨?_, trivial⟩
    simp only [service]
    split
    · rfl
    · exact LocalCluster.executed_createSet node set
  removeSet node set w _ := by
    refine ⟨?_, trivial⟩
    simp only [service]
    split <;> rfl
  isCancelled w _ := ⟨rfl, trivial⟩
  execute node stage w _ := ⟨rfl, rfl, trivial⟩

end Services

end DataflowPlan
